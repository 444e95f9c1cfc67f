import Bytestream.Proofs.Resumption
import Bytestream.Proofs.StorageFrame

/-!
Where a stream stands in its data. A backend that is read and written directly keeps the position
itself. With a window on the backend the position is that of the next unread byte, so that a refill
moves the backend and the window and leaves the stream where it is. Once a refill has failed for good
the stream still stands behind the last byte that it gave.
-/

namespace Bytestream

/-- A backend with a place in its bytes, and the place at which a stream on it was left by a refill
that failed for good. Where the position can be asked for it is the place. What the calls to come do of
a system below the backend can be replaced. -/
class Placed (β : Type) [Backend β] extends Stored β where
  place : β → Window → Int
  spent : β → Int
  Calls : Type := Unit
  under : Calls → β → β := fun _ backend => backend
  located : ∀ {backend : β} {window : Window} {outcome : Outcome},
    (Backend.seek backend window 0 .current).value = .ok outcome → outcome.code = .success →
      ∃ target : Nat, (target : Int) = place backend window ∧ outcome = .done target

/-- A target is where its origin and the offset lead. -/
theorem Origin.eq_of_resolve {origin : Origin} {offset : Int} {position length place target : Nat}
    (hPlace : origin.base position length + offset = (place : Int))
    (hTarget : origin.resolve offset position length = some target) : target = place := by
  have hSum := (toPosition?_eq_some_iff.mp hTarget).1
  omega

theorem Origin.resolve_current {position length target : Nat}
    (hTarget : Origin.current.resolve 0 position length = some target) : target = position :=
  eq_of_resolve (Int.add_zero _) hTarget

instance : Placed Region where
  place region _ := region.position
  spent region := region.position
  located := by
    intro region window outcome hSeek hCode
    change Except.ok (region.seek 0 .current).value = .ok outcome at hSeek
    rw [Region.seek] at hSeek
    split at hSeek
    · rename_i target hTarget
      split at hSeek
      · cases hSeek
        exact ⟨target, congrArg Nat.cast (Origin.resolve_current hTarget), rfl⟩
      · cases hSeek
        cases hCode
    · cases hSeek
      cases hCode

instance [Memory] : Placed Growable where
  place vector _ := vector.position
  spent vector := vector.position
  located := by
    intro vector window outcome hSeek hCode
    change Except.ok (vector.seek 0 .current).value = .ok outcome at hSeek
    rw [Growable.seek] at hSeek
    split at hSeek
    · cases hSeek
      cases hCode
    · rename_i target hTarget
      split at hSeek
      · cases hSeek
        exact ⟨target, congrArg Nat.cast (Origin.resolve_current hTarget), rfl⟩
      · cases hSeek
        cases hCode

instance : Placed File where
  place file _ := file.position
  spent file := file.position
  Calls := List SystemCall × List SystemCall
  under calls file := { file with reads := calls.1, writes := calls.2 }
  located := by
    intro file window outcome hSeek hCode
    change Except.ok (file.seek 0 .current).value = .ok outcome at hSeek
    rw [File.seek] at hSeek
    split at hSeek
    · rename_i target hTarget
      split at hSeek
      · cases hSeek
        exact ⟨target, congrArg Nat.cast (Origin.resolve_current hTarget), rfl⟩
      · cases hSeek
        cases hCode
    · cases hSeek
      cases hCode

instance : Placed ReadOnly where
  place _ window := window.cursor
  spent source := source.bytes.length
  located := by
    intro source window outcome hSeek hCode
    change (source.seek window 0 .current).value = .ok outcome at hSeek
    rw [ReadOnly.seek] at hSeek
    split at hSeek
    · rename_i target hTarget
      split at hSeek
      · cases hSeek
        exact ⟨target, congrArg Nat.cast (Origin.resolve_current hTarget), rfl⟩
      · cases hSeek
        cases hCode
    · cases hSeek
      cases hCode

instance : Placed Pieces where
  place _ window := window.cursor
  spent source := source.bytes.length
  located := by
    intro source window outcome hSeek hCode
    change (source.seek window 0 .current).value = .ok outcome at hSeek
    rw [Pieces.seek] at hSeek
    split at hSeek
    · rename_i target hTarget
      split at hSeek
      · cases hSeek
        exact ⟨target, congrArg Nat.cast (Origin.resolve_current hTarget), rfl⟩
      · cases hSeek
        cases hCode
    · cases hSeek
      cases hCode

theorem Source.target_of_seek {source after : Source} {offset : Int} {target : Nat}
    (hSeek : source.seek offset .current = (some target, after)) :
    (target : Int) = source.position + offset := by
  rw [seek] at hSeek
  dsimp only at hSeek
  split at hSeek
  · rename_i reached _ hReached
    split at hSeek
    · cases hSeek
      exact (toPosition?_eq_some_iff.mp hReached).1.symm
    · cases hSeek
  · cases hSeek

/-- The source is ahead of the reader by the bytes that are unread. -/
instance : Placed BufferedReader where
  place reader window := reader.source.position - window.available
  spent reader := reader.source.position
  located := by
    intro reader window outcome hSeek hCode
    change (reader.seek window 0 .current).value = .ok outcome at hSeek
    rw [BufferedReader.seek] at hSeek
    split at hSeek
    · cases hSeek
      cases hCode
    · rename_i shifted hShifted
      simp only [BufferedReader.sourceOffset?, Option.ite_none_right_eq_some, Option.some.injEq]
        at hShifted
      split at hSeek
      · rename_i target later hTarget
        cases hSeek
        have hReached := Source.target_of_seek hTarget
        exact ⟨target, by omega, rfl⟩
      · cases hSeek
        cases hCode

/-- A read moves a source past what it gave, and nowhere where it failed. -/
theorem Source.position_of_read {source after : Source} {taken : Option Bytes} {count : Nat}
    (hRead : source.read count = (taken, after)) :
    after.position = source.position + (taken.getD []).length := by
  rw [read] at hRead
  split at hRead
  · split at hRead
    · cases hRead
      rfl
    · cases hRead
      rfl
    · cases hRead
      rfl
  · cases hRead
    rfl

/-- A backend whose window moves ahead of the stream: steps in the window move the stream and refills do
not, and a refill that fails for good leaves it where it was. No calls to come are replaced below it. -/
class WindowPlaced (β : Type) [Backend β] [FitsWindow β] [Placed β] : Prop where
  under_eq : ∀ (calls : Placed.Calls β) (backend : β), Placed.under calls backend = backend := by
    intros; rfl
  consumed : ∀ {backend : β} {window moved : Window} {count : Nat},
    window.consume count = .ok moved →
      Placed.place backend moved = Placed.place backend window + count
  refilled : ∀ {backend later : β} {window moved : Window} {code : Code} {log : List Event},
    FitsWindow.Fits backend window → window.exhausted = true →
      Backend.refill backend window = ⟨.ok code, (later, moved), log⟩ →
        (if code = .success then Placed.place later moved else Placed.spent later) =
          Placed.place backend window

/-- The window on memory reaches to the end of it, wherever the stream is moved. -/
@[reducible] def ReadOnly.fitsWhole : FitsWindow ReadOnly where
  offers := Offering.capabilities_eq
  Fits source window := window.stop = source.bytes.length
  stop_le hFits := Nat.le_of_eq hFits
  moved hFits hStop := hStop.trans hFits
  size hFits := hFits
  seek := by
    intro source window hFits offset origin
    show ∃ outcome, (source.seek window offset origin).value = .ok outcome ∧ _
    simp only [Backend.seek, ReadOnly.seek]
    split
    · split
      · exact ⟨_, rfl, rfl⟩
      · exact ⟨_, rfl, hFits⟩
    · exact ⟨_, rfl, hFits⟩
  refill _ _ := ⟨.endOfStream, rfl, nofun⟩

@[reducible] def ReadOnly.drainsWhole : @Drains ReadOnly _ ReadOnly.fitsWhole :=
  @Drains.mk ReadOnly _ ReadOnly.fitsWhole (fun _ _ => 0) fun _ _ hRefill => nomatch hRefill

theorem Window.cursor_of_exhausted {window : Window} (hExhausted : window.exhausted = true) :
    window.cursor = window.stop := by
  simpa only [exhausted, decide_eq_true_eq] using hExhausted

theorem ReadOnly.windowPlaced : @WindowPlaced ReadOnly _ ReadOnly.fitsWhole _ := by
  let := ReadOnly.fitsWhole
  constructor
  · intro calls source
    rfl
  · intro source window moved count hConsume
    exact congrArg Nat.cast (Window.of_consume hConsume).2.2.1
  · intro source later window moved code log hFits hExhausted hRefill
    cases hRefill
    exact congrArg Nat.cast (hFits.symm.trans (Window.cursor_of_exhausted hExhausted).symm)

instance : WindowPlaced Pieces where
  consumed := by
    intro source window moved count hConsume
    exact congrArg Nat.cast (Window.of_consume hConsume).2.2.1
  refilled := by
    intro source later window moved code log hFits hExhausted hRefill
    have hCursor := Window.cursor_of_exhausted hExhausted
    have hInside := hFits.1
    obtain ⟨length, hNext, -⟩ := Pieces.exists_nextLength hFits.2
    simp only [Backend.refill, Pieces.refill, hNext] at hRefill
    split at hRefill
    · cases hRefill
      rw [if_neg nofun]
      exact congrArg Nat.cast (by omega)
    · cases hRefill
      exact congrArg Nat.cast hCursor.symm

instance : WindowPlaced BufferedReader where
  consumed := by
    intro reader window moved count hConsume
    obtain ⟨hCount, -, hCursor, hStop⟩ := Window.of_consume hConsume
    simp only [Placed.place, Window.available] at hCount ⊢
    omega
  refilled := by
    intro reader later window moved code log hFits hExhausted hRefill
    have hNone : window.available = 0 := (Window.exhausted_iff window).mp hExhausted
    change reader.refill window = _ at hRefill
    simp only [Placed.place, Placed.spent]
    cases hRead : reader.source.read reader.buffer.length with
    | mk taken source =>
        have hMoved := Source.position_of_read hRead
        cases taken with
        | none =>
            rw [BufferedReader.refill_of_failed hFits hExhausted hRead] at hRefill
            cases hRefill
            rw [if_neg nofun, hNone, hMoved]
            rfl
        | some taken =>
            rw [BufferedReader.refill_of_exhausted hFits hExhausted hRead] at hRefill
            split at hRefill
            · rename_i hEmpty
              cases hRefill
              rw [if_neg nofun, hNone, hMoved, List.isEmpty_iff.mp hEmpty]
              rfl
            · cases hRefill
              rw [if_pos rfl, hNone, hMoved, Window.available_whole, Option.getD_some]
              omega

namespace Stream

section Standing

variable {β : Type} [Backend β] [Placed β] {stream after : Stream β}

/-- Where the stream stands: where the next byte that it gives or takes belongs. A stream that failed
for good stands behind the last byte that it gave. -/
def place (stream : Stream β) : Int :=
  if stream.failure.isSome then Placed.spent stream.backend
  else Placed.place stream.backend stream.window

theorem place_of_healthy (hHealthy : stream.failure = none) :
    stream.place = Placed.place stream.backend stream.window := by
  rw [place, hHealthy, if_neg (by decide)]

theorem place_of_failed (hFailed : stream.failure ≠ none) :
    stream.place = Placed.spent stream.backend := by
  rw [place, if_pos (Option.isSome_iff_ne_none.mpr hFailed)]

end Standing

/-- A stream that failed for good stays guarded, whatever it is used for. -/
theorem orderly_guarded {β : Type} [Backend β] :
    Orderly (Guarded (β := β)) (fun _ => Guarded) where
  record code stream hGuarded := Action.ends_of_state (keeps_record code stream hGuarded).1
  readDirect {stream count} hGuarded _ _ :=
    Action.ends_of_state (keeps_read count stream hGuarded).1
  peek {stream count} hGuarded _ := Action.ends_of_state (keeps_peek count stream hGuarded).1
  consume {stream count} hGuarded _ := Action.ends_of_state (keeps_consume count stream hGuarded).1
  refill {stream} hGuarded _ := Action.ends_of_state (keeps_refill stream hGuarded).1
  size stream hGuarded := Action.ends_of_state (keeps_size stream hGuarded).1
  write source stream hGuarded := Action.ends_of_state (keeps_write source stream hGuarded).1
  seek offset origin stream hGuarded :=
    Action.ends_of_state (keeps_seek offset origin stream hGuarded).1
  close stream hGuarded := Action.ends_of_state (keeps_close stream hGuarded).1
  resetErrorState stream hGuarded := Action.ends_of_state (keeps_resetErrorState stream hGuarded).1

section Windows

variable {β : Type} [Backend β] [FitsWindow β] {stream : Stream β}

/-- What a read finds without an error is data, and nothing of the stub. -/
theorem InBounds.healthy_refreshed (hBounds : stream.InBounds) (hGuarded : stream.Guarded)
    (hClean : stream.refreshed.errorState = .success) : stream.refreshed.failure = none := by
  have hKept := (keeps_refillIfExhausted stream hGuarded).1
  cases hFailure : stream.refreshed.failure with
  | none => rfl
  | some code =>
      rcases (hKept.seals hFailure).guarded with hFailed | hExhausted
      · exact absurd hClean hFailed
      · exact nomatch hExhausted.symm.trans hBounds.unread_refreshed

variable [Placed β] [WindowPlaced β]

/-- A refill leaves the stream where it stands, and so does a failure to find anything. -/
theorem InBounds.place_refreshed (hBounds : stream.InBounds) :
    stream.refreshed.place = stream.place := by
  cases hExhausted : stream.window.exhausted with
  | false => rw [refreshed_of_unread hExhausted]
  | true =>
      rcases hBounds.refreshed_of_exhausted hExhausted with
        ⟨code, hFailure, hRefreshed⟩ | ⟨code, hHealthy, hAnswer, hAfter⟩
      · have hFailed : stream.failure ≠ none := by
          rw [hFailure]
          exact nofun
        rw [hRefreshed, place_of_failed hFailed, place_of_failed (by exact hFailed)]
      have hRefill : Backend.refill stream.backend stream.window =
          ⟨.ok code, (Backend.refill stream.backend stream.window).state,
            (Backend.refill stream.backend stream.window).log⟩ := by rw [← hAnswer]
      rw [place_of_healthy hHealthy,
        ← WindowPlaced.refilled (hBounds.healthy hHealthy) hExhausted hRefill]
      rcases hAfter with ⟨hCode, -, hRefreshed⟩ | ⟨hCode, hRefreshed⟩
      · rw [hRefreshed, if_pos hCode, place_of_healthy (by exact hHealthy)]
        rfl
      · rw [hRefreshed, if_neg hCode, place_of_failed (by exact Option.some_ne_none code)]

/-- A piece off the window of a healthy stream moves it by the length of the piece. -/
theorem InBounds.takePiece_moves (hBounds : stream.InBounds) (hHealthy : stream.failure = none)
    (hUnread : 0 < stream.available) {count : Nat} (hWanted : 0 < count) :
    ∃ piece behind, (Stream.takePiece count).result stream = (.ok piece, behind) ∧
      behind.InBounds ∧ behind.Guarded ∧ 0 < piece.length ∧ piece.length ≤ count ∧
      behind.place = stream.place + piece.length := by
  have hShown := Window.slice?_of_inside hBounds.inside
  have hAll := Bytes.length_of_slice? hShown
  rw [shownBytes, hHealthy, if_neg (by decide)] at hShown hAll
  obtain ⟨window, hConsume, hPiece⟩ := takePiece_of_shown hHealthy hShown count
  have hLength : (((Backend.buffer stream.backend).drop stream.window.cursor).take
      stream.window.available |>.take (min count stream.window.available)).length =
        min count stream.available := by
    rw [List.length_take, hAll, available, Nat.min_eq_left (Nat.min_le_right _ _)]
  refine ⟨_, _, hPiece, ?_, ?_, ?_, ?_, ?_⟩
  · exact hBounds.of_same rfl rfl (Window.of_consume hConsume).2.2.2 rfl
  · exact guarded_of_healthy hBounds.window_only hHealthy
  · rw [hLength]
    exact Nat.lt_min.mpr ⟨hWanted, hUnread⟩
  · rw [hLength]
    exact Nat.min_le_left _ _
  · rw [place_of_healthy hHealthy, place_of_healthy (by exact hHealthy), hLength]
    exact WindowPlaced.consumed hConsume

/-- Copying off the window moves the stream by what it takes. Where it takes nothing it has at most
looked for something unread. The induction is on the rounds. -/
theorem InBounds.takeBuffered_moves (rounds count : Nat) (hBounds : stream.InBounds)
    (hGuarded : stream.Guarded) :
    ∃ taken after, (Stream.takeBuffered rounds count).result stream = (.ok taken, after) ∧
      taken.length ≤ count ∧ after.place = stream.place + taken.length ∧
      (taken = [] → after = stream ∨ after = stream.refreshed) := by
  have hNothing (other : Stream β) : other.place = other.place + ([] : Bytes).length :=
    (Int.add_zero _).symm
  induction rounds generalizing stream count with
  | zero => exact ⟨[], stream, rfl, Nat.zero_le _, hNothing stream, fun _ => .inl rfl⟩
  | succ rounds ih =>
      rcases Nat.eq_zero_or_pos count with rfl | hWanted
      · exact ⟨[], stream, rfl, Nat.zero_le _, hNothing stream, fun _ => .inl rfl⟩
      have hReady := hBounds.result_refillIfExhausted
      by_cases hClean : stream.refreshed.errorState = .success
      · obtain ⟨piece, behind, hPiece, hInside, hKept, hSome, hMost, hBehind⟩ :=
          hBounds.refreshed.takePiece_moves (hBounds.healthy_refreshed hGuarded hClean)
            ((Window.exhausted_eq_false_iff _).mp hBounds.unread_refreshed) hWanted
        obtain ⟨later, after, hLater, hRest, hAfter, -⟩ := ih (count - piece.length) hInside hKept
        refine ⟨piece ++ later, after,
          takeBuffered_of_piece hWanted hReady hClean hPiece rfl hLater, ?_, ?_, fun hNone => ?_⟩
        · rw [List.length_append]
          omega
        · rw [hAfter, hBehind, hBounds.place_refreshed, List.length_append]
          omega
        · rw [(List.append_eq_nil_iff.mp hNone).1] at hSome
          exact absurd hSome (Nat.lt_irrefl 0)
      · exact ⟨[], stream.refreshed, takeBuffered_of_failing hWanted hReady hClean, Nat.zero_le _,
          hBounds.place_refreshed.trans (hNothing stream), fun _ => .inr rfl⟩

end Windows

end Stream

end Bytestream

import Bytestream.Proofs.SeekTargets

/-!
What a window shows of the data. It is aligned where the bytes that it shows as unread are those that
lie where the stream stands. Steps in the window, seeks and refills keep it so. A buffered reader relies
on its source for that, which is to stand past every unread byte: a query of the length that leaves the
source at its end in front of unread bytes is the one use that breaks it.
-/

namespace Bytestream

/-- What is unread is what the data holds where the backend stands. -/
structure Aligned {β : Type} [Backend β] [Placed β] (backend : β) (window : Window) : Prop where
  standing : 0 ≤ Placed.place backend window
  shown_eq : ((Backend.buffer backend).drop window.cursor).take window.available =
    ((Stored.content backend).drop (Placed.place backend window).toNat).take window.available

section Windows

variable {β : Type} [Backend β] [Placed β] {backend : β} {window moved : Window} {count : Nat}

theorem Aligned.of_exhausted (hStanding : 0 ≤ Placed.place backend window)
    (hNone : window.available = 0) : Aligned backend window where
  standing := hStanding
  shown_eq := by rw [hNone, List.take_zero, List.take_zero]

/-- A piece of what is unread is a piece of the data. -/
theorem Aligned.front (hAligned : Aligned backend window) (hCount : count ≤ window.available) :
    ((Backend.buffer backend).drop window.cursor).take count =
      ((Stored.content backend).drop (Placed.place backend window).toNat).take count := by
  have hPiece := congrArg (List.take count) hAligned.shown_eq
  rwa [List.take_take, List.take_take, Nat.min_eq_left hCount] at hPiece

/-- A step in the window is a step in the data. -/
theorem Aligned.consume [FitsWindow β] [WindowPlaced β] (hAligned : Aligned backend window)
    (hConsume : window.consume count = .ok moved) : Aligned backend moved := by
  have hPlace : Placed.place backend moved = Placed.place backend window + count :=
    WindowPlaced.consumed hConsume
  obtain ⟨hCount, -, hCursor, hStop⟩ := Window.of_consume hConsume
  have hLeft : moved.available = window.available - count := by
    simp only [Window.available, hCursor, hStop]
    omega
  have hStanding := hAligned.standing
  refine ⟨by omega, ?_⟩
  have hRest := congrArg (List.drop count) hAligned.shown_eq
  rw [List.drop_take, List.drop_take, List.drop_drop, List.drop_drop] at hRest
  rwa [hLeft, hCursor, hPlace, Int.toNat_add hStanding (Int.natCast_nonneg count), Int.toNat_natCast]

end Windows

/-- A backend whose refills and seeks leave an aligned window, and which is spent at no negative place. -/
class KeepsAligned (β : Type) [Backend β] [FitsWindow β] [Placed β] : Prop where
  spent : ∀ backend : β, 0 ≤ Placed.spent backend
  refill : ∀ {backend later : β} {window moved : Window} {log : List Event},
    FitsWindow.Fits backend window → Aligned backend window → window.exhausted = true →
      Backend.refill backend window = ⟨.ok .success, (later, moved), log⟩ → Aligned later moved
  seek : ∀ {backend : β} {window : Window}, Aligned backend window → ∀ offset origin,
    Aligned (Backend.seek backend window offset origin).state.1
      (Backend.seek backend window offset origin).state.2

/-- Memory is shown in place, wherever the window is. -/
theorem ReadOnly.aligned (source : ReadOnly) (window : Window) : Aligned source window where
  standing := Int.natCast_nonneg window.cursor
  shown_eq := rfl

theorem ReadOnly.keepsAligned : @KeepsAligned ReadOnly _ ReadOnly.fitsWhole _ := by
  let := ReadOnly.fitsWhole
  exact ⟨fun _ => Int.natCast_nonneg _, fun _ _ _ _ => ReadOnly.aligned _ _,
    fun _ _ _ => ReadOnly.aligned _ _⟩

/-- So is data in pieces. -/
theorem Pieces.aligned (source : Pieces) (window : Window) : Aligned source window where
  standing := Int.natCast_nonneg window.cursor
  shown_eq := rfl

instance : KeepsAligned Pieces where
  spent _ := Int.natCast_nonneg _
  refill _ _ _ _ := Pieces.aligned _ _
  seek _ _ _ := Pieces.aligned _ _

/-- A source gives what lies at its position. -/
theorem Source.front_of_read {source after : Source} {taken : Bytes} {count : Nat}
    (hRead : source.read count = (some taken, after)) : taken = source.rest.take taken.length := by
  obtain ⟨most, -, rfl, -⟩ := taken_of_read hRead
  rw [List.length_take, List.take_eq_take_iff]
  omega

namespace BufferedReader

/-- A reader that shows nothing has nothing to be wrong about. -/
theorem aligned_of_exhausted (reader : BufferedReader) {window : Window}
    (hNone : window.available = 0) : Aligned reader window := by
  refine .of_exhausted ?_ hNone
  simp only [Placed.place, hNone]
  omega

/-- What a refill shows is what lies in front of the source at the position that it comes from. -/
theorem aligned_of_refill {reader later : BufferedReader} {window moved : Window} {log : List Event}
    (hFits : window.stop ≤ reader.buffer.length) (hExhausted : window.exhausted = true)
    (hRefill : reader.refill window = ⟨.ok .success, (later, moved), log⟩) :
    Aligned later moved := by
  cases hRead : reader.source.read reader.buffer.length with
  | mk given source =>
      cases given with
      | none =>
          rw [refill_of_failed hFits hExhausted hRead] at hRefill
          cases hRefill
      | some taken =>
          rw [refill_of_exhausted hFits hExhausted hRead] at hRefill
          split at hRefill
          · cases hRefill
          have hPosition : source.position = reader.source.position + taken.length :=
            Source.position_of_read hRead
          have hBytes : source.bytes = reader.source.bytes := Source.bytes_of_read hRead
          cases hRefill
          have hPlace : Placed.place (⟨source, reader.buffer.overwrite 0 taken⟩ : BufferedReader)
              (Window.whole taken.length) = reader.source.position := by
            change (source.position : Int) - (Window.whole taken.length).available = _
            rw [Window.available_whole]
            omega
          refine ⟨by rw [hPlace]; exact Int.natCast_nonneg _, ?_⟩
          rw [hPlace, Int.toNat_natCast]
          change ((reader.buffer.overwrite 0 taken).drop 0).take taken.length =
            (source.bytes.drop reader.source.position).take taken.length
          rw [take_overwrite_zero, hBytes]
          exact Source.front_of_read hRead

instance : KeepsAligned BufferedReader where
  spent _ := Int.natCast_nonneg _
  refill hFits _ hExhausted hRefill := aligned_of_refill hFits hExhausted hRefill
  seek := by
    intro reader window hAligned offset origin
    change Aligned (reader.seek window offset origin).state.1 (reader.seek window offset origin).state.2
    rcases reader.seek_cases window offset origin with ⟨_, _, _, _, _, hGone⟩ | ⟨-, seeks, hStayed⟩
    · rw [hGone]
      exact aligned_of_exhausted _ rfl
    · rw [hStayed]
      exact ⟨hAligned.standing, hAligned.shown_eq⟩

end BufferedReader

namespace Stream

section Windows

variable {β : Type} [Backend β] [FitsWindow β] [Placed β] {stream after : Stream β}

/-- A refill changes none of the data. -/
theorem InBounds.content_refreshed (hBounds : stream.InBounds) :
    Stored.content stream.refreshed.backend = Stored.content stream.backend := by
  have hRefill := Stored.refill stream.backend stream.window
  cases hExhausted : stream.window.exhausted with
  | false => rw [refreshed_of_unread hExhausted]
  | true =>
      rcases hBounds.refreshed_of_exhausted hExhausted with
        ⟨code, -, hRefreshed⟩ | ⟨code, -, -, ⟨-, -, hRefreshed⟩ | ⟨-, hRefreshed⟩⟩
      · rw [hRefreshed]
      · rw [hRefreshed]
        exact hRefill
      · rw [hRefreshed]
        exact hRefill

/-- A stream within its bounds that shows its data where it stands, as long as it is healthy. -/
structure Faithful (stream : Stream β) : Prop extends InBounds stream where
  aligned : stream.failure = none → Aligned stream.backend stream.window

/-- A stream that failed for good has nothing of its data to show. -/
theorem InBounds.faithful_of_failed (hBounds : stream.InBounds) {code : Code}
    (hFailure : stream.failure = some code) : stream.Faithful :=
  ⟨hBounds, fun hHealthy => nomatch hFailure.symm.trans hHealthy⟩

theorem InBounds.faithful_of_stub (hBounds : stream.InBounds) {code : Code}
    (hOffered : after.capabilities = stream.capabilities)
    (hWindow : after.window = Window.whole stub.length) (hFailure : after.failure = some code) :
    after.Faithful :=
  (hBounds.of_stub hOffered hWindow hFailure).faithful_of_failed hFailure

theorem Faithful.of_same (hFaithful : stream.Faithful)
    (hOffered : after.capabilities = stream.capabilities) (hBackend : after.backend = stream.backend)
    (hWindow : after.window = stream.window) (hFailure : after.failure = stream.failure) :
    after.Faithful := by
  refine ⟨hFaithful.toInBounds.of_same hOffered hBackend (by rw [hWindow]) hFailure, fun hHealthy => ?_⟩
  rw [hBackend, hWindow]
  exact hFaithful.aligned (hFailure ▸ hHealthy)

/-- A query of the length leaves the stream faithful if it leaves the backend aligned. -/
theorem Faithful.size (hFaithful : stream.Faithful)
    (hAligned : stream.failure = none → Aligned (Backend.size stream.backend).state stream.window) :
    Action.Ends Faithful (fun _ _ => False) (Action.result Stream.size stream) := by
  have hBounds := orderly_inBounds.size stream hFaithful.toInBounds
  rw [size_of_offered (by rw [hFaithful.offered])] at hBounds ⊢
  exact ⟨hBounds, hAligned⟩

theorem Faithful.consume [WindowPlaced β] (hFaithful : stream.Faithful) {count : Nat}
    (hCount : count ≤ stream.available) :
    ∃ after, (Stream.consume count).result stream = (.ok (), after) ∧ after.Faithful := by
  obtain ⟨window, hWindow, hConsume⟩ := consume_of_available hCount
  exact ⟨_, hConsume, hFaithful.toInBounds.of_same rfl rfl (Window.of_consume hWindow).2.2.2 rfl,
    fun hHealthy => (hFaithful.aligned hHealthy).consume hWindow⟩

variable [KeepsAligned β]

theorem Faithful.standing (hFaithful : stream.Faithful) : 0 ≤ stream.place := by
  by_cases hHealthy : stream.failure = none
  · rw [place_of_healthy hHealthy]
    exact (hFaithful.aligned hHealthy).standing
  · rw [place_of_failed hHealthy]
    exact KeepsAligned.spent stream.backend

theorem Faithful.refill (hFaithful : stream.Faithful) (hExhausted : stream.window.exhausted = true) :
    ∃ code after, Action.result Stream.refill stream = (.ok code, after) ∧ after.Faithful := by
  have hBounds := hFaithful.toInBounds
  have hOffers := hBounds.window_only.2
  cases hFailure : stream.failure with
  | some code =>
      exact ⟨_, _, refill_of_served hOffers hExhausted hFailure,
        hBounds.faithful_of_stub rfl rfl hFailure⟩
  | none =>
      have hFits := hBounds.healthy hFailure
      obtain ⟨code, hAnswer, hDone⟩ := FitsWindow.refill hFits hExhausted
      by_cases hCode : code = .success
      · obtain ⟨hFilled, hLater⟩ := hDone hCode
        subst hCode
        refine ⟨.success, _, refill_of_filled hOffers hExhausted hFailure hAnswer hFilled,
          hBounds.of_fits rfl hFailure hLater, fun _ => ?_⟩
        have hRefill : Backend.refill stream.backend stream.window =
            ⟨.ok .success, (Backend.refill stream.backend stream.window).state,
              (Backend.refill stream.backend stream.window).log⟩ := by rw [← hAnswer]
        exact KeepsAligned.refill hFits (hFaithful.aligned hFailure) hExhausted hRefill
      · exact ⟨_, _, refill_of_rejected hOffers hExhausted hFailure hCode hAnswer,
          hBounds.faithful_of_stub rfl rfl rfl⟩

theorem Faithful.seek (hFaithful : stream.Faithful) (offset : Int) (origin : Origin) :
    ∃ outcome after, (Stream.seek offset origin).result stream = (.ok outcome, after) ∧
      after.Faithful := by
  have hBounds := hFaithful.toInBounds
  have hOffers : stream.capabilities.seek = true := by rw [hFaithful.offered]
  cases hFailure : stream.failure with
  | some code =>
      exact ⟨_, _, seek_of_failure hOffers hFailure offset origin,
        hBounds.faithful_of_stub rfl rfl hFailure⟩
  | none =>
      obtain ⟨outcome, hAnswer, hFits⟩ := FitsWindow.seek (hBounds.healthy hFailure) offset origin
      exact ⟨_, _, seek_of_answered hOffers hFailure hAnswer, hBounds.of_fits rfl hFailure hFits,
        fun _ => KeepsAligned.seek (hFaithful.aligned hFailure) offset origin⟩

theorem Faithful.refreshed (hFaithful : stream.Faithful) : stream.refreshed.Faithful := by
  cases hExhausted : stream.window.exhausted with
  | false => rwa [refreshed_of_unread hExhausted]
  | true =>
      obtain ⟨code, after, hRefill, hAfter⟩ := hFaithful.refill hExhausted
      rwa [refreshed_of_refill hExhausted hRefill]

variable [WindowPlaced β]

/-- All that a stream does keeps it faithful, but for a query of its length. -/
theorem orderlyCalls_faithful : OrderlyCalls (Faithful (β := β)) (fun _ _ => False) where
  record code stream hFaithful := by
    rw [result_record]
    exact hFaithful.of_same rfl rfl rfl rfl
  readDirect hFaithful _ hDirect := by
    rw [hFaithful.offered] at hDirect
    cases hDirect
  peek hFaithful hCount := by
    rw [hFaithful.toInBounds.peek hCount]
    exact hFaithful
  consume hFaithful hCount := by
    obtain ⟨after, hRun, hAfter⟩ := hFaithful.consume hCount
    rw [hRun]
    exact hAfter
  refill hFaithful hExhausted := by
    obtain ⟨code, after, hRun, hAfter⟩ := hFaithful.refill hExhausted
    rw [hRun]
    exact hAfter
  write source stream hFaithful := by
    by_cases hNone : source = []
    · subst hNone
      exact hFaithful
    · rw [write_of_absent hNone (by rw [hFaithful.offered]), result_unsupported]
      exact hFaithful.of_same rfl rfl rfl rfl
  seek offset origin stream hFaithful := by
    obtain ⟨outcome, after, hRun, hAfter⟩ := hFaithful.seek offset origin
    rw [hRun]
    exact hAfter
  close stream hFaithful := by
    rw [close, Action.result_bind_of_ok (Action.result_state stream), hFaithful.offered]
    exact hFaithful
  resetErrorState stream hFaithful := by
    rw [result_resetErrorState]
    cases hFailure : stream.failure with
    | none =>
        rw [cleared_of_healthy hFailure]
        exact hFaithful.of_same rfl rfl rfl rfl
    | some code =>
        have hCleared := hFaithful.toInBounds.cleared
        rw [cleared_of_failed (hFailure ▸ Option.some_ne_none code)] at hCleared ⊢
        exact hCleared.faithful_of_failed hFailure

omit [KeepsAligned β] in
/-- A piece off the window is a piece of the data, and the stream goes on behind it. -/
theorem Faithful.takePiece (hFaithful : stream.Faithful) (hHealthy : stream.failure = none)
    (count : Nat) :
    ∃ piece behind, (Stream.takePiece count).result stream = (.ok piece, behind) ∧
      behind.Faithful ∧ behind.failure = none ∧ behind.backend = stream.backend ∧
      behind.place = stream.place + piece.length ∧
      piece = ((Stored.content stream.backend).drop stream.place.toNat).take piece.length := by
  have hBounds := hFaithful.toInBounds
  have hAligned := hFaithful.aligned hHealthy
  have hMost := Nat.min_le_right count stream.window.available
  have hShown := Window.slice?_of_inside (FitsWindow.stop_le (hBounds.healthy hHealthy))
  have hLength := Bytes.length_of_slice? (Bytes.slice?_take hShown hMost)
  obtain ⟨window, hConsume, hPiece⟩ := takePiece_of_shown hHealthy hShown count
  refine ⟨_, _, hPiece, ?_, hHealthy, rfl, ?_, ?_⟩
  · exact ⟨hBounds.of_same rfl rfl (Window.of_consume hConsume).2.2.2 rfl,
      fun _ => hAligned.consume hConsume⟩
  · rw [place_of_healthy hHealthy, place_of_healthy (by exact hHealthy), hLength]
    exact WindowPlaced.consumed hConsume
  · rw [hLength, place_of_healthy hHealthy, List.take_take, Nat.min_eq_left hMost]
    exact hAligned.front hMost

/-- What is copied off the window lies where the stream stands. The induction is on the rounds: a refill
leaves the stream where it is and its data as it was, and behind a piece lies the next one. -/
theorem Faithful.takeBuffered_front {rounds count : Nat} {taken : Bytes} (hFaithful : stream.Faithful)
    (hGuarded : stream.Guarded)
    (hTaken : (takeBuffered rounds count).result stream = (.ok taken, after)) :
    taken = ((Stored.content stream.backend).drop stream.place.toNat).take taken.length := by
  induction rounds generalizing stream count taken with
  | zero =>
      cases hTaken
      rfl
  | succ rounds ih =>
      rcases Nat.eq_zero_or_pos count with rfl | hWanted
      · cases hTaken
        rfl
      have hBounds := hFaithful.toInBounds
      have hReady := hBounds.result_refillIfExhausted
      by_cases hClean : stream.refreshed.errorState = .success
      · have hHealthy := hBounds.healthy_refreshed hGuarded hClean
        obtain ⟨piece, behind, hPiece, hBehind, hSound, hBackend, hPlace, hFront⟩ :=
          hFaithful.refreshed.takePiece hHealthy count
        rw [takeBuffered_of_pos hWanted, Action.result_bind_of_ok hReady,
          Action.result_bind_of_ok (Action.result_state stream.refreshed), hClean,
          if_pos (by decide), Action.result_bind_of_ok hPiece] at hTaken
        obtain ⟨later, last, hLater, hDone⟩ := Action.ok_of_bind hTaken
        cases hDone
        have hRest := ih hBehind (guarded_of_healthy hBehind.toInBounds.window_only hSound) hLater
        have hStanding := (hFaithful.refreshed.aligned hHealthy).standing
        rw [← place_of_healthy hHealthy, hBounds.place_refreshed] at hStanding
        rw [hBackend, hPlace, hBounds.place_refreshed, hBounds.content_refreshed,
          Int.toNat_add hStanding (Int.natCast_nonneg _), Int.toNat_natCast] at hRest
        rw [hBounds.place_refreshed, hBounds.content_refreshed] at hFront
        rw [List.length_append, List.take_add, List.drop_drop, ← hFront, ← hRest]
      · rw [takeBuffered_of_failing hWanted hReady hClean] at hTaken
        cases hTaken
        rfl

/-- It stays faithful through every run of uses whose queries of the length leave the backend aligned. -/
theorem Faithful.reachable [Memory] {allowed : Use → Stream β → Prop}
    {start reached : Stream β} (hStart : start.Faithful)
    (hPermitted : ∀ use stream, allowed use stream → use.Permitted stream)
    (hSize : ∀ stream : Stream β, allowed (.operation .size) stream → stream.failure = none →
      Aligned stream.backend stream.window →
        Aligned (Backend.size stream.backend).state stream.window)
    (hReached : start.Reachable allowed reached) : reached.Faithful :=
  orderlyCalls_faithful.reachable (fun _ _ hFault => hFault.elim) hPermitted
    (fun stream hFaithful hAllowed => hFaithful.size fun hHealthy =>
      hSize stream hAllowed hHealthy (hFaithful.aligned hHealthy)) hStart hReached

end Windows

section Readers

/-- A use of a stream on a buffered reader that leaves no unread bytes behind: a query of the length is
made only where the source comes back from it or nothing is unread. -/
def Settled (use : Use) (stream : Stream BufferedReader) : Prop :=
  use.Permitted stream ∧ (use = .operation .size → stream.failure = none →
    stream.window.exhausted = false → ¬stream.backend.source.Strands)

/-- A query of the length moves a reader only where it strands the source. -/
theorem aligned_of_size {stream : Stream BufferedReader} (hSettled : Settled (.operation .size) stream)
    (hHealthy : stream.failure = none) (hAligned : Aligned stream.backend stream.window) :
    Aligned (Backend.size stream.backend).state stream.window := by
  change Aligned stream.backend.size.state stream.window
  rcases stream.backend.size_cases with ⟨-, seeks, hState⟩ | ⟨hStrands, -, -⟩
  · rw [hState]
    exact ⟨hAligned.standing, hAligned.shown_eq⟩
  · cases hExhausted : stream.window.exhausted with
    | false => exact absurd hStrands (hSettled.2 rfl hHealthy hExhausted)
    | true =>
        exact stream.backend.size.state.aligned_of_exhausted
          ((Window.exhausted_iff stream.window).mp hExhausted)

end Readers

end Stream

end Bytestream

import Bytestream.Proofs.Discipline
import Bytestream.Proofs.FailedStream
import Bytestream.Proofs.Offering

/-!
The window of the buffered backends. Seeks, refills, steps over bytes and the change to the stub all
move it, and it never ends past the buffer that it refers to at the time. So no look at it is out of
range and no check of it fails, and each loop that copies off it comes to an end of its own.
-/

namespace Bytestream

/-- A backend that is read through a window on its buffer and answers within the contract as long as
the window and the buffer fit. -/
class FitsWindow (β : Type) [Backend β] where
  offers : ∀ backend : β,
    Backend.capabilities backend = { size := true, seek := true, bufferedRead := true }
  Fits : β → Window → Prop
  stop_le : ∀ {backend : β} {window : Window}, Fits backend window →
    window.stop ≤ (Backend.buffer backend).length
  moved : ∀ {backend : β} {window moved : Window}, Fits backend window →
    moved.stop = window.stop → Fits backend moved
  size : ∀ {backend : β} {window : Window}, Fits backend window →
    Fits (Backend.size backend).state window
  seek : ∀ {backend : β} {window : Window}, Fits backend window → ∀ offset origin,
    ∃ outcome, (Backend.seek backend window offset origin).value = .ok outcome ∧
      Fits (Backend.seek backend window offset origin).state.1
        (Backend.seek backend window offset origin).state.2
  refill : ∀ {backend : β} {window : Window}, Fits backend window → window.exhausted = true →
    ∃ code, (Backend.refill backend window).value = .ok code ∧ (code = .success →
      (Backend.refill backend window).state.2.FilledFrom (Backend.refill backend window).state.1 ∧
        Fits (Backend.refill backend window).state.1 (Backend.refill backend window).state.2)

/-- Memory is never changed, and the window ends with it or before. -/
instance : FitsWindow ReadOnly where
  offers := Offering.capabilities_eq
  Fits source window := window.stop ≤ source.bytes.length
  stop_le hFits := hFits
  moved hFits hStop := hStop ▸ hFits
  size hFits := hFits
  seek := by
    intro source window hFits offset origin
    show ∃ outcome, (source.seek window offset origin).value = .ok outcome ∧ _
    simp only [Backend.seek, ReadOnly.seek]
    split
    · split
      · exact ⟨_, rfl, Nat.le_refl _⟩
      · exact ⟨_, rfl, hFits⟩
    · exact ⟨_, rfl, hFits⟩
  refill _ _ := ⟨.endOfStream, rfl, nofun⟩

/-- A piece that is handed out lies in the data, right behind the window. -/
theorem Pieces.refill_fits {source : Pieces} {window : Window}
    (hFits : window.stop ≤ source.bytes.length ∧ source.pattern ≠ [])
    (_ : window.exhausted = true) :
    ∃ code, (Backend.refill source window).value = .ok code ∧ (code = .success →
      (Backend.refill source window).state.2.FilledFrom (Backend.refill source window).state.1 ∧
        (Backend.refill source window).state.2.stop ≤
            (Backend.refill source window).state.1.bytes.length ∧
          (Backend.refill source window).state.1.pattern ≠ []) := by
  obtain ⟨length, hNext, hPositive⟩ := Pieces.exists_nextLength hFits.2
  simp only [Backend.refill, Pieces.refill, hNext]
  split
  · exact ⟨.endOfStream, rfl, nofun⟩
  · have hInside := hFits.1
    refine ⟨.success, rfl, fun _ => ⟨⟨rfl, ?_, ?_⟩, ?_, hFits.2⟩⟩ <;>
      simp only [Window.run, Backend.buffer] <;> omega

/-- The next piece starts where the window ends and is cut where the data does. -/
instance : FitsWindow Pieces where
  offers := Offering.capabilities_eq
  Fits source window := window.stop ≤ source.bytes.length ∧ source.pattern ≠ []
  stop_le hFits := hFits.1
  moved hFits hStop := ⟨hStop ▸ hFits.1, hFits.2⟩
  size hFits := hFits
  seek := by
    intro source window hFits offset origin
    simp only [Backend.seek, Pieces.seek]
    split
    · split
      · exact ⟨_, rfl, ‹_›, hFits.2⟩
      · exact ⟨_, rfl, hFits⟩
    · exact ⟨_, rfl, hFits⟩
  refill := Pieces.refill_fits

/-- A read that does not fail takes some of the front of what is left, as much as is asked for at most,
and moves past it. -/
theorem Source.taken_of_read {source after : Source} {taken : Bytes} {count : Nat}
    (hRead : source.read count = (some taken, after)) :
    ∃ most ≤ count, taken = source.rest.take most ∧ after.bytes = source.bytes ∧
      after.position = source.position + taken.length := by
  rw [read] at hRead
  split at hRead
  · split at hRead
    · cases hRead
      exact ⟨count, Nat.le_refl count, rfl, rfl, rfl⟩
    · cases hRead
      exact ⟨_, Nat.min_le_left _ _, rfl, rfl, rfl⟩
    · cases hRead
  · cases hRead

theorem Source.length_of_read {source after : Source} {taken : Bytes} {count : Nat}
    (hRead : source.read count = (some taken, after)) : taken.length ≤ count := by
  obtain ⟨most, hMost, rfl, -⟩ := taken_of_read hRead
  rw [List.length_take]
  exact Nat.le_trans (Nat.min_le_left _ _) hMost

theorem BufferedReader.buffer_of_size (reader : BufferedReader) :
    reader.size.state.buffer = reader.buffer := by
  simp only [size]
  split
  · rfl
  · split
    · rfl
    · split <;> rfl

/-- Whatever the source does, it gives no more than there is room for. -/
theorem BufferedReader.refill_fits {reader : BufferedReader} {window : Window}
    (hFits : window.stop ≤ reader.buffer.length) (hExhausted : window.exhausted = true) :
    ∃ code, (Backend.refill reader window).value = .ok code ∧ (code = .success →
      (Backend.refill reader window).state.2.FilledFrom (Backend.refill reader window).state.1 ∧
        (Backend.refill reader window).state.2.stop ≤
          (Backend.refill reader window).state.1.buffer.length) := by
  simp only [Backend.refill]
  cases hRead : reader.source.read reader.buffer.length with
  | mk taken source =>
      cases taken with
      | none =>
          rw [BufferedReader.refill_of_failed hFits hExhausted hRead]
          exact ⟨.readError, rfl, nofun⟩
      | some taken =>
          rw [BufferedReader.refill_of_exhausted hFits hExhausted hRead]
          split
          · exact ⟨.endOfStream, rfl, nofun⟩
          · have hRoom := Source.length_of_read hRead
            have hLength : (reader.buffer.overwrite 0 taken).length = reader.buffer.length :=
              Bytes.length_overwrite (by omega)
            have hSome : taken ≠ [] := by simpa using ‹¬taken.isEmpty = true›
            refine ⟨.success, rfl, fun _ => ⟨⟨rfl, List.length_pos_iff.mpr hSome, ?_⟩, ?_⟩⟩
            · exact hLength ▸ hRoom
            · exact hLength ▸ hRoom

instance : FitsWindow BufferedReader where
  offers := Offering.capabilities_eq
  Fits reader window := window.stop ≤ reader.buffer.length
  stop_le hFits := hFits
  moved hFits hStop := hStop ▸ hFits
  size {reader _} hFits := by
    show _ ≤ reader.size.state.buffer.length
    rwa [BufferedReader.buffer_of_size]
  seek := by
    intro reader window hFits offset origin
    simp only [Backend.seek, BufferedReader.seek]
    split
    · exact ⟨_, rfl, hFits⟩
    · split
      · exact ⟨_, rfl, Nat.zero_le _⟩
      · exact ⟨_, rfl, hFits⟩
  refill := BufferedReader.refill_fits

namespace Stream

variable {β : Type} [Backend β] [FitsWindow β] {stream after : Stream β}

/-- The window fits the buffer of a healthy backend, and the stub once the stream failed for good. -/
structure InBounds (stream : Stream β) : Prop where
  offered : stream.capabilities = { size := true, seek := true, bufferedRead := true }
  healthy : stream.failure = none → FitsWindow.Fits stream.backend stream.window
  failed : ∀ code, stream.failure = some code → stream.window.stop ≤ stub.length

/-- Whichever buffer the window refers to, it ends inside. -/
theorem InBounds.inside (hBounds : stream.InBounds) :
    stream.window.stop ≤ stream.shownBytes.length := by
  rw [shownBytes]
  cases hFailure : stream.failure with
  | none => exact FitsWindow.stop_le (hBounds.healthy hFailure)
  | some code => exact hBounds.failed code hFailure

theorem InBounds.of_same (hBounds : stream.InBounds)
    (hOffered : after.capabilities = stream.capabilities) (hBackend : after.backend = stream.backend)
    (hStop : after.window.stop = stream.window.stop) (hFailure : after.failure = stream.failure) :
    after.InBounds := by
  refine ⟨hOffered.trans hBounds.offered, fun hHealthy => ?_, fun code hFailed => ?_⟩
  · rw [hBackend]
    exact FitsWindow.moved (hBounds.healthy (hFailure ▸ hHealthy)) hStop
  · rw [hStop]
    exact hBounds.failed code (hFailure ▸ hFailed)

/-- The stub has room for the window that is put on it. -/
theorem InBounds.of_stub (hBounds : stream.InBounds) {code : Code}
    (hOffered : after.capabilities = stream.capabilities)
    (hWindow : after.window = Window.whole stub.length) (hFailure : after.failure = some code) :
    after.InBounds := by
  refine ⟨hOffered.trans hBounds.offered, fun hHealthy => ?_, fun _ _ => ?_⟩
  · rw [hFailure] at hHealthy
    cases hHealthy
  · rw [hWindow]
    exact Nat.le_refl _

theorem InBounds.of_fits (hBounds : stream.InBounds)
    (hOffered : after.capabilities = stream.capabilities) (hHealthy : after.failure = none)
    (hFits : FitsWindow.Fits after.backend after.window) : after.InBounds := by
  refine ⟨hOffered.trans hBounds.offered, fun _ => hFits, fun code hFailure => ?_⟩
  rw [hHealthy] at hFailure
  cases hFailure

/-- A piece inside the window can be cut out of the buffer. -/
theorem InBounds.peek (hBounds : stream.InBounds) {count : Nat} (hCount : count ≤ stream.available) :
    (peek count).result stream =
      (.ok ((stream.shownBytes.drop stream.window.cursor).take count), stream) := by
  have hInside := hBounds.inside
  have hOrder := stream.window.cursor_le_stop
  have hSlice : stream.shownBytes.slice? stream.window.cursor count =
      some ((stream.shownBytes.drop stream.window.cursor).take count) := by
    rw [Bytes.slice?, if_pos]
    simp only [available, Window.available] at hCount
    omega
  simp only [Stream.peek, Action.result_bind, Action.result_state, hSlice, Action.result_pure]

theorem InBounds.consume (hBounds : stream.InBounds) {count : Nat}
    (hCount : count ≤ stream.available) :
    ∃ after, (consume count).result stream = (.ok (), after) ∧ after.InBounds := by
  obtain ⟨window, hWindow, hConsume⟩ := consume_of_available hCount
  exact ⟨_, hConsume, hBounds.of_same rfl rfl (Window.of_consume hWindow).2.2.2 rfl⟩

/-- A refill of an exhausted window passes every check of it. -/
theorem InBounds.refill (hBounds : stream.InBounds) (hExhausted : stream.window.exhausted = true) :
    ∃ code after, Action.result refill stream = (.ok code, after) ∧ after.InBounds := by
  have hOffers : stream.capabilities.bufferedRead = true := by rw [hBounds.offered]
  cases hFailure : stream.failure with
  | some code =>
      exact ⟨_, _, refill_of_served hOffers hExhausted hFailure, hBounds.of_stub rfl rfl hFailure⟩
  | none =>
      obtain ⟨code, hAnswer, hDone⟩ := FitsWindow.refill (hBounds.healthy hFailure) hExhausted
      by_cases hCode : code = .success
      · obtain ⟨hFilled, hFits⟩ := hDone hCode
        subst hCode
        exact ⟨.success, _, refill_of_filled hOffers hExhausted hFailure hAnswer hFilled,
          hBounds.of_fits rfl hFailure hFits⟩
      · exact ⟨_, _, refill_of_rejected hOffers hExhausted hFailure hCode hAnswer,
          hBounds.of_stub rfl rfl rfl⟩

theorem InBounds.refillIfExhausted (hBounds : stream.InBounds) :
    ∃ after, Action.result refillIfExhausted stream = (.ok (), after) ∧ after.InBounds := by
  cases hExhausted : stream.window.exhausted with
  | false => exact ⟨stream, refillIfExhausted_of_unread hExhausted, hBounds⟩
  | true =>
      obtain ⟨code, after, hRefill, hAfter⟩ := hBounds.refill hExhausted
      exact ⟨after, refillIfExhausted_of_refill hExhausted hRefill, hAfter⟩

theorem InBounds.seek (hBounds : stream.InBounds) (offset : Int) (origin : Origin) :
    ∃ outcome after, (seek offset origin).result stream = (.ok outcome, after) ∧ after.InBounds := by
  have hOffers : stream.capabilities.seek = true := by rw [hBounds.offered]
  cases hFailure : stream.failure with
  | some code =>
      exact ⟨_, _, seek_of_failure hOffers hFailure offset origin,
        hBounds.of_stub rfl rfl hFailure⟩
  | none =>
      obtain ⟨outcome, hAnswer, hFits⟩ := FitsWindow.seek (hBounds.healthy hFailure) offset origin
      exact ⟨_, _, seek_of_answered hOffers hFailure hAnswer, hBounds.of_fits rfl hFailure hFits⟩

/-- Nothing that a stream is made of stops at a fault. -/
theorem orderly_inBounds : Orderly (InBounds (β := β)) (fun _ _ => False) where
  record code stream hBounds := by
    rw [result_record]
    exact hBounds.of_same rfl rfl rfl rfl
  size stream hBounds := by
    rw [size_of_offered (by rw [hBounds.offered])]
    exact ⟨hBounds.offered, fun hHealthy => FitsWindow.size (hBounds.healthy hHealthy), hBounds.failed⟩
  write source stream hBounds := by
    by_cases hNone : source = []
    · subst hNone
      exact hBounds
    · rw [write_of_absent hNone (by rw [hBounds.offered]), result_unsupported]
      exact hBounds.of_same rfl rfl rfl rfl
  seek offset origin stream hBounds := by
    obtain ⟨outcome, after, hRun, hAfter⟩ := hBounds.seek offset origin
    rw [hRun]
    exact hAfter
  close stream hBounds := by
    rw [close, Action.result_bind_of_ok (Action.result_state stream), hBounds.offered]
    exact hBounds
  resetErrorState stream hBounds := by
    rw [resetErrorState, Action.result_bind_of_ok (Action.result_state stream)]
    split
    · exact hBounds.of_same rfl rfl rfl rfl
    · exact hBounds.of_same rfl rfl rfl rfl
  readDirect hBounds _ hDirect := by
    rw [hBounds.offered] at hDirect
    cases hDirect
  peek hBounds hCount := by
    rw [hBounds.peek hCount]
    exact hBounds
  consume hBounds hCount := by
    obtain ⟨after, hRun, hAfter⟩ := hBounds.consume hCount
    rw [hRun]
    exact hAfter
  refill hBounds hExhausted := by
    obtain ⟨code, after, hRun, hAfter⟩ := hBounds.refill hExhausted
    rw [hRun]
    exact hAfter

omit [Backend β] [FitsWindow β] in
/-- An operation that ends within a discipline without faults yields. -/
theorem proceeds_of_ends {α : Type} {good : Stream β → Prop} {operation : Op β α}
    (hEnds : Action.Ends good (fun _ _ => False) (operation.result stream)) :
    Proceeds operation stream := by
  cases hRun : operation.result stream with
  | mk value last =>
      rw [hRun] at hEnds
      cases value with
      | ok value => exact ⟨value, last, hRun⟩
      | error fault => exact hEnds.elim

/-- The window is inside its buffer, and whatever is permitted from here on comes to an end: a look
at the window shows what is unread, no check of the window fails, and the loops that copy off it
are over once they took what was wanted or met an error, however many rounds they may take. -/
structure WellWindowed [Memory] (stream : Stream β) : Prop where
  ordered : stream.window.start ≤ stream.window.cursor ∧ stream.window.cursor ≤ stream.window.stop
  inside : stream.window.stop ≤ stream.shownBytes.length
  unread : unread.result stream =
    (.ok ((stream.shownBytes.drop stream.window.cursor).take stream.available), stream)
  proceeds : ∀ use : Use, use.Permitted stream → Proceeds use.perform stream
  copies : ∀ wanted, ∃ bytes last,
    (∀ rounds, wanted ≤ rounds → (takeBuffered rounds wanted).result stream = (.ok bytes, last)) ∧
      (bytes.length = wanted ∨ last.errorState ≠ .success)
  payloads : ∀ wanted sum, ∃ ended last,
    (∀ rounds, wanted ≤ rounds →
      (Chunk.takePayload rounds wanted sum).result stream = (ended, last)) ∧
      ((∃ taken, ended = .ok taken ∧ taken.1.length = wanted) ∨ ∃ error, ended = .error (.error error))

/-- A permitted use of a stream within its bounds ends within them, and not at a fault. -/
theorem InBounds.perform [Memory] (hBounds : stream.InBounds) (use : Use)
    (hPermitted : use.Permitted stream) :
    Action.Ends InBounds (fun _ _ => False) (use.perform.result stream) := by
  apply orderly_inBounds.perform hBounds use
  · rintro rfl
    exact orderly_inBounds.refill hBounds hPermitted
  · rintro count rfl
    exact orderly_inBounds.consume hBounds hPermitted

theorem InBounds.wellWindowed [Memory] (hBounds : stream.InBounds) : stream.WellWindowed where
  ordered := ⟨stream.window.start_le_cursor, stream.window.cursor_le_stop⟩
  inside := hBounds.inside
  unread := by
    rw [Stream.unread, Action.result_bind_of_ok (Action.result_state stream)]
    exact hBounds.peek (Nat.le_refl _)
  proceeds use hPermitted := proceeds_of_ends (hBounds.perform use hPermitted)
  copies wanted := by
    obtain ⟨bytes, last, hTaken⟩ :=
      proceeds_of_ends (orderly_inBounds.takeBuffered wanted wanted stream hBounds)
    refine ⟨bytes, last, fun rounds hRounds => ?_, ?_⟩
    · rw [takeBuffered_rounds hRounds (Nat.le_refl wanted), hTaken]
    · by_cases hClean : last.errorState = .success
      · exact .inl (length_of_takeBuffered (Nat.le_refl wanted) hTaken hClean)
      · exact .inr hClean
  payloads wanted sum := by
    have hRounds (rounds : Nat) (hEnough : wanted ≤ rounds) :
        (Chunk.takePayload rounds wanted sum).result stream =
          (Chunk.takePayload wanted wanted sum).result stream :=
      Chunk.takePayload_rounds hEnough (Nat.le_refl wanted) sum
    rcases orderly_inBounds.takePayload wanted wanted sum hBounds with
      ⟨taken, last, hRun⟩ | ⟨error, last, hRun⟩ | ⟨fault, last, hFault⟩
    · exact ⟨_, last, fun rounds hEnough => by rw [hRounds rounds hEnough, hRun],
        .inl ⟨taken, rfl, Chunk.length_of_takePayload (Nat.le_refl wanted) hRun⟩⟩
    · exact ⟨_, last, fun rounds hEnough => by rw [hRounds rounds hEnough, hRun], .inr ⟨error, rfl⟩⟩
    · exact hFault.elim

/-- A stream on the backend opens, and wherever permitted uses take it, its window is in order. -/
def StaysWindowed [Memory] (backend : β) : Prop :=
  ∃ start log, ofBackend backend = .ok (start, log) ∧
    ∀ reached, start.Reachable Use.Permitted reached → reached.WellWindowed

theorem inBounds_opened {backend : β} {window : Window} (hFits : FitsWindow.Fits backend window) :
    (opened backend window).InBounds :=
  ⟨FitsWindow.offers backend, fun _ => hFits, fun _ hFailed => nomatch hFailed⟩

/-- The stream opens within its bounds, and permitted uses keep it there. -/
theorem inBounds_of_fits [Memory] {backend : β} {window : Window}
    (hWindow : Backend.initialWindow backend = .ok window)
    (hFits : FitsWindow.Fits backend window) :
    ∃ start log, ofBackend backend = .ok (start, log) ∧
      ∀ reached, start.Reachable Use.Permitted reached → reached.InBounds := by
  obtain ⟨log, hOpened⟩ := ofBackend_of_window hWindow
  exact ⟨_, log, hOpened, fun reached hReached =>
    orderly_inBounds.reachable (fun _ _ hFault => hFault.elim) (inBounds_opened hFits) hReached⟩

theorem staysWindowed_of_fits [Memory] {backend : β} {window : Window}
    (hWindow : Backend.initialWindow backend = .ok window)
    (hFits : FitsWindow.Fits backend window) : StaysWindowed backend := by
  obtain ⟨start, log, hOpened, hBounds⟩ := inBounds_of_fits hWindow hFits
  exact ⟨start, log, hOpened, fun reached hReached => (hBounds reached hReached).wellWindowed⟩

/-- The window of a stream on memory, of a buffered reader of any capacity on any source, and of
data in pieces stays inside its buffer through every run of permitted uses, none of which stops at a
fault or goes on for ever. -/
theorem windows_stay_inside [Memory] :
    (∀ bytes, StaysWindowed (ReadOnly.mk bytes)) ∧
    (∀ reader : BufferedReader, StaysWindowed reader) ∧
    ∀ source : Pieces, source.pattern ≠ [] → StaysWindowed source :=
  ⟨fun _ => staysWindowed_of_fits rfl (Nat.le_refl _),
    fun _ => staysWindowed_of_fits rfl (Nat.zero_le _),
    fun source hPattern => by
      apply staysWindowed_of_fits rfl
      exact ⟨Nat.zero_le source.bytes.length, hPattern⟩⟩

/-- A stream on three bytes that are handed out two at a time, as it is opened. -/
def openedInPairs : Stream Pieces where
  backend := { bytes := [1, 2, 3], pattern := [2], pattern_pos := by decide }
  capabilities := { size := true, seek := true, bufferedRead := true }
  window := Window.empty

/-- A payload of four bytes runs into the end. The reset after it leaves the window at the end of
the stub, where nothing is unread. -/
theorem windows_stay_inside_of_pairs :
    openedInPairs.backend.pattern ≠ [] ∧ ∃ log reached,
      ofBackend openedInPairs.backend = .ok (openedInPairs, log) ∧
      openedInPairs.Reachable Use.Permitted reached ∧ reached.failure = some .endOfStream ∧
      reached.window.cursor = 16 ∧ reached.window.stop = 16 ∧ reached.WellWindowed := by
  have hPattern : openedInPairs.backend.pattern ≠ [] := by decide
  have hStart : openedInPairs.Reachable Use.Permitted openedInPairs := .start
  have hReached := (hStart.used (.call (.readPayload ⟨7, 2, 4⟩ {})) trivial).used
    .resetErrorState trivial
  obtain ⟨start, log, hOpened, hWindowed⟩ := windows_stay_inside.2.2 openedInPairs.backend hPattern
  obtain rfl : openedInPairs = start := by
    cases hOpened
    rfl
  exact ⟨hPattern, log, _, hOpened, hReached, rfl, rfl, rfl, hWindowed _ hReached⟩

end Stream

end Bytestream

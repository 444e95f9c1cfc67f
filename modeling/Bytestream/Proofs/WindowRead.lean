import Bytestream.Proofs.Readable

/-!
Backends that are read through a window on their own buffer. A refill brings in at least one byte
unless the data has ended, so the loops that copy off the window need no more rounds than bytes.
-/

namespace Bytestream

/-- Consuming moves the cursor and nothing else, and not past the end of the window. -/
theorem Window.of_consume {window after : Window} {count : Nat}
    (hConsume : window.consume count = .ok after) :
    count ≤ window.available ∧ after.start = window.start ∧
      after.cursor = window.cursor + count ∧ after.stop = window.stop := by
  rw [consume] at hConsume
  split at hConsume
  · rename_i hEnough
    cases hConsume
    exact ⟨hEnough, rfl, rfl, rfl⟩
  · cases hConsume

theorem Window.exhausted_eq_false_iff (window : Window) :
    window.exhausted = false ↔ 0 < window.available := by
  rw [Bool.eq_false_iff, Ne, exhausted_iff]
  omega

theorem Window.slice?_of_inside {window : Window} {bytes : Bytes}
    (hInside : window.stop ≤ bytes.length) :
    bytes.slice? window.cursor window.available =
      some ((bytes.drop window.cursor).take window.available) := by
  have hOrder := window.cursor_le_stop
  rw [Bytes.slice?, if_pos]
  simp only [available]
  omega

/-- A backend whose window shows the next bytes of its data, and whose refills go on behind it. -/
class WindowRead (β : Type) [Backend β] extends Readable β where
  window_only : (Offering.offers β).read = false ∧ (Offering.offers β).bufferedRead = true
  shows : ∀ {backend : β} {window : Window} {data : Bytes} {position : Nat},
    Holds backend window data position →
      (Backend.buffer backend).slice? window.cursor window.available =
        some ((data.drop position).take window.available)
  consume : ∀ {backend : β} {window after : Window} {data : Bytes} {position count : Nat},
    Holds backend window data position → window.consume count = .ok after →
      Holds backend after data (position + count)
  refill_more : ∀ {backend : β} {window : Window} {data : Bytes} {position : Nat},
    Holds backend window data position → window.exhausted = true → position < data.length →
      ∃ later moved log, Backend.refill backend window = ⟨.ok .success, (later, moved), log⟩ ∧
        moved.cursor = moved.start ∧ moved.cursor < moved.stop ∧
        moved.stop ≤ (Backend.buffer later).length ∧ Holds later moved data position
  refill_ended : ∀ {backend : β} {window : Window} {data : Bytes} {position : Nat},
    Holds backend window data position → window.exhausted = true → data.length ≤ position →
      ∃ later moved log, Backend.refill backend window = ⟨.ok .endOfStream, (later, moved), log⟩

namespace Bytes

theorem slice?_take {bytes piece : Bytes} {first size count : Nat}
    (hSlice : bytes.slice? first size = some piece) (hCount : count ≤ size) :
    bytes.slice? first count = some (piece.take count) := by
  simp only [slice?, Option.ite_none_right_eq_some, Option.some.injEq] at hSlice
  obtain ⟨hFits, rfl⟩ := hSlice
  rw [slice?, if_pos (by omega), List.take_take, Nat.min_eq_left hCount]

/-- Two adjacent pieces make one. -/
theorem take_append_take (bytes : Bytes) (position : Nat) {moved count : Nat}
    (hMoved : moved ≤ count) :
    (bytes.drop position).take moved ++ (bytes.drop (position + moved)).take (count - moved) =
      (bytes.drop position).take count := by
  rw [← List.drop_drop, ← List.take_add, Nat.add_sub_cancel' hMoved]

end Bytes

namespace Stream

section Refill

variable {β : Type} {stream : Stream β}

theorem result_serveStub (hHealthy : stream.failure = none) (code : Code) :
    (serveStub code).result stream =
      (.ok (), { stream with failure := some code, window := Window.whole stub.length }) := by
  simp only [serveStub, Action.result_bind, Action.result_state, Action.result_emit, hHealthy,
    Option.getD_none, Action.result_modify]

theorem consume_of_available {count : Nat} (hCount : count ≤ stream.window.available) :
    ∃ window, stream.window.consume count = .ok window ∧
      (consume count).result stream = (.ok (), { stream with window }) := by
  obtain ⟨window, hWindow⟩ : ∃ window, stream.window.consume count = .ok window := by
    simp [Window.consume, hCount]
  refine ⟨window, hWindow, ?_⟩
  simp only [consume, Action.result_bind, Action.result_state, hWindow, Action.result_liftM_ok,
    Action.result_modify]

variable [Backend β]

/-- A refill asks the backend of a healthy stream whose window is exhausted. -/
theorem refill_eq_call (hOffers : stream.capabilities.bufferedRead = true)
    (hExhausted : stream.window.exhausted = true) (hHealthy : stream.failure = none) :
    Action.result refill stream = Action.result (do
      let code ← callOnWindow Backend.refill
      if code.isSuccess then
        checkRefilled
        return code
      else
        Action.emit (.failedForGood (Backend.kind β) code)
        serveStub code
        record code) stream := by
  simp only [refill, Action.result_bind, Action.result_state, hOffers, hExhausted, hHealthy,
    Bool.not_true, Bool.false_eq_true, if_false]

/-- A refill that brought something in leaves the stream with what the backend made of it. -/
theorem refill_of_success {backend : β} {window : Window} {log : List Event}
    (hOffers : stream.capabilities.bufferedRead = true)
    (hExhausted : stream.window.exhausted = true) (hHealthy : stream.failure = none)
    (hCall : Backend.refill stream.backend stream.window = ⟨.ok .success, (backend, window), log⟩)
    (hCursor : window.cursor = window.start) (hMore : window.cursor < window.stop)
    (hInside : window.stop ≤ (Backend.buffer backend).length) :
    Action.result refill stream = (.ok .success, { stream with backend, window }) := by
  have hRefilled : (callOnWindow Backend.refill).result stream =
      (.ok .success, { stream with backend, window }) := by
    simp [Action.result, callOnWindow, hCall]
  have hBounds : ¬(window.cursor ≠ window.start ∨ window.stop ≤ window.cursor) := by omega
  have hCheck : checkRefilled.result { stream with backend, window } =
      (.ok (), { stream with backend, window }) := by
    simp only [checkRefilled, Action.result_bind, Action.result_state]
    rw [if_neg hBounds, if_neg (by omega), Action.result_emit]
  rw [refill_eq_call hOffers hExhausted hHealthy, Action.result_bind_of_ok hRefilled,
    if_pos (by decide), Action.result_bind_of_ok hCheck, Action.result_pure]

/-- A refill that failed puts the stream on the stub for good. -/
theorem refill_of_failure {backend : β} {window : Window} {log : List Event} {code : Code}
    (hOffers : stream.capabilities.bufferedRead = true)
    (hExhausted : stream.window.exhausted = true) (hHealthy : stream.failure = none)
    (hClean : stream.errorState = .success) (hCode : code ≠ .success)
    (hCall : Backend.refill stream.backend stream.window = ⟨.ok code, (backend, window), log⟩) :
    Action.result refill stream = (.ok code,
      { stream with
        backend, window := Window.whole stub.length, failure := some code, errorState := code }) := by
  have hRefilled : (callOnWindow Backend.refill).result stream =
      (.ok code, { stream with backend, window }) := by
    simp [Action.result, callOnWindow, hCall]
  have hFailing : ¬code.isSuccess = true := by rwa [Code.isSuccess_iff]
  have hStub := @result_serveStub β { stream with backend, window } hHealthy code
  rw [refill_eq_call hOffers hExhausted hHealthy, Action.result_bind_of_ok hRefilled,
    if_neg hFailing, Action.result_bind_of_ok (Action.result_emit _ _),
    Action.result_bind_of_ok hStub]
  exact result_record_of_clean (by exact hClean) code

theorem refillIfExhausted_of_refill {after : Stream β} {code : Code}
    (hExhausted : stream.window.exhausted = true)
    (hRefill : Action.result refill stream = (.ok code, after)) :
    Action.result refillIfExhausted stream = (.ok (), after) := by
  simp only [refillIfExhausted, Action.result_bind, Action.result_state, hExhausted, if_true,
    hRefill, Action.result_pure]

theorem refillIfExhausted_of_unread (hUnread : stream.window.exhausted = false) :
    Action.result refillIfExhausted stream = (.ok (), stream) := by
  simp only [refillIfExhausted, Action.result_bind, Action.result_state, hUnread,
    Bool.false_eq_true, if_false, Action.result_pure]

end Refill

section Shown

variable {β : Type} [Backend β] {stream : Stream β} {count : Nat}

/-- A backend without a direct read is read through its window. -/
theorem read_of_window_only
    (hOnly : stream.capabilities.read = false ∧ stream.capabilities.bufferedRead = true)
    (hSome : 0 < count) : (read count).result stream = (bufferedRead count).result stream := by
  rw [read, if_neg (by omega), Action.result_bind_of_ok (Action.result_state stream)]
  simp only [hOnly.1, hOnly.2, Bool.false_eq_true, if_false, if_true]

/-- Looking at unread bytes of a healthy stream shows them. -/
theorem peek_of_shown {shown : Bytes} (hHealthy : stream.failure = none)
    (hShown : (Backend.buffer stream.backend).slice? stream.window.cursor
      stream.window.available = some shown)
    (hCount : count ≤ stream.window.available) :
    (peek count).result stream = (.ok (shown.take count), stream) := by
  have hSlice : stream.shownBytes.slice? stream.window.cursor count = some (shown.take count) := by
    rw [shownBytes, hHealthy]
    exact Bytes.slice?_take hShown hCount
  simp only [peek, Action.result_bind, Action.result_state, hSlice, Action.result_pure]

/-- A piece off the window is what is unread of it, up to the count. -/
theorem takePiece_of_shown {shown : Bytes} (hHealthy : stream.failure = none)
    (hShown : (Backend.buffer stream.backend).slice? stream.window.cursor
      stream.window.available = some shown) (count : Nat) :
    ∃ window, stream.window.consume (min count stream.window.available) = .ok window ∧
      (takePiece count).result stream =
        (.ok (shown.take (min count stream.window.available)), { stream with window }) := by
  have hMost := Nat.min_le_right count stream.window.available
  have hLength : (shown.take (min count stream.window.available)).length =
      min count stream.window.available := by
    rw [List.length_take, Bytes.length_of_slice? hShown, Nat.min_eq_left hMost]
  obtain ⟨window, hWindow, hConsume⟩ := consume_of_available hMost
  refine ⟨window, hWindow, ?_⟩
  rw [takePiece, Action.result_bind_of_ok (Action.result_state stream), available,
    Action.result_bind_of_ok (peek_of_shown hHealthy hShown hMost), hLength,
    Action.result_bind_of_ok hConsume, Action.result_pure]

end Shown

section Copying

variable {β : Type} [Backend β] {stream ready behind after : Stream β} {rounds count : Nat}

theorem takeBuffered_of_pos (hWanted : 0 < count) :
    (takeBuffered (rounds + 1) count : Op β Bytes) = (do
      refillIfExhausted
      if (← Action.state).errorState.isSuccess then
        let piece ← takePiece count
        return piece ++ (← takeBuffered rounds (count - piece.length))
      else return []) := by
  rw [takeBuffered]
  omega

/-- A round takes one piece off the window, and the later rounds take the rest. -/
theorem takeBuffered_of_piece {piece rest : Bytes} {moved : Nat} (hWanted : 0 < count)
    (hRefill : Action.result refillIfExhausted stream = (.ok (), ready))
    (hClean : ready.errorState = .success)
    (hPiece : (takePiece count).result ready = (.ok piece, behind)) (hLength : piece.length = moved)
    (hRest : (takeBuffered rounds (count - moved)).result behind = (.ok rest, after)) :
    (takeBuffered (rounds + 1) count).result stream = (.ok (piece ++ rest), after) := by
  rw [takeBuffered_of_pos hWanted, Action.result_bind_of_ok hRefill,
    Action.result_bind_of_ok (Action.result_state ready), hClean, if_pos (by decide),
    Action.result_bind_of_ok hPiece, hLength, Action.result_bind_of_ok hRest, Action.result_pure]

/-- A stream under an error hands out nothing, whatever its window shows. -/
theorem takeBuffered_of_failing (hWanted : 0 < count)
    (hRefill : Action.result refillIfExhausted stream = (.ok (), after))
    (hFailed : after.errorState ≠ .success) :
    (takeBuffered (rounds + 1) count).result stream = (.ok [], after) := by
  rw [takeBuffered_of_pos hWanted, Action.result_bind_of_ok hRefill,
    Action.result_bind_of_ok (Action.result_state after), if_neg (by rwa [Code.isSuccess_iff]),
    Action.result_pure]

theorem bufferedRead_of_taken {bytes : Bytes} (hOffers : stream.capabilities.bufferedRead = true)
    (hSome : 0 < count) (hTaken : (takeBuffered count count).result stream = (.ok bytes, after)) :
    (bufferedRead count).result stream =
      (.ok ⟨.report bytes.length after.errorState, bytes⟩, after) := by
  rw [bufferedRead, if_neg (Nat.ne_of_gt hSome),
    Action.result_bind_of_ok (Action.result_state stream), if_pos hOffers,
    Action.result_bind_of_ok hTaken, Action.result_bind_of_ok (Action.result_state after),
    Action.result_pure]

end Copying

variable {β : Type} [Backend β] [WindowRead β]
variable {stream : Stream β} {data : Bytes} {position count : Nat}

theorem bufferedRead_of_stands {code : Code} (hStands : stream.Stands data position code) :
    stream.capabilities.bufferedRead = true := by
  rw [hStands.offered]
  exact WindowRead.window_only.2

/-- Looking at unread bytes shows the next bytes of the data. -/
theorem peek_of_stands {code : Code} (hStands : stream.Stands data position code)
    (hCount : count ≤ stream.window.available) :
    (peek count).result stream = (.ok ((data.drop position).take count), stream) := by
  rw [peek_of_shown hStands.unfailed (WindowRead.shows hStands.holds) hCount, List.take_take,
    Nat.min_eq_left hCount]

/-- The unread bytes are bytes of the data, so no more can be available than is left of it. -/
theorem available_le_of_stands {code : Code} (hStands : stream.Stands data position code) :
    stream.window.available ≤ data.length - position := by
  have hShown := Bytes.length_of_slice? (WindowRead.shows hStands.holds)
  simp only [List.length_take, List.length_drop] at hShown
  omega

theorem consume_reaches (hStands : stream.Stands data position .success)
    (hCount : count ≤ stream.window.available) :
    stream.Reaches (consume count) () data (position + count) := by
  obtain ⟨window, hWindow, hConsume⟩ := consume_of_available hCount
  exact ⟨{ stream with window }, hConsume, hStands.unfailed, hStands.offered,
    WindowRead.consume hStands.holds hWindow, hStands.errorState_eq⟩

/-- Before the end of the data a refill makes unread bytes available and does not move. -/
theorem refill_reaches (hStands : stream.Stands data position .success)
    (hExhausted : stream.window.exhausted = true) (hMore : position < data.length) :
    ∃ after, Action.result refill stream = (.ok .success, after) ∧
      after.Stands data position .success ∧ 0 < after.window.available := by
  obtain ⟨backend, window, log, hCall, hCursor, hBytes, hInside, hHolds⟩ :=
    WindowRead.refill_more hStands.holds hExhausted hMore
  refine ⟨{ stream with backend, window }, ?_, ?_, ?_⟩
  · exact refill_of_success (bufferedRead_of_stands hStands) hExhausted hStands.unfailed hCall
      hCursor hBytes hInside
  · exact ⟨hStands.unfailed, hStands.offered, hHolds, hStands.errorState_eq⟩
  · simp only [Window.available]
    omega

/-- At the end of the data a refill fails for good. -/
theorem refill_ended (hStands : stream.Stands data position .success)
    (hExhausted : stream.window.exhausted = true) (hEnd : data.length ≤ position) :
    ∃ after, Action.result refill stream = (.ok .endOfStream, after) ∧
      after.errorState = .endOfStream := by
  obtain ⟨backend, window, log, hCall⟩ := WindowRead.refill_ended hStands.holds hExhausted hEnd
  exact ⟨_, refill_of_failure (bufferedRead_of_stands hStands) hExhausted hStands.unfailed
    hStands.errorState_eq (by decide) hCall, rfl⟩

/-- A stream that has bytes left of its data gets some of them into the window. -/
theorem refillIfExhausted_reaches (hStands : stream.Stands data position .success)
    (hMore : position < data.length) :
    ∃ after, Action.result refillIfExhausted stream = (.ok (), after) ∧
      after.Stands data position .success ∧ 0 < after.window.available := by
  cases hExhausted : stream.window.exhausted with
  | true =>
      obtain ⟨after, hRefill, hAfter, hBytes⟩ := refill_reaches hStands hExhausted hMore
      exact ⟨after, refillIfExhausted_of_refill hExhausted hRefill, hAfter, hBytes⟩
  | false =>
      refine ⟨stream, refillIfExhausted_of_unread hExhausted, hStands, ?_⟩
      exact (Window.exhausted_eq_false_iff stream.window).mp hExhausted

/-- At the end of the data nothing is unread, so the window meets the end there. -/
theorem refillIfExhausted_ended (hStands : stream.Stands data position .success)
    (hEnd : data.length ≤ position) :
    ∃ after, Action.result refillIfExhausted stream = (.ok (), after) ∧
      after.errorState = .endOfStream := by
  have hExhausted : stream.window.exhausted = true := by
    have hUnread := available_le_of_stands hStands
    rw [Window.exhausted_iff]
    omega
  obtain ⟨after, hRefill, hCode⟩ := refill_ended hStands hExhausted hEnd
  exact ⟨after, refillIfExhausted_of_refill hExhausted hRefill, hCode⟩

theorem takePiece_reaches (hStands : stream.Stands data position .success) (count : Nat) :
    stream.Reaches (takePiece count)
      ((data.drop position).take (min count stream.window.available)) data
      (position + min count stream.window.available) := by
  obtain ⟨window, hWindow, hPiece⟩ :=
    takePiece_of_shown hStands.unfailed (WindowRead.shows hStands.holds) count
  rw [List.take_take, Nat.min_eq_left (Nat.min_le_right count _)] at hPiece
  exact ⟨{ stream with window }, hPiece, hStands.unfailed, hStands.offered,
    WindowRead.consume hStands.holds hWindow, hStands.errorState_eq⟩

/-- Copying through the window delivers the next bytes of the data, all that are wanted or all that
are left. The induction is on the rounds; every round before the end takes at least one byte. -/
theorem takeBuffered_delivers {rounds : Nat} (hRounds : count ≤ rounds)
    (hStands : stream.Stands data position .success) :
    ∃ after, (takeBuffered rounds count).result stream =
        (.ok ((data.drop position).take count), after) ∧
      (count ≤ data.length - position → after.Stands data (position + count) .success) ∧
      (data.length - position < count → after.errorState = .endOfStream) := by
  induction rounds generalizing stream position count with
  | zero =>
      obtain rfl : count = 0 := by omega
      exact ⟨stream, rfl, fun _ => hStands, fun hShort => absurd hShort (by omega)⟩
  | succ rounds ih =>
      rcases Nat.eq_zero_or_pos count with rfl | hWanted
      · exact ⟨stream, rfl, fun _ => hStands, fun hShort => absurd hShort (by omega)⟩
      -- Before the end a refill shows something; at the end it fails, and the loop stops there.
      rcases Nat.lt_or_ge position data.length with hMore | hEnd
      · obtain ⟨ready, hRefill, hReady, hBytes⟩ := refillIfExhausted_reaches hStands hMore
        have hUnread := available_le_of_stands hReady
        obtain ⟨behind, hPiece, hBehind⟩ := takePiece_reaches hReady count
        generalize hMoved : min count ready.window.available = moved at hPiece hBehind
        obtain ⟨after, hLater, hFar, hShort⟩ := ih (by omega : count - moved ≤ rounds) hBehind
        have hLength : ((data.drop position).take moved).length = moved :=
          Bytes.length_piece (by omega)
        refine ⟨after, ?_, ?_, ?_⟩
        · rw [takeBuffered_of_piece hWanted hRefill hReady.errorState_eq hPiece hLength hLater,
            Bytes.take_append_take data position (by omega)]
        · intro hEnough
          have hThere := hFar (by omega)
          rwa [show position + moved + (count - moved) = position + count by omega] at hThere
        · intro hFew
          exact hShort (by omega)
      · obtain ⟨after, hRefill, hCode⟩ := refillIfExhausted_ended hStands hEnd
        have hNothing : data.drop position = [] := List.drop_of_length_le hEnd
        refine ⟨after, ?_, fun hEnough => absurd hEnough (by omega), fun _ => hCode⟩
        rw [takeBuffered_of_failing hWanted hRefill (by rw [hCode]; decide), hNothing, List.take_nil]

/-- A stream read through its window hands out what is left, and says so when it is too little. -/
theorem bufferedRead_delivers (hStands : stream.Stands data position .success) (hSome : 0 < count) :
    stream.Delivers (bufferedRead count) data position count := by
  obtain ⟨after, hTaken, hFar, hShort⟩ := takeBuffered_delivers (Nat.le_refl count) hStands
  refine ⟨after, ?_, hFar, hShort⟩
  rw [bufferedRead_of_taken (bufferedRead_of_stands hStands) hSome hTaken]
  by_cases hEnough : count ≤ data.length - position
  · rw [Bytes.length_piece hEnough, (hFar hEnough).errorState_eq,
      Transfer.copy_enough (by rwa [List.length_drop])]
    rfl
  · have hLeft : (data.drop position).length < count := by
      rw [List.length_drop]
      omega
    rw [hShort (by omega), List.take_of_length_le (Nat.le_of_lt hLeft), Transfer.copy_short hLeft]

theorem read_eq_bufferedRead {code : Code} (hStands : stream.Stands data position code)
    (hSome : 0 < count) : (read count).result stream = (bufferedRead count).result stream := by
  apply read_of_window_only _ hSome
  rw [hStands.offered]
  exact WindowRead.window_only

end Stream

namespace Chunk

variable {β : Type} [Backend β] [WindowRead β]
variable {stream : Stream β} {data : Bytes} {position size : Nat}

theorem takePayload_of_pos {β : Type} [Backend β] {rounds wanted : Nat} (hWanted : 0 < wanted)
    (sum : Word 4) :
    (takePayload (rounds + 1) wanted sum : Stream.Attempt β (Bytes × Word 4)) = (do
      if (← Action.state).available = 0 then (← Stream.lift Stream.refill).toExcept
      let piece := (← Stream.lift Stream.unread).take wanted
      Stream.lift (Stream.consume piece.length)
      let (rest, sum) ← takePayload rounds (wanted - piece.length) (crc32 piece sum)
      return (piece ++ rest, sum)) := by
  rw [takePayload]
  omega

/-- A round takes what it wants of the unread bytes, and the later rounds go on behind them. -/
theorem takePayload_of_unread {β : Type} [Backend β] {stream behind : Stream β} {shown : Bytes}
    {rounds wanted moved : Nat} (hWanted : 0 < wanted) (hSome : stream.available ≠ 0)
    (hShown : Stream.unread.result stream = (.ok shown, stream))
    (hLength : (shown.take wanted).length = moved)
    (hConsume : (Stream.consume moved).result stream = (.ok (), behind)) (sum : Word 4) :
    (takePayload (rounds + 1) wanted sum).result stream = Action.result (do
      let (rest, sum) ← takePayload rounds (wanted - moved) (crc32 (shown.take wanted) sum)
      return (shown.take wanted ++ rest, sum)) behind := by
  rw [takePayload_of_pos hWanted, Action.result_bind_of_ok (Action.result_state stream),
    if_neg hSome, Action.result_bind_of_ok (Stream.result_lift_of_ok hShown)]
  dsimp only
  rw [hLength, Action.result_bind_of_ok (Stream.result_lift_of_ok hConsume)]

/-- Where a refill is needed and succeeds, the round is the one from there. -/
theorem takePayload_of_refilled {β : Type} [Backend β] {stream ready : Stream β}
    {rounds wanted : Nat} (hWanted : 0 < wanted) (hNone : stream.available = 0)
    (hRefill : Action.result Stream.refill stream = (.ok .success, ready))
    (hSome : ready.available ≠ 0) (sum : Word 4) :
    (takePayload (rounds + 1) wanted sum).result stream =
      (takePayload (rounds + 1) wanted sum).result ready := by
  rw [takePayload_of_pos hWanted, Action.result_bind_of_ok (Action.result_state stream),
    if_pos hNone, Action.result_bind_of_ok (Stream.result_lift_of_ok hRefill),
    Action.result_bind_of_ok (Action.result_state ready), if_neg hSome]
  rfl

/-- Where a refill is needed and fails, the payload ends with its error. -/
theorem takePayload_of_failed_refill {β : Type} [Backend β] {stream after : Stream β} {code : Code}
    {rounds wanted : Nat} (hWanted : 0 < wanted) (hNone : stream.available = 0)
    (hRefill : Action.result Stream.refill stream = (.ok code, after)) (hCode : code ≠ .success)
    (sum : Word 4) : (takePayload (rounds + 1) wanted sum).result stream =
      (.error (.error (Error.ofCode code)), after) := by
  rw [takePayload_of_pos hWanted, Action.result_bind_of_ok (Action.result_state stream),
    if_pos hNone, Action.result_bind_of_ok (Stream.result_lift_of_ok hRefill),
    Code.toExcept_of_failure hCode]
  rfl

/-- One round takes at least one byte off the window, as long as there is data left. -/
theorem takePayload_round (rounds : Nat) {wanted : Nat}
    (hStands : stream.Stands data position .success) (hWanted : 0 < wanted)
    (hMore : position < data.length) (sum : Word 4) :
    ∃ moved behind, 0 < moved ∧ moved ≤ wanted ∧ moved ≤ data.length - position ∧
      behind.Stands data (position + moved) .success ∧
      (takePayload (rounds + 1) wanted sum).result stream = Action.result (do
        let (rest, sum) ← takePayload rounds (wanted - moved)
          (crc32 ((data.drop position).take moved) sum)
        return ((data.drop position).take moved ++ rest, sum)) behind := by
  -- A refill is asked for exactly where the window shows nothing, and does not move the stream.
  have hReady : ∃ ready : Stream β, ready.Stands data position .success ∧
      0 < ready.window.available ∧ (takePayload (rounds + 1) wanted sum).result stream =
        (takePayload (rounds + 1) wanted sum).result ready := by
    by_cases hEmpty : stream.available = 0
    · have hExhausted : stream.window.exhausted = true := by
        rwa [Window.exhausted_iff]
      obtain ⟨ready, hRefill, hAfter, hBytes⟩ := Stream.refill_reaches hStands hExhausted hMore
      exact ⟨ready, hAfter, hBytes,
        takePayload_of_refilled hWanted hEmpty hRefill (Nat.ne_of_gt hBytes) sum⟩
    · exact ⟨stream, hStands, Nat.pos_of_ne_zero hEmpty, rfl⟩
  obtain ⟨ready, hAfter, hBytes, hRun⟩ := hReady
  have hUnread := Stream.available_le_of_stands hAfter
  obtain ⟨behind, hConsume, hBehind⟩ :=
    Stream.consume_reaches hAfter (Nat.min_le_right wanted ready.window.available)
  refine ⟨min wanted ready.window.available, behind, by omega, by omega, by omega, hBehind, ?_⟩
  have hShown : Stream.unread.result ready =
      (.ok ((data.drop position).take ready.window.available), ready) := by
    rw [Stream.unread, Action.result_bind_of_ok (Action.result_state ready)]
    exact Stream.peek_of_stands hAfter (Nat.le_refl _)
  have hPiece : ((data.drop position).take ready.window.available).take wanted =
      (data.drop position).take (min wanted ready.window.available) := List.take_take
  have hLength : ((data.drop position).take (min wanted ready.window.available)).length =
      min wanted ready.window.available :=
    Bytes.length_piece (Nat.le_trans (Nat.min_le_right _ _) hUnread)
  rw [hRun, takePayload_of_unread hWanted (Nat.ne_of_gt hBytes) hShown (by rw [hPiece, hLength])
    hConsume, hPiece]

theorem takePayload_ended {rounds wanted : Nat} (hStands : stream.Stands data position .success)
    (hWanted : 0 < wanted) (hEnd : data.length ≤ position) (sum : Word 4) :
    stream.Fails (takePayload (rounds + 1) wanted sum) .endOfStream := by
  have hEmpty : stream.available = 0 := by
    have hUnread := Stream.available_le_of_stands hStands
    simp only [Stream.available]
    omega
  have hExhausted : stream.window.exhausted = true := by
    rwa [Window.exhausted_iff]
  obtain ⟨after, hRefill, hCode⟩ := Stream.refill_ended hStands hExhausted hEnd
  exact ⟨after, takePayload_of_failed_refill hWanted hEmpty hRefill (by decide) sum, hCode⟩

theorem takePayload_reaches {rounds wanted : Nat} (hRounds : wanted ≤ rounds)
    (hStands : stream.Stands data position .success) (hEnough : wanted ≤ data.length - position)
    (sum : Word 4) :
    stream.Reaches (takePayload rounds wanted sum)
      ((data.drop position).take wanted, crc32 ((data.drop position).take wanted) sum) data
      (position + wanted) := by
  induction rounds generalizing stream position wanted sum with
  | zero =>
      obtain rfl : wanted = 0 := by omega
      exact ⟨stream, by rw [List.take_zero, crc32_nil]; rfl, hStands⟩
  | succ rounds ih =>
      rcases Nat.eq_zero_or_pos wanted with rfl | hWanted
      · exact ⟨stream, by rw [List.take_zero, crc32_nil]; rfl, hStands⟩
      obtain ⟨moved, behind, hMoved, hMost, hInside, hBehind, hRun⟩ :=
        takePayload_round rounds hStands hWanted (by omega) sum
      obtain ⟨after, hRest, hAfter⟩ := ih (by omega : wanted - moved ≤ rounds) hBehind
        (by omega) (crc32 ((data.drop position).take moved) sum)
      refine ⟨after, ?_, ?_⟩
      · rw [hRun, Action.result_bind_of_ok hRest, Action.result_pure, ← crc32_append,
          Bytes.take_append_take data position hMost]
      · rwa [show position + moved + (wanted - moved) = position + wanted by omega] at hAfter

theorem takePayload_fails {rounds wanted : Nat} (hRounds : wanted ≤ rounds)
    (hStands : stream.Stands data position .success) (hShort : data.length - position < wanted)
    (sum : Word 4) : stream.Fails (takePayload rounds wanted sum) .endOfStream := by
  induction rounds generalizing stream position wanted sum with
  | zero => omega
  | succ rounds ih =>
      have hWanted : 0 < wanted := by omega
      rcases Nat.lt_or_ge position data.length with hMore | hEnd
      · obtain ⟨moved, behind, hMoved, hMost, hInside, hBehind, hRun⟩ :=
          takePayload_round rounds hStands hWanted hMore sum
        obtain ⟨after, hRest, hCode⟩ := ih (by omega : wanted - moved ≤ rounds) hBehind
          (by omega) (crc32 ((data.drop position).take moved) sum)
        exact ⟨after, by rw [hRun, Action.result_bind_of_error hRest], hCode⟩
      · exact takePayload_ended hStands hWanted hEnd sum

end Chunk

/-- Reading through the window keeps to the order of the data. -/
instance WindowRead.readsInOrder {β : Type} [Backend β] [WindowRead β] : ReadsInOrder β where
  read_delivers := by
    intro stream data position count hStands hSome
    obtain ⟨after, hRun, hRest⟩ := Stream.bufferedRead_delivers hStands hSome
    exact ⟨after, by rw [Stream.read_eq_bufferedRead hStands hSome, hRun], hRest⟩
  payload_reaches := by
    intro stream data position size seed hStands hEnough
    obtain ⟨after, hTaken, hAfter⟩ :=
      Chunk.takePayload_reaches (Nat.le_refl size) hStands hEnough seed
    refine ⟨after, ?_, hAfter⟩
    rw [Chunk.readPayload, Action.result_bind_of_ok (Action.result_state stream),
      if_pos (Stream.bufferedRead_of_stands hStands), Action.result_bind_of_ok hTaken,
      Action.result_bind_of_ok (Action.result_emit _ after), Action.result_pure]
  payload_fails := by
    intro stream data position size seed hStands hShort
    obtain ⟨after, hTaken, hCode⟩ :=
      Chunk.takePayload_fails (Nat.le_refl size) hStands hShort seed
    refine ⟨after, ?_, hCode⟩
    rw [Chunk.readPayload, Action.result_bind_of_ok (Action.result_state stream),
      if_pos (Stream.bufferedRead_of_stands hStands), Action.result_bind_of_error hTaken]

end Bytestream

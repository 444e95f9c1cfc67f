import Bytestream.Proofs.WindowRead

/-!
What a stream with a window still has to give: the bytes that are unread in the window, then what
refills bring in, up to the refill that fails. Reads hand out just that, whatever the pieces that it
comes in and the counts that are asked for.
-/

namespace Bytestream

theorem Window.eq_exhaust {window : Window} (hExhausted : window.exhausted = true) :
    window = window.exhaust := by
  obtain ⟨start, cursor, stop, hStart, hStop⟩ := window
  simp only [exhausted, decide_eq_true_eq] at hExhausted
  subst hExhausted
  rfl

theorem Window.exhaust_of_consume {window after : Window} {count : Nat}
    (hConsume : window.consume count = .ok after) : after.exhaust = window.exhaust := by
  obtain ⟨-, hStart, -, hStop⟩ := of_consume hConsume
  simp only [exhaust, hStart, hStop]

theorem Bytes.slice?_drop {bytes piece : Bytes} {first size count : Nat}
    (hSlice : bytes.slice? first size = some piece) (hCount : count ≤ size) :
    bytes.slice? (first + count) (size - count) = some (piece.drop count) := by
  simp only [slice?, Option.ite_none_right_eq_some, Option.some.injEq] at hSlice
  obtain ⟨hFits, rfl⟩ := hSlice
  rw [slice?, if_pos (by omega), List.drop_take, List.drop_drop]

/-- A backend with a window on it supplies these bytes and then fails with this code: those that the
window shows, and behind them what the refill of the exhausted window goes on with. -/
inductive Supplies {β : Type} [Backend β] : β → Window → Bytes → Code → Prop where
  | ended {backend later : β} {window moved : Window} {shown : Bytes} {code : Code}
      {log : List Event}
      (hShown : (Backend.buffer backend).slice? window.cursor window.available = some shown)
      (hRefill : Backend.refill backend window.exhaust = ⟨.ok code, (later, moved), log⟩)
      (hCode : code ≠ .success) : Supplies backend window shown code
  | refilled {backend later : β} {window moved : Window} {shown rest : Bytes} {code : Code}
      {log : List Event}
      (hShown : (Backend.buffer backend).slice? window.cursor window.available = some shown)
      (hRefill : Backend.refill backend window.exhaust = ⟨.ok .success, (later, moved), log⟩)
      (hCursor : moved.cursor = moved.start) (hMore : moved.cursor < moved.stop)
      (hInside : moved.stop ≤ (Backend.buffer later).length)
      (hRest : Supplies later moved rest code) : Supplies backend window (shown ++ rest) code

namespace Supplies

variable {β : Type} [Backend β] {backend : β} {window after : Window} {bytes : Bytes} {code : Code}
  {count : Nat}

/-- The window shows the first of the bytes. -/
theorem shows (hSupplies : Supplies backend window bytes code) :
    (Backend.buffer backend).slice? window.cursor window.available =
      some (bytes.take window.available) := by
  cases hSupplies with
  | ended hShown hRefill hCode =>
      rw [hShown, List.take_of_length_le (Nat.le_of_eq (Bytes.length_of_slice? hShown))]
  | refilled hShown hRefill hCursor hMore hInside hRest =>
      rw [hShown, List.take_left' (Bytes.length_of_slice? hShown)]

theorem available_le (hSupplies : Supplies backend window bytes code) :
    window.available ≤ bytes.length := by
  have hShown := Bytes.length_of_slice? hSupplies.shows
  rw [List.length_take] at hShown
  omega

/-- Reading off the window takes the first bytes and leaves the refills as they are. -/
theorem consume (hSupplies : Supplies backend window bytes code)
    (hConsume : window.consume count = .ok after) :
    Supplies backend after (bytes.drop count) code := by
  obtain ⟨hCount, -, hCursor, hStop⟩ := Window.of_consume hConsume
  have hSlice {shown : Bytes}
      (hShown : (Backend.buffer backend).slice? window.cursor window.available = some shown) :
      (Backend.buffer backend).slice? after.cursor after.available = some (shown.drop count) := by
    have hLeft : after.available = window.available - count := by
      simp only [Window.available, hCursor, hStop]
      omega
    rw [hCursor, hLeft]
    exact Bytes.slice?_drop hShown hCount
  cases hSupplies with
  | ended hShown hRefill hCode =>
      exact .ended (hSlice hShown) (Window.exhaust_of_consume hConsume ▸ hRefill) hCode
  | refilled hShown hRefill hCursor hMore hInside hRest =>
      rw [List.drop_append_of_le_length (by rwa [Bytes.length_of_slice? hShown])]
      exact .refilled (hSlice hShown) (Window.exhaust_of_consume hConsume ▸ hRefill) hCursor hMore
        hInside hRest

end Supplies

namespace Stream

variable {β : Type} [Backend β] {stream : Stream β} {bytes : Bytes} {ended : Code}
  {total count : Nat}

/-- A healthy stream, read through its window alone, that has these bytes left to give before it
fails with this code. -/
structure Feeds (stream : Stream β) (bytes : Bytes) (ended : Code) : Prop where
  unfailed : stream.failure = none
  window_only : stream.capabilities.read = false ∧ stream.capabilities.bufferedRead = true
  supplies : Supplies stream.backend stream.window bytes ended
  errorState_eq : stream.errorState = .success

/-- A stream that has nothing more to give. Its window may show something, but under the error state
no read takes it. -/
structure Spent (stream : Stream β) (ended : Code) : Prop where
  window_only : stream.capabilities.read = false ∧ stream.capabilities.bufferedRead = true
  shown : stream.window.exhausted = false
  errorState_eq : stream.errorState = ended
  failed : ended ≠ .success

/-- A stream that had these bytes to give when reads for `total` bytes began. -/
def Drawn (stream : Stream β) (bytes : Bytes) (ended : Code) (total : Nat) : Prop :=
  (total ≤ bytes.length → stream.Feeds (bytes.drop total) ended) ∧
    (bytes.length < total → stream.Spent ended)

/-- A refill shows some of the bytes that are left, or fails once there are none. -/
theorem refillIfExhausted_feeds (hFeeds : stream.Feeds bytes ended) :
    ∃ after, Action.result refillIfExhausted stream = (.ok (), after) ∧
      (bytes = [] ∧ after.Spent ended ∨ after.Feeds bytes ended ∧ 0 < after.window.available) := by
  obtain ⟨hHealthy, ⟨hRead, hBuffered⟩, hSupplies, hClean⟩ := hFeeds
  cases hExhausted : stream.window.exhausted with
  | false =>
      refine ⟨stream, refillIfExhausted_of_unread hExhausted, .inr ⟨?_, ?_⟩⟩
      · exact ⟨hHealthy, ⟨hRead, hBuffered⟩, hSupplies, hClean⟩
      · exact (Window.exhausted_eq_false_iff stream.window).mp hExhausted
  | true =>
      have hWindow := Window.eq_exhaust hExhausted
      have hNone := (Window.exhausted_iff stream.window).mp hExhausted
      cases hSupplies with
      | ended hShown hCall hCode =>
          rw [← hWindow] at hCall
          have hRefill := refill_of_failure hBuffered hExhausted hHealthy hClean hCode hCall
          refine ⟨_, refillIfExhausted_of_refill hExhausted hRefill, .inl ⟨?_, ?_⟩⟩
          · rw [← List.length_eq_zero_iff, Bytes.length_of_slice? hShown, hNone]
          · exact ⟨⟨hRead, hBuffered⟩, rfl, rfl, hCode⟩
      | refilled hShown hCall hCursor hMore hInside hRest =>
          rw [← hWindow] at hCall
          have hRefill := refill_of_success hBuffered hExhausted hHealthy hCall hCursor hMore hInside
          have hEmpty := Bytes.length_of_slice? hShown
          rw [hNone, List.length_eq_zero_iff] at hEmpty
          subst hEmpty
          refine ⟨_, refillIfExhausted_of_refill hExhausted hRefill, .inr ⟨?_, ?_⟩⟩
          · exact ⟨hHealthy, ⟨hRead, hBuffered⟩, hRest, hClean⟩
          · exact Nat.sub_pos_of_lt hMore

theorem takePiece_feeds (hFeeds : stream.Feeds bytes ended) (count : Nat) :
    ∃ after, (takePiece count).result stream =
        (.ok (bytes.take (min count stream.window.available)), after) ∧
      after.Feeds (bytes.drop (min count stream.window.available)) ended := by
  obtain ⟨window, hWindow, hPiece⟩ :=
    takePiece_of_shown hFeeds.unfailed hFeeds.supplies.shows count
  rw [List.take_take, Nat.min_eq_left (Nat.min_le_right count _)] at hPiece
  exact ⟨{ stream with window }, hPiece, hFeeds.unfailed, hFeeds.window_only,
    hFeeds.supplies.consume hWindow, hFeeds.errorState_eq⟩

/-- Copying through the window takes the first of the bytes that are left, and fails the stream only
where they are too few. The induction is on the rounds, each of which takes at least one byte. -/
theorem takeBuffered_feeds {rounds : Nat} (hRounds : count ≤ rounds)
    (hFeeds : stream.Feeds bytes ended) :
    ∃ after, (takeBuffered rounds count).result stream = (.ok (bytes.take count), after) ∧
      after.Drawn bytes ended count := by
  induction rounds generalizing stream bytes count with
  | zero =>
      obtain rfl : count = 0 := Nat.le_zero.mp hRounds
      exact ⟨stream, rfl, fun _ => hFeeds, fun hShort => absurd hShort (Nat.not_lt_zero _)⟩
  | succ rounds ih =>
      rcases Nat.eq_zero_or_pos count with rfl | hWanted
      · exact ⟨stream, rfl, fun _ => hFeeds, fun hShort => absurd hShort (Nat.not_lt_zero _)⟩
      obtain ⟨ready, hRefill, ⟨rfl, hSpent⟩ | ⟨hReady, hSome⟩⟩ := refillIfExhausted_feeds hFeeds
      · refine ⟨ready, ?_, fun hEnough => absurd hEnough (Nat.not_le_of_gt hWanted), fun _ => hSpent⟩
        rw [takeBuffered_of_failing hWanted hRefill (hSpent.errorState_eq ▸ hSpent.failed),
          List.take_nil]
      · have hUnread := hReady.supplies.available_le
        obtain ⟨behind, hPiece, hBehind⟩ := takePiece_feeds hReady count
        generalize hMoved : min count ready.window.available = moved at hPiece hBehind
        have hLength : (bytes.take moved).length = moved := by
          rw [List.length_take]
          omega
        obtain ⟨after, hLater, hFar, hShort⟩ := ih (by omega : count - moved ≤ rounds) hBehind
        rw [List.length_drop] at hFar hShort
        refine ⟨after, ?_, fun hEnough => ?_, fun hFew => hShort (by omega)⟩
        · rw [takeBuffered_of_piece hWanted hRefill hReady.errorState_eq hPiece hLength hLater,
            ← List.take_add, Nat.add_sub_cancel' (by omega)]
        · have hThere := hFar (by omega)
          rwa [List.drop_drop, Nat.add_sub_cancel' (by omega)] at hThere

theorem takeBuffered_of_spent (hSpent : stream.Spent ended) (rounds count : Nat) :
    (takeBuffered rounds count).result stream = (.ok [], stream) := by
  match rounds, count with
  | 0, _ => rfl
  | _ + 1, 0 => rfl
  | rounds + 1, count + 1 =>
      exact takeBuffered_of_failing (Nat.succ_pos count) (refillIfExhausted_of_unread hSpent.shown)
        (hSpent.errorState_eq ▸ hSpent.failed)

namespace Drawn

theorem window_only (hDrawn : stream.Drawn bytes ended total) :
    stream.capabilities.read = false ∧ stream.capabilities.bufferedRead = true := by
  rcases Nat.lt_or_ge bytes.length total with hShort | hEnough
  · exact (hDrawn.2 hShort).window_only
  · exact (hDrawn.1 hEnough).window_only

theorem errorState_eq (hDrawn : stream.Drawn bytes ended total) :
    stream.errorState = if total ≤ bytes.length then .success else ended := by
  split
  · exact (hDrawn.1 ‹_›).errorState_eq
  · exact (hDrawn.2 (Nat.lt_of_not_le ‹_›)).errorState_eq

/-- Reads for `total` bytes and then for `count` more are reads for both. -/
theorem of_drop (hDrawn : stream.Drawn (bytes.drop total) ended count)
    (hEnough : total ≤ bytes.length) : stream.Drawn bytes ended (total + count) := by
  rw [Drawn, List.length_drop, List.drop_drop] at hDrawn
  exact ⟨fun hMore => hDrawn.1 (by omega), fun hShort => hDrawn.2 (by omega)⟩

/-- A read goes on where the reads before it stopped. -/
theorem takeBuffered (hDrawn : stream.Drawn bytes ended total) (count : Nat) :
    ∃ after, (Stream.takeBuffered count count).result stream =
        (.ok ((bytes.drop total).take count), after) ∧
      after.Drawn bytes ended (total + count) := by
  rcases Nat.lt_or_ge bytes.length total with hShort | hEnough
  · refine ⟨stream, ?_, fun hMore => absurd hMore (by omega), fun _ => hDrawn.2 hShort⟩
    rw [takeBuffered_of_spent (hDrawn.2 hShort), List.drop_of_length_le (Nat.le_of_lt hShort),
      List.take_nil]
  · obtain ⟨after, hTaken, hAfter⟩ := takeBuffered_feeds (Nat.le_refl count) (hDrawn.1 hEnough)
    exact ⟨after, hTaken, hAfter.of_drop hEnough⟩

/-- What a read of at least one byte hands out, and the code that it reports. -/
theorem bufferedRead (hDrawn : stream.Drawn bytes ended total) (hSome : 0 < count) :
    ∃ after, (Stream.bufferedRead count).result stream =
        (.ok ⟨.report ((bytes.drop total).take count).length
          (if total + count ≤ bytes.length then .success else ended),
          (bytes.drop total).take count⟩, after) ∧
      after.Drawn bytes ended (total + count) := by
  obtain ⟨after, hTaken, hAfter⟩ := hDrawn.takeBuffered count
  refine ⟨after, ?_, hAfter⟩
  rw [bufferedRead_of_taken hDrawn.window_only.2 hSome hTaken, hAfter.errorState_eq]

end Drawn

end Stream

end Bytestream

import Bytestream.Proofs.BackendSupply
import Bytestream.Proofs.WindowBounds

/-!
A refill of a window that may still show unread bytes. They move to the front of the buffer, and
what the source gives next is put behind them. The source is called again after every interruption,
so a refill makes one call more than there are interruptions to come.
-/

namespace Bytestream

namespace Source

/-- A single call of a source for up to `count` bytes. It uses up one entry of the schedule, and an
interrupted call has no answer. -/
def call (source : Source) (count : Nat) : Option (Option Bytes) × Source :=
  if source.readable then
    match source.reads with
    | [] => let (taken, after) := source.take count; (some (some taken), { after with reads := [] })
    | .atMost limit :: later =>
        let (taken, after) := source.take (min count limit)
        (some (some taken), { after with reads := later })
    | .interrupted :: later => (none, { source with reads := later })
    | .failed :: later => (some none, { source with reads := later })
  else (some none, source)

/-- Calls of a source up to the first one with an answer. -/
inductive Retries (count : Nat) : (calls : Nat) → Source → Option Bytes × Source → Prop
  | answered {source later : Source} {answer : Option Bytes}
      (hCall : source.call count = (some answer, later)) : Retries count 1 source (answer, later)
  | again {source middle : Source} {calls : Nat} {result : Option Bytes × Source}
      (hCall : source.call count = (none, middle)) (hLater : Retries count calls middle result) :
      Retries count (calls + 1) source result

/-- How many calls are interrupted before one is answered. -/
def waits (source : Source) : Nat :=
  if source.readable then (source.reads.takeWhile (· = .interrupted)).length else 0

/-- The entry of the schedule that answers the next read, none where the schedule has run out. -/
def reply? (source : Source) : Option SourceRead :=
  (source.reads.dropWhile (· = .interrupted)).head?

/-- The next read fails. -/
def Fails (source : Source) : Prop := source.readable = false ∨ source.reply? = some .failed

/-- The next read finds the end: nothing is left, or the schedule has the source give nothing. -/
def AtEnd (source : Source) : Prop := source.rest = [] ∨ source.reply? = some (.atMost 0)

variable {source later : Source} {taken : Bytes} {count : Nat}

/-- A call that is not interrupted is a read. -/
theorem call_eq_read (hWaits : source.waits = 0) :
    source.call count = (some (source.read count).1, (source.read count).2) := by
  cases hReadable : source.readable with
  | false => simp [call, read, hReadable]
  | true =>
      cases hReads : source.reads with
      | nil => simp [call, read, hReadable, hReads]
      | cons entry rest =>
          cases entry with
          | interrupted => simp [waits, hReadable, hReads] at hWaits
          | atMost | failed => simp [call, read, hReadable, hReads]

/-- An interruption uses up an entry of the schedule and nothing else. -/
theorem interrupted_of_waits {calls : Nat} (hWaits : source.waits = calls + 1) :
    source.readable = true ∧ ∃ rest, source.reads = .interrupted :: rest ∧
      waits { source with reads := rest } = calls := by
  cases hReadable : source.readable with
  | false => simp [waits, hReadable] at hWaits
  | true =>
      cases hReads : source.reads with
      | nil => simp [waits, hReads] at hWaits
      | cons entry rest =>
          cases entry with
          | interrupted =>
              refine ⟨rfl, rest, rfl, ?_⟩
              simpa [waits, hReadable, hReads] using hWaits
          | atMost | failed => simp [waits, hReads] at hWaits

/-- Calling a source until it answers ends, with what a read gives. The induction is on the
interruptions, of which each round leaves one less. -/
theorem retries_read (source : Source) (count : Nat) :
    Retries count (source.waits + 1) source (source.read count) := by
  induction hWaits : source.waits generalizing source with
  | zero => exact .answered (call_eq_read hWaits)
  | succ calls ih =>
      obtain ⟨hReadable, rest, hReads, hLess⟩ := interrupted_of_waits hWaits
      have hCall : source.call count = (none, { source with reads := rest }) := by
        simp only [call, hReadable, hReads, if_true]
      rw [read_interrupted count hReadable hReads]
      exact .again hCall (ih _ hLess)

theorem waits_le (source : Source) : source.waits ≤ source.reads.count .interrupted := by
  rw [waits]
  split
  · have hWaits : (source.reads.takeWhile (· = .interrupted)).count .interrupted =
        (source.reads.takeWhile (· = .interrupted)).length :=
      List.count_eq_length.mpr fun entry hEntry =>
        (of_decide_eq_true (List.all_eq_true.mp List.all_takeWhile entry hEntry)).symm
    rw [← hWaits]
    exact (List.takeWhile_sublist _).count_le _
  · exact Nat.zero_le _

/-- A read fails exactly where its source does. -/
theorem read_eq_none_iff : (source.read count).1 = none ↔ source.Fails := by
  have hReading := source.reading count
  rw [Fails, reply?]
  generalize source.read count = result at hReading ⊢
  cases hReading with
  | refused hReadable => simp [hReadable]
  | failed hReadable hReads | scheduled hReadable hReads | unscheduled hReadable hReads =>
      simp [hReadable, hReads]

/-- A read that does not fail gives nothing exactly into no room or at the end. -/
theorem read_nothing_iff (hRead : source.read count = (some taken, later)) :
    taken = [] ↔ count = 0 ∨ source.AtEnd := by
  have hReading := source.reading count
  rw [AtEnd, reply?]
  rw [hRead] at hReading
  cases hReading with
  | @scheduled limit later _ hReads =>
      show source.rest.take (min count limit) = [] ↔ _
      rw [List.take_eq_nil_iff, hReads, Nat.min_eq_zero_iff, or_assoc]
      refine or_congr_right (or_comm.trans (or_congr_right ?_))
      simp
  | unscheduled _ hReads =>
      show source.rest.take count = [] ↔ _
      rw [List.take_eq_nil_iff, hReads]
      simp

/-- Where no entry of the schedule stands for the end, the end is where nothing is left. -/
theorem AtEnd.rest_eq (hEnd : source.AtEnd) (hSome : .atMost 0 ∉ source.reads) :
    source.rest = [] := by
  refine hEnd.resolve_right fun hReply => hSome ?_
  exact List.dropWhile_subset _ (List.mem_of_head? hReply)

end Source

namespace BufferedReader

variable {reader : BufferedReader} {window : Window}

/-- After a refill the window starts with the buffer. It shows the bytes that were unread, and behind
them those that the source gave, which were the next ones. None were given only if there was no room
or the source is at its end. -/
structure Rotated (reader : BufferedReader) (window : Window) (after : BufferedReader)
    (moved : Window) (added : Bytes) : Prop where
  start_eq : moved.start = 0
  cursor_eq : moved.cursor = 0
  stop_eq : moved.stop = (reader.unread window).length + added.length
  stop_le : moved.stop ≤ after.capacity
  capacity_eq : after.capacity = reader.capacity
  unread_eq : after.unread moved = reader.unread window ++ added
  added_next : added <+: reader.source.rest
  position_eq : after.source.position = reader.source.position + added.length
  bytes_eq : after.source.bytes = reader.source.bytes
  gained : added = [] → (reader.unread window).length = reader.capacity ∨ reader.source.AtEnd

theorem length_unread (hInside : window.stop ≤ reader.capacity) :
    (reader.unread window).length = window.available := by
  have hOrder := window.cursor_le_stop
  rw [capacity] at hInside
  rw [unread, List.length_take, List.length_drop, Window.available]
  omega

theorem length_unread_le (hInside : window.stop ≤ reader.capacity) :
    (reader.unread window).length ≤ reader.capacity := by
  rw [length_unread hInside, Window.available]
  omega

/-- What is written behind a piece at the front follows it. -/
theorem take_overwrite_behind (buffer piece added : Bytes) :
    ((buffer.overwrite 0 piece).overwrite piece.length added).take (piece.length + added.length) =
      piece ++ added := by
  have hFront : (buffer.overwrite 0 piece).take piece.length = piece :=
    take_overwrite_zero buffer piece
  rw [Bytes.overwrite, hFront, ← List.length_append, List.take_left]

/-- What the source gives fits behind the unread bytes, so the buffer keeps its length. -/
theorem rotated_of_read {added : Bytes} {source : Source} (hInside : window.stop ≤ reader.capacity)
    (hRead : reader.source.read (reader.capacity - (reader.unread window).length) =
      (some added, source)) :
    Rotated reader window
      ⟨source, (reader.rotated window).overwrite (reader.unread window).length added⟩
      (Window.whole ((reader.unread window).length + added.length)) added := by
  have hUnread := length_unread_le hInside
  have hAdded := Source.length_of_read hRead
  obtain ⟨most, -, hTaken, hBytes, hPosition⟩ := Source.taken_of_read hRead
  rw [capacity] at hUnread hAdded
  have hRotated : (reader.rotated window).length = reader.buffer.length :=
    Bytes.length_overwrite (by omega)
  have hFilled : ((reader.rotated window).overwrite (reader.unread window).length added).length =
      reader.buffer.length := by
    rw [Bytes.length_overwrite (by omega), hRotated]
  exact {
    start_eq := rfl
    cursor_eq := rfl
    stop_eq := rfl
    stop_le := by
      rw [capacity, hFilled]
      show (reader.unread window).length + added.length ≤ _
      omega
    capacity_eq := hFilled
    unread_eq := take_overwrite_behind _ _ _
    added_next := hTaken ▸ List.take_prefix _ _
    position_eq := hPosition
    bytes_eq := hBytes
    gained := fun hNone => ((Source.read_nothing_iff hRead).mp hNone).imp_left fun hFull => by
      rw [capacity] at hFull ⊢
      omega }

/-- A refill of a buffer that has room for a byte, whatever is unread and whatever the schedule of
its source. It ends when the source answers, one call after the interruptions to come. It succeeds
with the unread bytes at the front and the next ones behind them, comes to the end only where nothing
is unread and the source is at its end, and fails where the source does. -/
theorem refill_rotates (hRoom : 0 < reader.capacity) (hInside : window.stop ≤ reader.capacity) :
    ∃ code after moved log answer,
      reader.refill window = ⟨.ok code, (after, moved), log⟩ ∧
      Source.Retries (reader.capacity - (reader.unread window).length) (reader.source.waits + 1)
        reader.source (answer, after.source) ∧
      reader.source.waits ≤ reader.source.reads.count .interrupted ∧
      (code = .success → ∃ added, Rotated reader window after moved added) ∧
      (code = .endOfStream ↔
        reader.unread window = [] ∧ reader.source.AtEnd ∧ ¬reader.source.Fails) ∧
      (code = .endOfStream → .atMost 0 ∉ reader.source.reads → reader.source.rest = []) ∧
      (code = .readError ↔ reader.source.Fails) ∧
      (code = .success ∨ code = .endOfStream ∨ code = .readError) := by
  have hRefill := refill_of_read hInside
  have hCalls := reader.source.retries_read (reader.capacity - (reader.unread window).length)
  have hFails := @Source.read_eq_none_iff reader.source
    (reader.capacity - (reader.unread window).length)
  have hWaits := reader.source.waits_le
  cases hRead : reader.source.read (reader.capacity - (reader.unread window).length) with
  | mk answer source =>
      rw [hRead] at hRefill hCalls hFails
      cases answer with
      | none =>
          have hFailed := hFails.mp rfl
          exact ⟨.readError, _, _, _, _, hRefill, hCalls, hWaits, Code.noConfusion,
            iff_of_false (by decide) (fun hEnd => hEnd.2.2 hFailed), Code.noConfusion,
            iff_of_true rfl hFailed, .inr (.inr rfl)⟩
      | some added =>
          have hWell : ¬reader.source.Fails := fun hFailed => by cases hFails.mpr hFailed
          have hNothing := Source.read_nothing_iff hRead
          dsimp only at hRefill
          by_cases hNone : reader.unread window = [] ∧ added = []
          · have hEnd : reader.source.AtEnd := by
              refine (hNothing.mp hNone.2).resolve_left fun hFull => ?_
              rw [hNone.1, List.length_nil] at hFull
              omega
            rw [if_pos (by simpa using hNone)] at hRefill
            exact ⟨.endOfStream, _, _, _, _, hRefill, hCalls, hWaits, Code.noConfusion,
              iff_of_true rfl ⟨hNone.1, hEnd, hWell⟩, fun _ => hEnd.rest_eq,
              iff_of_false (by decide) hWell, .inr (.inl rfl)⟩
          · rw [if_neg (by simpa using hNone)] at hRefill
            refine ⟨.success, _, _, _, _, hRefill, hCalls, hWaits,
              fun _ => ⟨added, rotated_of_read hInside hRead⟩, iff_of_false (by decide) ?_,
              Code.noConfusion, iff_of_false (by decide) hWell, .inl rfl⟩
            exact fun hEnd => hNone ⟨hEnd.1, hNothing.mpr (.inr hEnd.2.1)⟩

/-- A reader whose source is interrupted twice and then gives a single byte. -/
def interruptedTwice : BufferedReader where
  source :=
    { bytes := [1, 2, 3, 4, 5, 6], position := 4, limit := positionLimit
      reads := [.interrupted, .interrupted, .atMost 1] }
  buffer := [1, 2, 3, 4]

/-- The window on the last two of four bytes. -/
def lastTwo : Window := ⟨0, 2, 4, by decide, by decide⟩

/-- Two unread bytes stay in front of the one that the third call gives. -/
theorem refill_rotates_behind_interruptions :
    0 < interruptedTwice.capacity ∧ lastTwo.stop ≤ interruptedTwice.capacity ∧
      interruptedTwice.unread lastTwo = [3, 4] ∧
      ∃ after moved added, interruptedTwice.refill lastTwo = ⟨.ok .success, (after, moved), []⟩ ∧
        (∃ answer, Source.Retries 2 3 interruptedTwice.source (answer, after.source)) ∧
        Rotated interruptedTwice lastTwo after moved added ∧ after.unread moved = [3, 4, 5] := by
  have hRoom : 0 < interruptedTwice.capacity := by decide
  have hInside : lastTwo.stop ≤ interruptedTwice.capacity := by decide
  obtain ⟨code, after, moved, log, answer, hRefill, hCalls, -, hSuccess, -⟩ :=
    refill_rotates hRoom hInside
  have hRun : interruptedTwice.refill lastTwo = ⟨.ok .success,
      (⟨{ interruptedTwice.source with position := 5, reads := [] }, [3, 4, 5, 4]⟩, .whole 3), []⟩ :=
    rfl
  rw [hRun] at hRefill
  cases hRefill
  obtain ⟨added, hRotated⟩ := hSuccess rfl
  exact ⟨hRoom, hInside, rfl, _, _, added, hRun, ⟨answer, hCalls⟩, hRotated, rfl⟩

end BufferedReader

end Bytestream

import Bytestream.Backend.BufferedReader
import Bytestream.Proofs.WindowRead

/-!
A buffered reader over a source that never fails. However short or interrupted the reads of the
source are, the source always stands past every unread byte, and those bytes are the next ones.
-/

namespace Bytestream

/-- The read is tried again or gives at least one byte. -/
def SourceRead.Progresses : SourceRead → Prop
  | .atMost count => 0 < count
  | .interrupted => True
  | .failed => False

namespace Source

/-- No read and no seek to come fails, and every position that is an offset can be reached. -/
structure Reliable (source : Source) : Prop where
  readable : source.readable = true
  reads : ∀ read ∈ source.reads, read.Progresses
  seeks : ∀ succeeds ∈ source.seeks, succeeds = true
  offsets : offsetLimit ≤ source.limit

/-- What is taken is never more than is left. -/
theorem take_eq (source : Source) (most : Nat) :
    source.take most =
      (source.rest.take (min most source.rest.length),
        { source with position := source.position + min most source.rest.length }) := by
  rw [take, List.length_take]
  congr 1
  rcases Nat.le_total most source.rest.length with hMost | hMost
  · rw [Nat.min_eq_left hMost]
  · rw [Nat.min_eq_right hMost, List.take_length, List.take_of_length_le hMost]

/-- The ways in which a read can go: the source is not readable, the first entry of the schedule that
is no interruption has it fail or gives some bytes, or the schedule has run out. -/
inductive Reading (source : Source) (count : Nat) : Option Bytes × Source → Prop
  | refused (hReadable : source.readable = false) : Reading source count (none, source)
  | failed {later : List SourceRead} (hReadable : source.readable = true)
      (hReads : source.reads.dropWhile (· = .interrupted) = .failed :: later) :
      Reading source count (none, { source with reads := later })
  | scheduled {limit : Nat} {later : List SourceRead} (hReadable : source.readable = true)
      (hReads : source.reads.dropWhile (· = .interrupted) = .atMost limit :: later) :
      Reading source count
        (some (source.take (min count limit)).1,
          { (source.take (min count limit)).2 with reads := later })
  | unscheduled (hReadable : source.readable = true)
      (hReads : source.reads.dropWhile (· = .interrupted) = []) :
      Reading source count (some (source.take count).1, { (source.take count).2 with reads := [] })

theorem reading (source : Source) (count : Nat) : source.Reading count (source.read count) := by
  have hFirst := List.head?_dropWhile_not (· = .interrupted) source.reads
  rw [read]
  by_cases hReadable : source.readable = true
  · rw [if_pos hReadable]
    cases hReads : source.reads.dropWhile (· = .interrupted) with
    | nil => exact .unscheduled hReadable hReads
    | cons entry later =>
        rw [hReads] at hFirst
        cases entry with
        | atMost limit => exact .scheduled hReadable hReads
        | interrupted =>
            -- Leading interruptions were dropped from the schedule.
            simp at hFirst
        | failed => exact .failed hReadable hReads
  · rw [if_neg hReadable]
    exact .refused (Bool.not_eq_true _ ▸ hReadable)

/-- A read of a reliable source takes some of the next bytes, and none only at the end of them or
into no room. -/
theorem read_of_reliable {source : Source} (hReliable : source.Reliable) (count : Nat) :
    ∃ taken later, taken ≤ count ∧ taken ≤ source.rest.length ∧
      (0 < count → 0 < source.rest.length → 0 < taken) ∧
      source.read count =
        (some (source.rest.take taken),
          { source with position := source.position + taken, reads := later }) ∧
      ∀ read ∈ later, read.Progresses := by
  have hSchedule : ∀ read ∈ source.reads.dropWhile (· = .interrupted), read.Progresses :=
    fun read hRead => hReliable.reads read (List.dropWhile_subset _ hRead)
  have hReading := source.reading count
  generalize source.read count = result at hReading ⊢
  cases hReading with
  | refused hReadable =>
      rw [hReliable.readable] at hReadable
      cases hReadable
  | failed _ hReads => exact absurd (hSchedule .failed (hReads ▸ List.mem_cons_self)) id
  | @scheduled limit later _ hReads =>
      rw [hReads] at hSchedule
      have hLimit : 0 < limit := hSchedule _ List.mem_cons_self
      refine ⟨min (min count limit) source.rest.length, later, by omega, by omega, by omega, ?_,
        fun read hRead => hSchedule read (List.mem_cons_of_mem _ hRead)⟩
      simp only [take_eq]
  | unscheduled _ _ =>
      refine ⟨min count source.rest.length, [], by omega, by omega, by omega, ?_, by simp⟩
      simp only [take_eq]

/-- A seek of a reliable source goes to every offset that it resolves to. -/
theorem seek_of_reliable {source : Source} (hReliable : source.Reliable) {offset : Int}
    {origin : Origin} {target : Nat}
    (hTarget : origin.resolve offset source.position source.bytes.length = some target)
    (hLimit : target < offsetLimit) :
    source.seek offset origin =
      (some target, { source with position := target, seeks := source.seeks.tail }) := by
  have hScheduled : source.seeks.headD true = true := by
    cases hSeeks : source.seeks with
    | nil => rfl
    | cons succeeds later => exact hReliable.seeks succeeds (hSeeks ▸ List.mem_cons_self)
  simp only [seek, hScheduled, hTarget]
  rw [if_pos (Nat.lt_of_lt_of_le hLimit hReliable.offsets)]

theorem seek_of_unresolved (source : Source) {offset : Int} {origin : Origin}
    (hTarget : origin.resolve offset source.position source.bytes.length = none) :
    source.seek offset origin = (none, { source with seeks := source.seeks.tail }) := by
  simp only [seek, hTarget]
  cases source.seeks.headD true <;> rfl

theorem Reliable.seeked {source : Source} (hReliable : source.Reliable) (position : Nat) :
    Reliable { source with position, seeks := source.seeks.tail } :=
  ⟨hReliable.readable, hReliable.reads,
    fun succeeds hSucceeds => hReliable.seeks succeeds (List.mem_of_mem_tail hSucceeds),
    hReliable.offsets⟩

end Source

namespace BufferedReader

/-- The coupling of a reader with the data that it reads: the source is ahead of the reader by the
unread bytes, and those are the bytes it has passed. -/
structure Holds (reader : BufferedReader) (window : Window) (data : Bytes) (position : Nat) :
    Prop where
  reliable : reader.source.Reliable
  bytes_eq : reader.source.bytes = data
  ahead : reader.source.position = position + window.available
  inside : window.stop ≤ reader.buffer.length
  room : 0 < reader.buffer.length
  unread : (reader.buffer.drop window.cursor).take window.available =
    (data.drop position).take window.available

variable {reader : BufferedReader} {window : Window} {data : Bytes} {position : Nat}

/-- The bytes that a window shows. -/
def unread (reader : BufferedReader) (window : Window) : Bytes :=
  (reader.buffer.drop window.cursor).take window.available

/-- The buffer with the unread bytes moved to its front. -/
def rotated (reader : BufferedReader) (window : Window) : Bytes :=
  reader.buffer.overwrite 0 (reader.unread window)

/-- A refill passes on what reading the source into the room behind the unread bytes came to. -/
theorem refill_of_read (hInside : window.stop ≤ reader.capacity) :
    reader.refill window =
      match reader.source.read (reader.capacity - (reader.unread window).length) with
      | (none, source) =>
          ⟨.ok .readError, (⟨source, reader.rotated window⟩, window),
            [.refillFailed reader.readFailureReason]⟩
      | (some added, source) =>
          if (reader.unread window).isEmpty && added.isEmpty then
            ⟨.ok .endOfStream, (⟨source, reader.rotated window⟩, window), []⟩
          else
            ⟨.ok .success,
              (⟨source, (reader.rotated window).overwrite (reader.unread window).length added⟩,
                Window.whole ((reader.unread window).length + added.length)), []⟩ := by
  rw [refill, if_neg (Nat.not_lt.mpr hInside)]
  rfl

theorem unread_of_exhausted (reader : BufferedReader) (hExhausted : window.exhausted = true) :
    reader.unread window = [] := by
  rw [unread, (Window.exhausted_iff window).mp hExhausted, List.take_zero]

theorem rotated_of_exhausted (reader : BufferedReader) (hExhausted : window.exhausted = true) :
    reader.rotated window = reader.buffer := by
  simp [rotated, reader.unread_of_exhausted hExhausted, Bytes.overwrite]

/-- A refill of an exhausted window makes the bytes that the source gives the new window. -/
theorem refill_of_exhausted {taken : Bytes} {source : Source}
    (hInside : window.stop ≤ reader.buffer.length) (hExhausted : window.exhausted = true)
    (hRead : reader.source.read reader.buffer.length = (some taken, source)) :
    reader.refill window =
      if taken.isEmpty then ⟨.ok .endOfStream, (⟨source, reader.buffer⟩, window), []⟩
      else ⟨.ok .success,
        (⟨source, reader.buffer.overwrite 0 taken⟩, Window.whole taken.length), []⟩ := by
  rw [refill_of_read hInside, reader.unread_of_exhausted hExhausted,
    reader.rotated_of_exhausted hExhausted, List.length_nil, Nat.sub_zero, capacity, hRead]
  simp only [List.isEmpty_nil, Bool.true_and, Nat.zero_add]

/-- A refill passes the failure of the source on and leaves the window as it was. -/
theorem refill_of_failed {source : Source} (hInside : window.stop ≤ reader.buffer.length)
    (hExhausted : window.exhausted = true)
    (hRead : reader.source.read reader.buffer.length = (none, source)) :
    reader.refill window =
      ⟨.ok .readError, (⟨source, reader.buffer⟩, window),
        [.refillFailed reader.readFailureReason]⟩ := by
  rw [refill_of_read hInside, reader.unread_of_exhausted hExhausted,
    reader.rotated_of_exhausted hExhausted, List.length_nil, Nat.sub_zero, capacity, hRead]

theorem take_overwrite_zero (buffer taken : Bytes) :
    ((buffer.overwrite 0 taken).drop 0).take taken.length = taken := by
  rw [Bytes.overwrite, List.take_zero, List.nil_append, List.drop_zero, List.take_left]

theorem Holds.consume {after : Window} {count : Nat} (hHolds : reader.Holds window data position)
    (hConsume : window.consume count = .ok after) :
    reader.Holds after data (position + count) := by
  obtain ⟨hEnough, -, hCursor, hStop⟩ := Window.of_consume hConsume
  have hOrder := window.cursor_le_stop
  have hLeft : after.available = window.available - count := by
    simp only [Window.available, hCursor, hStop]
    omega
  refine ⟨hHolds.reliable, hHolds.bytes_eq, ?_, hStop ▸ hHolds.inside, hHolds.room, ?_⟩
  · have hAhead := hHolds.ahead
    omega
  · have hRest := congrArg (List.drop count) hHolds.unread
    rw [List.drop_take, List.drop_take, List.drop_drop, List.drop_drop] at hRest
    rw [hLeft, hCursor]
    exact hRest

/-- Before the end of the data a refill shows the bytes that follow, and the source is ahead by
exactly those. -/
theorem Holds.refill_more (hHolds : reader.Holds window data position)
    (hExhausted : window.exhausted = true) (hMore : position < data.length) :
    ∃ later moved, reader.refill window = ⟨.ok .success, (later, moved), []⟩ ∧
      moved.cursor = moved.start ∧ moved.cursor < moved.stop ∧
      moved.stop ≤ later.buffer.length ∧ later.Holds moved data position := by
  have hUnread : window.available = 0 := (Window.exhausted_iff window).mp hExhausted
  have hPosition : reader.source.position = position := by
    have hAhead := hHolds.ahead
    omega
  have hRest : reader.source.rest = data.drop position := by
    rw [Source.rest, hHolds.bytes_eq, hPosition]
  obtain ⟨taken, schedule, hRoom, hLeft, hSome, hRead, hSchedule⟩ :=
    Source.read_of_reliable hHolds.reliable reader.buffer.length
  rw [hRest] at hLeft hSome hRead
  rw [List.length_drop] at hLeft hSome
  have hTaken : 0 < taken := hSome hHolds.room (by omega)
  have hLength : ((data.drop position).take taken).length = taken := Bytes.length_piece hLeft
  have hGiven : ¬((data.drop position).take taken).isEmpty = true := by
    rw [List.isEmpty_iff_length_eq_zero, hLength]
    omega
  have hKept : (reader.buffer.overwrite 0 ((data.drop position).take taken)).length =
      reader.buffer.length := by
    apply Bytes.length_overwrite
    omega
  refine ⟨_, _, by rw [refill_of_exhausted hHolds.inside hExhausted hRead, if_neg hGiven], rfl,
    ?_, ?_, ?_⟩
  · rw [hLength]
    exact hTaken
  · rw [hLength, hKept]
    exact hRoom
  · refine ⟨⟨hHolds.reliable.readable, hSchedule, hHolds.reliable.seeks, hHolds.reliable.offsets⟩,
      hHolds.bytes_eq, ?_, ?_, ?_, ?_⟩
    · rw [Window.available_whole, hLength, hPosition]
    · rw [hKept]
      exact Nat.le_trans (Nat.le_of_eq hLength) hRoom
    · rw [hKept]
      exact hHolds.room
    · rw [Window.available_whole]
      show ((Bytes.overwrite _ 0 _).drop 0).take _ = _
      rw [take_overwrite_zero, hLength]

theorem Holds.refill_ended (hHolds : reader.Holds window data position)
    (hExhausted : window.exhausted = true) (hEnd : data.length ≤ position) :
    ∃ later, reader.refill window = ⟨.ok .endOfStream, (later, window), []⟩ := by
  have hUnread : window.available = 0 := (Window.exhausted_iff window).mp hExhausted
  obtain ⟨taken, schedule, hRoom, hLeft, hSome, hRead, hSchedule⟩ :=
    Source.read_of_reliable hHolds.reliable reader.buffer.length
  have hNothing : reader.source.rest = [] := by
    have hAhead := hHolds.ahead
    rw [Source.rest, hHolds.bytes_eq]
    exact List.drop_of_length_le (by omega)
  rw [hNothing, List.take_nil] at hRead
  exact ⟨_, by rw [refill_of_exhausted hHolds.inside hExhausted hRead, if_pos List.isEmpty_nil]⟩

/-- What a reader still has to read ends with its data, so the source is not past that either
unless nothing is unread. -/
theorem Holds.available_le (hHolds : reader.Holds window data position) :
    window.available ≤ data.length - position := by
  have hShown := congrArg List.length hHolds.unread
  have hInside := hHolds.inside
  have hOrder := window.cursor_le_stop
  simp only [List.length_take, List.length_drop, Window.available] at hShown ⊢
  omega

/-- A seek to a place that the source can have goes there and drops what was unread. -/
theorem Holds.seek {offset : Int} {origin : Origin} {target : Nat}
    (hHolds : reader.Holds window data position)
    (hTarget : origin.resolve offset position data.length = some target)
    (hLimit : target < offsetLimit) (hLength : data.length < offsetLimit)
    (hOffset : -offsetLimit ≤ offset) :
    ∃ later, reader.seek window offset origin = ⟨.ok (.done target), (later, Window.empty), []⟩ ∧
      later.Holds Window.empty data target := by
  have hUnread := hHolds.available_le
  have hSum := (toPosition?_eq_some_iff.mp hTarget).1
  have hShifted : ∃ shifted, sourceOffset? window offset origin = some shifted ∧
      origin.resolve shifted reader.source.position reader.source.bytes.length = some target := by
    rw [hHolds.bytes_eq, hHolds.ahead]
    cases origin with
    | start =>
        simp only [Origin.base] at hSum
        exact ⟨offset, if_neg (by omega), hTarget⟩
    | current =>
        -- The source is ahead by the unread bytes, and the offset goes back over them first.
        simp only [Origin.base] at hSum
        refine ⟨offset - window.available, if_pos (by omega), ?_⟩
        have hBack : (↑(position + window.available) + (offset - ↑window.available) : Int) =
            position + offset := by
          omega
        simp only [Origin.resolve, Origin.base] at hTarget ⊢
        rw [hBack, hTarget]
    | finish => exact ⟨offset, rfl, hTarget⟩
  obtain ⟨shifted, hOffset, hResolved⟩ := hShifted
  refine ⟨⟨{ reader.source with position := target, seeks := reader.source.seeks.tail },
    reader.buffer⟩, ?_, ?_⟩
  · rw [BufferedReader.seek, hOffset]
    dsimp only
    rw [Source.seek_of_reliable hHolds.reliable hResolved hLimit]
  · exact ⟨hHolds.reliable.seeked target, hHolds.bytes_eq, rfl, Nat.zero_le _, hHolds.room, rfl⟩

/-- A seek to a place before the data is refused. -/
theorem Holds.seek_refused {offset : Int} {origin : Origin}
    (hHolds : reader.Holds window data position)
    (hTarget : origin.resolve offset position data.length = none) :
    ∃ later, reader.seek window offset origin =
      ⟨.ok (.failed .seekError), (later, window), []⟩ := by
  rw [BufferedReader.seek]
  cases hOffset : sourceOffset? window offset origin with
  | none => exact ⟨reader, rfl⟩
  | some shifted =>
      have hResolved : origin.resolve shifted reader.source.position reader.source.bytes.length =
          none := by
        rw [hHolds.bytes_eq, hHolds.ahead]
        cases origin with
        | start =>
            simp only [sourceOffset?, Option.ite_none_left_eq_some, Option.some.injEq] at hOffset
            obtain ⟨-, rfl⟩ := hOffset
            exact hTarget
        | current =>
            simp only [sourceOffset?, Option.ite_none_right_eq_some, Option.some.injEq] at hOffset
            obtain ⟨-, rfl⟩ := hOffset
            have hBack : (↑(position + window.available) + (offset - ↑window.available) : Int) =
                position + offset := by
              omega
            simp only [Origin.resolve, Origin.base] at hTarget ⊢
            rw [hBack, hTarget]
        | finish =>
            cases hOffset
            exact hTarget
      refine ⟨⟨{ reader.source with seeks := reader.source.seeks.tail }, reader.buffer⟩, ?_⟩
      dsimp only
      rw [Source.seek_of_unresolved _ hResolved]

/-- A size query goes to the end of the source and back. -/
theorem Holds.size (hHolds : reader.Holds window data position) (hLength : data.length < offsetLimit)
    (hPosition : position < offsetLimit) :
    ∃ later, reader.size = ⟨.done data.length, later, []⟩ ∧ later.Holds window data position := by
  have hUnread := hHolds.available_le
  have hSource : reader.source.position < offsetLimit := by
    have hAhead := hHolds.ahead
    omega
  have hOffset : offsetLimit < positionLimit := by decide
  obtain ⟨hRest, hBytes, hAhead, hInside, hRoom, hShown⟩ := hHolds
  have hHere : Origin.current.resolve 0 reader.source.position reader.source.bytes.length =
      some reader.source.position :=
    toPosition?_eq_some_iff.mpr ⟨Int.add_zero _, Nat.lt_trans hSource hOffset⟩
  have hEnd : Origin.finish.resolve 0 reader.source.position reader.source.bytes.length =
      some data.length := by
    rw [hBytes]
    exact toPosition?_eq_some_iff.mpr ⟨Int.add_zero _, Nat.lt_trans hLength hOffset⟩
  have hBack : Origin.start.resolve reader.source.position data.length reader.source.bytes.length =
      some reader.source.position :=
    toPosition?_eq_some_iff.mpr ⟨Int.zero_add _, Nat.lt_trans hSource hOffset⟩
  have hOnce := hRest.seeked reader.source.position
  have hTwice := hOnce.seeked data.length
  have hFirst := Source.seek_of_reliable hRest hHere hSource
  have hSecond := Source.seek_of_reliable hOnce hEnd hLength
  have hThird := Source.seek_of_reliable hTwice hBack hSource
  refine ⟨⟨{ reader.source with seeks := reader.source.seeks.tail.tail.tail }, reader.buffer⟩,
    ?_, hTwice.seeked reader.source.position, hBytes, hAhead, hInside, hRoom, hShown⟩
  simp only [BufferedReader.size, hFirst, hSecond, hThird]

instance : WindowRead BufferedReader where
  Holds := Holds
  window_only := ⟨rfl, rfl⟩
  shows := by
    intro reader window data position hHolds
    rw [← hHolds.unread]
    exact Window.slice?_of_inside hHolds.inside
  consume := Holds.consume
  refill_more := by
    intro reader window data position hHolds hExhausted hMore
    obtain ⟨later, moved, hRefill, hRest⟩ := hHolds.refill_more hExhausted hMore
    exact ⟨later, moved, [], hRefill, hRest⟩
  refill_ended := by
    intro reader window data position hHolds hExhausted hEnd
    obtain ⟨later, hRefill⟩ := hHolds.refill_ended hExhausted hEnd
    exact ⟨later, window, [], hRefill⟩

end BufferedReader

end Bytestream

import Bytestream.Proofs.BufferedReading
import Bytestream.Proofs.BufferedSupply

/-!
What the backends with a window supply: all of their data, or, below a buffer, what the schedule of
the source lets through before its first failure.
-/

namespace Bytestream

theorem Window.consume_available (window : Window) :
    window.consume window.available = .ok window.exhaust := by
  obtain ⟨start, cursor, stop, hStart, hStop⟩ := window
  simp only [consume, exhaust, available, Nat.le_refl, dif_pos, Nat.add_sub_cancel' hStop]

/-- A backend that keeps to the order of its data supplies what is left of it. The induction is on
what is left behind the window, which every refill makes shorter. -/
theorem WindowRead.supplies {β : Type} [Backend β] [WindowRead β] {backend : β} {window : Window}
    {data : Bytes} {position : Nat} (hHolds : Readable.Holds backend window data position) :
    Supplies backend window (data.drop position) .endOfStream := by
  induction hLeft : data.length - (position + window.available) using Nat.strongRecOn
    generalizing backend window position with
  | _ left ih =>
      have hShown := WindowRead.shows hHolds
      have hExhausted := Window.exhausted_exhaust window
      have hUnread : window.available ≤ data.length - position := by
        have hLength := Bytes.length_of_slice? hShown
        rw [List.length_take, List.length_drop] at hLength
        omega
      have hBehind : Readable.Holds backend window.exhaust data (position + window.available) :=
        WindowRead.consume hHolds (Window.consume_available window)
      rcases Nat.lt_or_ge (position + window.available) data.length with hMore | hEnd
      · obtain ⟨later, moved, log, hRefill, hCursor, hSome, hInside, hAfter⟩ :=
          WindowRead.refill_more hBehind hExhausted hMore
        have hGained : 0 < moved.available := Nat.sub_pos_of_lt hSome
        have hRest := ih _ (by omega) hAfter rfl
        have hAll := Supplies.refilled hShown hRefill hCursor hSome hInside hRest
        rwa [← List.drop_drop, List.take_append_drop] at hAll
      · obtain ⟨later, moved, log, hRefill⟩ := WindowRead.refill_ended hBehind hExhausted hEnd
        have hAll : (data.drop position).take window.available = data.drop position := by
          rw [List.take_of_length_le]
          rw [List.length_drop]
          omega
        rw [← hAll]
        exact .ended hShown hRefill Code.noConfusion

/-- How many of the `left` bytes of a source a schedule of reads lets through into a buffer, and what
ends them. Once a schedule has run out everything comes through, and where nothing is left no read
can fail for want of it. -/
def SourceRead.supply (room : Nat) : List SourceRead → (left : Nat) → Nat × Code
  | [], left => (left, .endOfStream)
  | .interrupted :: later, left => supply room later left
  | .failed :: _, _ => (0, .readError)
  | .atMost count :: later, left =>
      if left = 0 then (0, .endOfStream)
      else
        let given := min (min room count) left
        let (more, ended) := supply room later (left - given)
        (given + more, ended)

/-- A schedule ends with all of the bytes let through, unless one of its reads fails. -/
theorem SourceRead.supply_cases (room : Nat) (reads : List SourceRead) (left : Nat) :
    (supply room reads left).2 = .endOfStream ∧ (supply room reads left).1 = left ∨
      (supply room reads left).2 = .readError ∧ (supply room reads left).1 ≤ left ∧
        .failed ∈ reads := by
  induction reads generalizing left with
  | nil => exact .inl ⟨rfl, rfl⟩
  | cons read later ih =>
      cases read with
      | interrupted => exact (ih left).imp_right fun hFailed =>
          ⟨hFailed.1, hFailed.2.1, List.mem_cons_of_mem _ hFailed.2.2⟩
      | failed => exact .inr ⟨rfl, Nat.zero_le _, List.mem_cons_self⟩
      | atMost count =>
          rcases Nat.eq_zero_or_pos left with rfl | hLeft
          · exact .inl ⟨rfl, rfl⟩
          rw [supply, if_neg (by omega)]
          obtain ⟨hEnded, hAll⟩ | ⟨hEnded, hSome, hFailed⟩ := ih (left - min (min room count) left)
          · exact .inl ⟨hEnded, by dsimp only; omega⟩
          · exact .inr ⟨hEnded, by dsimp only; omega, List.mem_cons_of_mem _ hFailed⟩

namespace Source

/-- A read asks the first entry of the schedule that is no interruption. -/
theorem read_interrupted {source : Source} {later : List SourceRead} (room : Nat)
    (hReadable : source.readable = true) (hReads : source.reads = .interrupted :: later) :
    source.read room = Source.read { source with reads := later } room := by
  obtain ⟨bytes, position, limit, readable, reads, seeks⟩ := source
  subst hReadable hReads
  simp only [Source.read, if_true, List.dropWhile_cons, decide_true]
  cases later.dropWhile (fun read => decide (read = .interrupted)) with
  | nil => rfl
  | cons read rest => cases read <;> rfl

/-- What a read takes of a source that has bytes left comes off what the schedule lets through. -/
theorem supply_of_given {room count left : Nat} {later : List SourceRead} (hLeft : 0 < left) :
    SourceRead.supply room (.atMost count :: later) left =
      (min (min room count) left +
          (SourceRead.supply room later (left - min (min room count) left)).1,
        (SourceRead.supply room later (left - min (min room count) left)).2) := by
  rw [SourceRead.supply, if_neg (by omega)]

/-- The three things that a read of a scheduled source comes to: it fails, nothing is left, or it
takes some of the next bytes and leaves the schedule shorter. -/
theorem read_of_schedule {source : Source} {room : Nat} (hReadable : source.readable = true)
    (hSome : .atMost 0 ∉ source.reads) (hRoom : 0 < room) :
    (SourceRead.supply room source.reads source.rest.length = (0, .readError) ∧
        ∃ later, source.read room = (none, later)) ∨
      (SourceRead.supply room source.reads source.rest.length = (0, .endOfStream) ∧
        ∃ later, source.read room = (some [], later)) ∨
      ∃ taken reads, 0 < taken ∧ taken ≤ room ∧ taken ≤ source.rest.length ∧
        reads ⊆ source.reads ∧
        source.read room = (some (source.rest.take taken),
          { source with position := source.position + taken, reads }) ∧
        SourceRead.supply room source.reads source.rest.length =
          (taken + (SourceRead.supply room reads (source.rest.length - taken)).1,
            (SourceRead.supply room reads (source.rest.length - taken)).2) := by
  induction hReads : source.reads generalizing source with
  | nil =>
      have hRead : source.read room = (some (source.rest.take (min room source.rest.length)),
          { source with position := source.position + min room source.rest.length, reads := [] }) := by
        simp only [Source.read, hReadable, hReads, if_true, List.dropWhile_nil, take_eq]
      rcases Nat.eq_zero_or_pos source.rest.length with hNone | hLeft
      · refine .inr (.inl ⟨by rw [hNone]; rfl, ?_⟩)
        rw [hRead, hNone, Nat.min_zero, List.take_zero]
        exact ⟨_, rfl⟩
      · refine .inr (.inr ⟨min room source.rest.length, [], by omega, by omega, by omega,
          List.nil_subset _, hRead, ?_⟩)
        simp only [SourceRead.supply, Nat.add_sub_cancel' (Nat.min_le_right room _)]
  | cons read later ih =>
      cases read with
      | interrupted =>
          rw [read_interrupted room hReadable hReads, SourceRead.supply]
          have hLater : .atMost 0 ∉ later := fun hNone =>
            hSome (hReads ▸ List.mem_cons_of_mem _ hNone)
          obtain hFailed | hEnded | ⟨taken, reads, hGained, hMost, hThere, hReads, hRest⟩ :=
            @ih { source with reads := later } hReadable hLater rfl
          · exact .inl hFailed
          · exact .inr (.inl hEnded)
          · exact .inr (.inr ⟨taken, reads, hGained, hMost, hThere,
              List.subset_cons_of_subset _ hReads, hRest⟩)
      | failed =>
          refine .inl ⟨rfl, { source with reads := later }, ?_⟩
          simp [Source.read, hReadable, hReads]
      | atMost count =>
          have hCount : 0 < count := by
            apply Nat.pos_of_ne_zero
            rintro rfl
            exact hSome (hReads ▸ List.mem_cons_self)
          have hRead : source.read room =
              (some (source.rest.take (min (min room count) source.rest.length)),
                { source with
                  position := source.position + min (min room count) source.rest.length
                  reads := later }) := by
            simp [Source.read, hReadable, hReads, take_eq]
          rcases Nat.eq_zero_or_pos source.rest.length with hNone | hLeft
          · refine .inr (.inl ⟨by rw [hNone]; rfl, ?_⟩)
            rw [hRead, hNone, Nat.min_zero, List.take_zero]
            exact ⟨_, rfl⟩
          · exact .inr (.inr ⟨min (min room count) source.rest.length, later, by omega, by omega,
              by omega, List.subset_cons_self _ _, hRead, supply_of_given hLeft⟩)

/-- What a source still lets through into a buffer, and what ends it. -/
def supply (source : Source) (room : Nat) : Nat × Code :=
  if source.readable then SourceRead.supply room source.reads source.rest.length
  else (0, .readError)

/-- What a read takes comes off what the source lets through, and the rest follows. -/
theorem read_of_supply {source : Source} {room : Nat} (hSome : .atMost 0 ∉ source.reads)
    (hRoom : 0 < room) :
    (source.supply room = (0, .readError) ∧ ∃ later, source.read room = (none, later)) ∨
      (source.supply room = (0, .endOfStream) ∧ ∃ later, source.read room = (some [], later)) ∨
      ∃ taken later, 0 < taken ∧ taken ≤ room ∧ taken ≤ source.rest.length ∧
        later.rest = source.rest.drop taken ∧ .atMost 0 ∉ later.reads ∧
        source.read room = (some (source.rest.take taken), later) ∧
        source.supply room = (taken + (later.supply room).1, (later.supply room).2) := by
  by_cases hReadable : source.readable = true
  · obtain hFailed | hEnded | ⟨taken, reads, hGained, hMost, hThere, hReads, hRead, hSupply⟩ :=
      read_of_schedule hReadable hSome hRoom
    · rw [supply, if_pos hReadable]
      exact .inl hFailed
    · rw [supply, if_pos hReadable]
      exact .inr (.inl hEnded)
    · have hRest : rest { source with position := source.position + taken, reads } =
          source.rest.drop taken := by
        simp only [rest, List.drop_drop]
      refine .inr (.inr ⟨taken, _, hGained, hMost, hThere, hRest, fun hNone => hSome (hReads hNone),
        hRead, ?_⟩)
      rw [supply, supply, if_pos hReadable, if_pos (by exact hReadable), hRest, List.length_drop]
      exact hSupply
  · refine .inl ⟨if_neg hReadable, source, ?_⟩
    rw [Source.read, if_neg hReadable]

end Source

namespace BufferedReader

/-- What a refill of an exhausted window shows comes off what the source lets through. -/
theorem refill_of_supply {reader : BufferedReader} {window : Window}
    (hInside : window.stop ≤ reader.capacity) (hRoom : 0 < reader.capacity)
    (hExhausted : window.exhausted = true) (hSome : .atMost 0 ∉ reader.source.reads) :
    (reader.source.supply reader.capacity = (0, .readError) ∧
        ∃ later log, reader.refill window = ⟨.ok .readError, (later, window), log⟩) ∨
      (reader.source.supply reader.capacity = (0, .endOfStream) ∧
        ∃ later, reader.refill window = ⟨.ok .endOfStream, (later, window), []⟩) ∨
      ∃ taken later, 0 < taken ∧ taken ≤ reader.source.rest.length ∧
        later.capacity = reader.capacity ∧ taken ≤ reader.capacity ∧
        later.buffer.slice? 0 taken = some (reader.source.rest.take taken) ∧
        later.source.rest = reader.source.rest.drop taken ∧ .atMost 0 ∉ later.source.reads ∧
        reader.refill window = ⟨.ok .success, (later, Window.whole taken), []⟩ ∧
        reader.source.supply reader.capacity =
          (taken + (later.source.supply reader.capacity).1,
            (later.source.supply reader.capacity).2) := by
  obtain ⟨hSupply, later, hRead⟩ | ⟨hSupply, later, hRead⟩ |
      ⟨taken, later, hGained, hMost, hThere, hRest, hLater, hRead, hSupply⟩ :=
    Source.read_of_supply hSome hRoom
  · exact .inl ⟨hSupply, _, _, refill_of_failed hInside hExhausted hRead⟩
  · refine .inr (.inl ⟨hSupply, ⟨later, reader.buffer⟩, ?_⟩)
    rw [refill_of_exhausted hInside hExhausted hRead, if_pos List.isEmpty_nil]
  · have hLength : (reader.source.rest.take taken).length = taken := by
      rw [List.length_take, Nat.min_eq_left hThere]
    have hGiven : ¬(reader.source.rest.take taken).isEmpty = true := by
      rw [List.isEmpty_iff_length_eq_zero, hLength]
      exact Nat.pos_iff_ne_zero.mp hGained
    have hFits : 0 + (reader.source.rest.take taken).length ≤ reader.buffer.length := by
      rwa [hLength, Nat.zero_add]
    have hFirst := Bytes.slice?_overwrite hFits
    have hRefill := refill_of_exhausted hInside hExhausted hRead
    rw [hLength] at hFirst
    rw [if_neg hGiven, hLength] at hRefill
    exact .inr (.inr ⟨taken, ⟨later, reader.buffer.overwrite 0 (reader.source.rest.take taken)⟩,
      hGained, hThere, Bytes.length_overwrite hFits, hMost, hFirst, hRest, hLater, hRefill, hSupply⟩)

/-- A reader supplies what its window shows and what its source lets through. The induction is on
what is left of the source. -/
theorem supplies {reader : BufferedReader} {window : Window} {shown : Bytes}
    (hShown : reader.buffer.slice? window.cursor window.available = some shown)
    (hInside : window.stop ≤ reader.capacity) (hRoom : 0 < reader.capacity)
    (hSome : .atMost 0 ∉ reader.source.reads) :
    Supplies reader window
      (shown ++ reader.source.rest.take (reader.source.supply reader.capacity).1)
      (reader.source.supply reader.capacity).2 := by
  induction hLeft : reader.source.rest.length using Nat.strongRecOn
    generalizing reader window shown with
  | _ left ih =>
      obtain ⟨hSupply, later, log, hRefill⟩ | ⟨hSupply, later, hRefill⟩ |
          ⟨taken, later, hGained, hThere, hKept, hMost, hFirst, hRest, hLater, hRefill, hSupply⟩ :=
        @refill_of_supply reader window.exhaust hInside hRoom (Window.exhausted_exhaust window) hSome
      · rw [hSupply, List.take_zero, List.append_nil]
        exact .ended hShown hRefill Code.noConfusion
      · rw [hSupply, List.take_zero, List.append_nil]
        exact .ended hShown hRefill Code.noConfusion
      · have hInside : (Window.whole taken).stop ≤ later.capacity := hKept ▸ hMost
        have hNext := @ih (reader.source.rest.length - taken) (by omega) later (Window.whole taken) _
          hFirst hInside (hKept ▸ hRoom) hLater (by rw [hRest, List.length_drop])
        rw [hRest, hKept] at hNext
        rw [hSupply, List.take_add]
        exact .refilled hShown hRefill rfl hGained hInside hNext

end BufferedReader

end Bytestream

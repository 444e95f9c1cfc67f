import Bytestream.Backend.File
import Bytestream.Backend.Growable
import Bytestream.Backend.Pieces
import Bytestream.Backend.ReadOnly
import Bytestream.Backend.Region
import Bytestream.Proofs.DirectRead
import Bytestream.Proofs.FileTransfers
import Bytestream.Proofs.WindowRead

/-!
The backends that can be read, and where each of them stands in its data: at a cursor of
its own, or at the cursor of the window.
-/

namespace Bytestream

namespace Cursor

/-- The cursor is `position` bytes into `data`. -/
def Holds (cursor : Cursor) (data : Bytes) (position : Nat) : Prop :=
  cursor.bytes = data ∧ cursor.position = position

/-- Reading at a cursor copies what lies behind it and moves past the copy. -/
theorem read_of_holds {cursor : Cursor} {data : Bytes} {position : Nat}
    (hHolds : cursor.Holds data position) (count : Nat) :
    (cursor.read count).1 = Transfer.copy count (data.drop position) count ∧
      (cursor.read count).2.Holds data (position + ((data.drop position).take count).length) := by
  obtain ⟨rfl, rfl⟩ := hHolds
  refine ⟨rfl, rfl, ?_⟩
  simp only [read, Transfer.copy, rest, Nat.min_self]

end Cursor

instance : DirectRead Region where
  Holds region _ data position := region.toCursor.Holds data position
  direct_only := ⟨rfl, rfl⟩
  copies := by
    intro region window data position count hHolds hSome
    obtain ⟨hCopy, hAfter⟩ := Cursor.read_of_holds hHolds count
    exact ⟨⟨(region.toCursor.read count).2⟩, [], by rw [← hCopy]; rfl, hAfter⟩

instance [Memory] : DirectRead Growable where
  Holds vector _ data position := vector.toCursor.Holds data position
  direct_only := ⟨rfl, rfl⟩
  copies := by
    intro vector window data position count hHolds hSome
    obtain ⟨hCopy, hAfter⟩ := Cursor.read_of_holds hHolds count
    exact ⟨⟨(vector.toCursor.read count).2⟩, [], by rw [← hCopy]; rfl, hAfter⟩

instance : DirectRead File where
  Holds file _ data position :=
    file.bytes = data ∧ file.position = position ∧ file.access.canRead = true ∧
      SystemCall.Smooth file.reads
  direct_only := ⟨rfl, rfl⟩
  copies := by
    rintro file window data position count ⟨rfl, rfl, hAccess, hSmooth⟩ -
    obtain ⟨later, hLater, hRead⟩ := File.read_copies hAccess hSmooth count
    refine ⟨_, [], hRead, rfl, ?_, hAccess, hSmooth.of_suffix hLater⟩
    simp only [Transfer.copy, Nat.min_self]

/-- The window covers all of the bytes, and its cursor is the position. -/
def ReadOnly.Holds (source : ReadOnly) (window : Window) (data : Bytes) (position : Nat) : Prop :=
  source.bytes = data ∧ window.start = 0 ∧ window.cursor = position ∧ window.stop = data.length

/-- A window over all of the bytes is exhausted only at their end. -/
theorem ReadOnly.Holds.length_le {source : ReadOnly} {window : Window} {data : Bytes}
    {position : Nat} (hHolds : source.Holds window data position)
    (hExhausted : window.exhausted = true) : data.length ≤ position := by
  obtain ⟨-, -, rfl, hStop⟩ := hHolds
  simp only [Window.exhausted, decide_eq_true_eq] at hExhausted
  exact Nat.le_of_eq (hStop.symm.trans hExhausted.symm)

instance : WindowRead ReadOnly where
  Holds := ReadOnly.Holds
  window_only := ⟨rfl, rfl⟩
  shows := by
    rintro source window data position ⟨rfl, hStart, rfl, hStop⟩
    exact Window.slice?_of_inside (Nat.le_of_eq hStop)
  consume := by
    rintro source window after data position count ⟨rfl, hStart, rfl, hStop⟩ hConsume
    obtain ⟨-, hAfterStart, hAfterCursor, hAfterStop⟩ := Window.of_consume hConsume
    exact ⟨rfl, hAfterStart.trans hStart, hAfterCursor, hAfterStop.trans hStop⟩
  refill_more := by
    intro source window data position hHolds hExhausted hMore
    exact absurd (ReadOnly.Holds.length_le hHolds hExhausted) (Nat.not_le_of_gt hMore)
  refill_ended := by
    intro source window data position hHolds hExhausted hEnd
    exact ⟨source, window, [], rfl⟩

/-- A pattern that is not empty always has a next piece, and a positive one. -/
theorem Pieces.exists_nextLength {source : Pieces} (hPattern : source.pattern ≠ []) :
    ∃ length, source.nextLength? = some length ∧ 0 < length := by
  have hIndex : source.taken % source.pattern.length < source.pattern.length :=
    Nat.mod_lt _ (List.length_pos_iff.mpr hPattern)
  exact ⟨_, List.getElem?_eq_getElem hIndex, source.pattern_pos _ (List.getElem_mem hIndex)⟩

/-- The window ends inside the bytes, its cursor is the position, and there is always a next
piece. -/
def Pieces.Holds (source : Pieces) (window : Window) (data : Bytes) (position : Nat) : Prop :=
  source.bytes = data ∧ window.cursor = position ∧ window.stop ≤ data.length ∧ source.pattern ≠ []

/-- Before the end of the bytes a refill shows the next piece, or what is left of it. -/
theorem Pieces.Holds.refill_more {source : Pieces} {window : Window} {data : Bytes}
    {position : Nat} (hHolds : source.Holds window data position)
    (hExhausted : window.exhausted = true) (hMore : position < data.length) :
    ∃ later moved, source.refill window = ⟨.ok .success, (later, moved), []⟩ ∧
      moved.cursor = moved.start ∧ moved.cursor < moved.stop ∧
      moved.stop ≤ later.bytes.length ∧ later.Holds moved data position := by
  obtain ⟨rfl, rfl, hStop, hPattern⟩ := hHolds
  simp only [Window.exhausted, decide_eq_true_eq] at hExhausted
  obtain ⟨length, hNext, hPositive⟩ := exists_nextLength hPattern
  have hInside : window.stop + min length (source.bytes.length - window.stop) ≤
      source.bytes.length := by
    omega
  refine ⟨{ source with taken := source.taken + 1 },
    Window.run window.stop (min length (source.bytes.length - window.stop)), ?_, rfl, ?_,
    hInside, rfl, hExhausted.symm, hInside, hPattern⟩
  · rw [refill, if_neg (by omega), hNext]
  · simp only [Window.run]
    omega

theorem Pieces.Holds.refill_ended {source : Pieces} {window : Window} {data : Bytes}
    {position : Nat} (hHolds : source.Holds window data position)
    (hExhausted : window.exhausted = true) (hEnd : data.length ≤ position) :
    source.refill window = ⟨.ok .endOfStream, (source, window), []⟩ := by
  obtain ⟨rfl, rfl, hStop, hPattern⟩ := hHolds
  simp only [Window.exhausted, decide_eq_true_eq] at hExhausted
  rw [refill, if_pos (by omega)]

instance : WindowRead Pieces where
  Holds := Pieces.Holds
  window_only := ⟨rfl, rfl⟩
  shows := by
    rintro source window data position ⟨rfl, rfl, hStop, hPattern⟩
    exact Window.slice?_of_inside hStop
  consume := by
    rintro source window after data position count ⟨rfl, rfl, hStop, hPattern⟩ hConsume
    obtain ⟨-, -, hAfterCursor, hAfterStop⟩ := Window.of_consume hConsume
    exact ⟨rfl, hAfterCursor, hAfterStop ▸ hStop, hPattern⟩
  refill_more := by
    intro source window data position hHolds hExhausted hMore
    obtain ⟨later, moved, hRefill, hRest⟩ := Pieces.Holds.refill_more hHolds hExhausted hMore
    exact ⟨later, moved, [], hRefill, hRest⟩
  refill_ended := by
    intro source window data position hHolds hExhausted hEnd
    exact ⟨source, window, [], Pieces.Holds.refill_ended hHolds hExhausted hEnd⟩

end Bytestream

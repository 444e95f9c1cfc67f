import Bytestream.Backend.Growable
import Bytestream.Backend.Region
import Bytestream.Proofs.FileTransfers

/-!
The media that streams write to: a region of fixed length, a vector that grows, and a file. What is
proved of every storage holds for each of them, from any position with enough room behind it.
-/

namespace Bytestream

theorem Region.write_stores {region : Region} {piece : Bytes} (hPiece : piece ≠ [])
    (hFits : region.position + piece.length ≤ region.bytes.length) :
    ∃ after, region.write piece = ⟨.done piece.length, after, []⟩ ∧
      after.bytes = region.bytes.store region.position piece ∧
      after.position = region.position + piece.length := by
  have hSome := List.length_pos_iff.mpr hPiece
  have hRest : region.rest.length = region.bytes.length - region.position :=
    Cursor.length_rest region.toCursor
  have hRoom : ¬region.rest.isEmpty = true := by
    rw [List.isEmpty_iff_length_eq_zero]
    omega
  have hWhole : Transfer.copy region.rest.length piece piece.length =
      ⟨.done piece.length, piece⟩ := by
    rw [Transfer.copy, Nat.min_eq_left (by omega), List.take_length]
    simp only [Nat.lt_irrefl, if_false]
    rfl
  refine ⟨⟨region.toCursor.put piece hFits⟩, ?_, (Bytes.store_of_le region.position_le).symm, rfl⟩
  rw [write, if_neg hRoom]
  simp only [hWhole]

/-- Growing as far as a piece reaches makes room for it and nothing else. -/
theorem Bytes.overwrite_zeroExtend {bytes : Bytes} {position : Nat}
    (hPosition : position ≤ bytes.length) (piece : Bytes) :
    (bytes.zeroExtend (position + piece.length)).overwrite position piece =
      bytes.store position piece := by
  rw [store_of_le hPosition, overwrite, overwrite, drop_zeroExtend bytes (Nat.le_refl _),
    zeroExtend, List.take_append_of_le_length hPosition]

/-- A vector stores a piece and grows where it reaches past the end. -/
theorem Growable.write_stores [Memory] {vector : Growable} {piece : Bytes}
    (hFits : vector.canHold (vector.position + piece.length)) :
    ∃ after, vector.write piece = ⟨.done piece.length, after, []⟩ ∧
      after.bytes = vector.bytes.store vector.position piece ∧
      after.position = vector.position + piece.length := by
  have hRoom : vector.position + piece.length ≤
      (vector.extend (vector.position + piece.length)).bytes.length := by
    rw [Cursor.length_extend]
    exact Nat.le_max_right _ _
  refine ⟨⟨(vector.extend (vector.position + piece.length)).put piece hRoom⟩, ?_,
    Bytes.overwrite_zeroExtend vector.position_le piece, rfl⟩
  rw [write]
  exact if_pos hFits

/-- A file that is open for writing stores a piece, behind a gap of zeros where it starts past the
end. -/
theorem File.write_stores {file : File} {piece : Bytes} (hAccess : file.access.canWrite = true)
    (hSmooth : SystemCall.Smooth file.writes) (hFits : file.position + piece.length ≤ sizeLimit) :
    ∃ after, file.write piece = ⟨.done piece.length, after, []⟩ ∧
      after.bytes = file.bytes.store file.position piece ∧
      after.position = file.position + piece.length ∧ after.access.canWrite = true ∧
      SystemCall.Smooth after.writes := by
  obtain ⟨later, hLater, hWrite⟩ := write_completes hAccess hSmooth hFits
  exact ⟨_, hWrite, rfl, rfl, hAccess, hSmooth.of_suffix hLater⟩

instance : Storage Region where
  Keeps region content position := region.bytes = content ∧ region.position = position
  Fits length reached := reached ≤ length
  offers_write := rfl
  fits_mono := by omega
  write_stores := by
    rintro region content piece position ⟨rfl, rfl⟩ hPiece hFits
    obtain ⟨after, hWrite, hAfter⟩ := Region.write_stores hPiece hFits
    exact ⟨after, [], hWrite, hAfter⟩

instance [Memory] : Storage Growable where
  Keeps vector content position := vector.bytes = content ∧ vector.position = position
  Fits length reached := reached ≤ length ∨ reached ≤ reservable
  offers_write := rfl
  fits_mono := by omega
  write_stores := by
    rintro vector content piece position ⟨rfl, rfl⟩ - hFits
    obtain ⟨after, hWrite, hAfter⟩ := Growable.write_stores hFits
    exact ⟨after, [], hWrite, hAfter⟩

instance : Storage File where
  Keeps file content position :=
    file.bytes = content ∧ file.position = position ∧ file.access.canWrite = true ∧
      SystemCall.Smooth file.writes
  Fits _ reached := reached ≤ File.sizeLimit
  offers_write := rfl
  fits_mono := by omega
  write_stores := by
    rintro file content piece position ⟨rfl, rfl, hAccess, hSmooth⟩ - hFits
    obtain ⟨after, hWrite, hAfter⟩ := File.write_stores hAccess hSmooth hFits
    exact ⟨after, [], hWrite, hAfter⟩

/-- A stream over a medium that can be written to. -/
inductive Medium where
  | region (stream : Stream Region)
  | vector (stream : Stream Growable)
  | file (stream : Stream File)

namespace Medium

/-- The bytes that the medium holds. -/
def content : Medium → Bytes
  | region stream => stream.backend.bytes
  | vector stream => stream.backend.bytes
  | file stream => stream.backend.bytes

/-- Where the next write starts. -/
def position : Medium → Nat
  | region stream => stream.backend.position
  | vector stream => stream.backend.position
  | file stream => stream.backend.position

/-- The stream was opened on its backend and has met no error, and a file is open for writing on a
system that gets on with every write. -/
def Ready [Memory] : Medium → Prop
  | region stream =>
      stream.capabilities = Backend.capabilities stream.backend ∧ stream.errorState = .success
  | vector stream =>
      stream.capabilities = Backend.capabilities stream.backend ∧ stream.errorState = .success
  | file stream =>
      stream.capabilities = Backend.capabilities stream.backend ∧ stream.errorState = .success ∧
        stream.backend.access.canWrite = true ∧ SystemCall.Smooth stream.backend.writes

/-- There is room for `count` more bytes at the position. A region does not grow, a vector grows as
far as memory can be reserved, and a file up to the largest size. -/
def HasRoom [Memory] (medium : Medium) (count : Nat) : Prop :=
  match medium with
  | region stream => stream.backend.position + count ≤ stream.backend.bytes.length
  | vector stream => stream.backend.canHold (stream.backend.position + count)
  | file stream => stream.backend.position + count ≤ File.sizeLimit

/-- Runs an operation on the stream. -/
def run [Memory] {α : Type} (medium : Medium)
    (operation : ∀ {β : Type} [Backend β], Stream.Attempt β α) : Except Stop α × Medium :=
  match medium with
  | region stream => (operation.result stream).map id region
  | vector stream => (operation.result stream).map id vector
  | file stream => (operation.result stream).map id file

/-- Every medium with room for `piece` takes the operation: it yields `value`, stores the piece at
the position and nothing else, and moves behind it. -/
def Takes [Memory] {α : Type} (operation : ∀ {β : Type} [Backend β], Stream.Attempt β α) (value : α)
    (piece : Bytes) : Prop :=
  ∀ medium : Medium, medium.Ready → medium.HasRoom piece.length →
    ∃ after, medium.run operation = (.ok value, after) ∧ after.Ready ∧
      after.content = medium.content.store medium.position piece ∧
      after.position = medium.position + piece.length

/-- What every storage writes is what each medium takes. -/
theorem takes_of_writes [Memory] {α : Type} {operation : ∀ {β : Type} [Backend β], Stream.Attempt β α}
    {value : α} {piece : Bytes}
    (hWrites : ∀ {β : Type} [Backend β] [Storage β],
      Stream.Writes (operation : Stream.Attempt β α) value piece) :
    Takes operation value piece := by
  intro medium hReady hRoom
  cases medium with
  | region stream =>
      obtain ⟨hOffered, hClean⟩ := hReady
      obtain ⟨after, hRun, hAfter, -⟩ := hWrites stream _ _ ⟨hOffered, ⟨rfl, rfl⟩, hClean⟩ hRoom
      exact ⟨region after, by rw [run, hRun]; rfl, ⟨hAfter.offered, hAfter.errorState_eq⟩,
        hAfter.keeps.1, hAfter.keeps.2⟩
  | vector stream =>
      obtain ⟨hOffered, hClean⟩ := hReady
      obtain ⟨after, hRun, hAfter, -⟩ := hWrites stream _ _ ⟨hOffered, ⟨rfl, rfl⟩, hClean⟩ hRoom
      exact ⟨vector after, by rw [run, hRun]; rfl, ⟨hAfter.offered, hAfter.errorState_eq⟩,
        hAfter.keeps.1, hAfter.keeps.2⟩
  | file stream =>
      obtain ⟨hOffered, hClean, hAccess⟩ := hReady
      obtain ⟨after, hRun, hAfter, -⟩ := hWrites stream _ _
        ⟨hOffered, ⟨rfl, rfl, hAccess⟩, hClean⟩ hRoom
      exact ⟨file after, by rw [run, hRun]; rfl,
        ⟨hAfter.offered, hAfter.errorState_eq, hAfter.keeps.2.2⟩, hAfter.keeps.1,
        hAfter.keeps.2.1⟩

end Medium

end Bytestream

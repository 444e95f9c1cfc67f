import Bytestream.Proofs.ArenaSteps

/-!
What a write into a blob comes to. A word and a pointer are stored whole or not at all. An array
record is stored field by field, so that one of which only the count lies inside the blob is refused
with its count stored.
-/

namespace Bytestream

/-- A write of `size` bytes at `position` ends in one of two ways. Where all of them lie inside the
blob they are stored, nothing else is changed, and what was written reads back. Where they do not the
write is refused, and `left` is what it leaves. -/
inductive Settles (blob : Bytes) (position size : Nat) (reads : Bytes → Prop) (left : Bytes) :
    Except Error Unit → Bytes → Prop
  | stored {after : Bytes} (hInside : position + size ≤ blob.length)
      (hLength : after.length = blob.length)
      (hOutside : ∀ index, ¬(position ≤ index ∧ index < position + size) →
        after[index]? = blob[index]?)
      (hReads : reads after) : Settles blob position size reads left (.ok ()) after
  | refused (hShort : blob.length < position + size) :
      Settles blob position size reads left (.error .outOfBounds) left

namespace Bytes

variable {blob after : Bytes} {pieces : List (Nat × Bytes)} {complete : Bool}
variable {position size index width : Nat}

theorem Overwritten.length_eq (hWritten : Overwritten blob pieces complete after) :
    after.length = blob.length := by
  induction hWritten with
  | all | refused => rfl
  | written hFits hLater ih => rw [ih, length_overwrite hFits]

/-- Pieces that lie inside a range leave everything outside of it alone. -/
theorem Overwritten.outside (hWritten : Overwritten blob pieces complete after)
    (hWithin : ∀ write ∈ pieces, position ≤ write.1 ∧ write.1 + write.2.length ≤ position + size)
    (hOutside : ¬(position ≤ index ∧ index < position + size)) : after[index]? = blob[index]? := by
  rcases Nat.lt_or_ge index blob.length with hIndex | hIndex
  · refine hWritten.keeps.same index hIndex ?_
    rintro ⟨write, hWrite, -, hFirst, hLast⟩
    have hInside := hWithin write hWrite
    omega
  · rw [List.getElem?_eq_none hIndex, List.getElem?_eq_none (hWritten.length_eq ▸ hIndex)]

/-- A word is stored whole or not at all. -/
theorem writeAt_settles {reads : Bytes → Prop} (blob : Bytes) (position : Nat) (word : Word width)
    (hReads : ∀ after : Bytes, after.slice? position width = some (Word.bytes .little word) →
      reads after) :
    ∃ answer after,
      blob.writeAt .little position word = answer.map (fun _ => (after, position + width)) ∧
        Settles blob position width reads blob answer after := by
  rw [writeAt]
  by_cases hInside : position + width ≤ blob.length
  · have hFits : position + (Word.bytes .little word).length ≤ blob.length := by
      rwa [Word.length_bytes]
    have hSlice := slice?_overwrite hFits
    rw [Word.length_bytes] at hSlice
    rw [if_pos hInside]
    refine ⟨.ok (), _, rfl, .stored hInside (length_overwrite hFits) (fun index hOutside => ?_)
      (hReads _ hSlice)⟩
    exact getElem?_overwrite_outside hFits (by rwa [Word.length_bytes])
  · rw [if_neg hInside]
    exact ⟨.error .outOfBounds, blob, rfl, .refused (Nat.lt_of_not_le hInside)⟩

end Bytes

/-- So is a pointer. -/
theorem Pointer.writeAt_settles {scalar : Scalar} {stride : Nat} (pointer : Pointer scalar stride)
    (blob : Bytes) (position : Nat) :
    ∃ answer after, pointer.writeAt blob position = answer.map (fun _ => after) ∧
      Settles blob position (size scalar) (fun after => readAt after position = .ok pointer) blob
        answer after := by
  obtain ⟨answer, after, hWrite, hSettles⟩ := Bytes.writeAt_settles blob position pointer.stored
    fun after => readAt_of_bytes
  refine ⟨answer, after, ?_, hSettles⟩
  rw [writeAt, hWrite]
  cases hSettles <;> rfl

namespace ArrayRecord

variable {countWidth : Nat} {scalar : Scalar} {stride : Nat} {blob : Bytes} {position : Nat}

/-- What a refused write of the record leaves: its count is stored if it lies inside. -/
def leftover (record : ArrayRecord countWidth scalar stride) (blob : Bytes) (position : Nat) :
    Bytes :=
  if position + countWidth ≤ blob.length then
    blob.overwrite position (Word.bytes .little record.count)
  else blob

theorem result_writeAt_of_short (record : ArrayRecord countWidth scalar stride)
    (hShort : blob.length < position + size countWidth scalar) :
    (record.writeAt position).result blob = (.error .outOfBounds, record.leftover blob position) := by
  rw [writeAt, Action.result_bind_of_ok (Action.result_state blob), Bytes.writeAt, leftover]
  split
  · rename_i hCount
    have hLength : (blob.overwrite position (Word.bytes .little record.count)).length =
        blob.length := Bytes.length_overwrite (by rwa [Word.length_bytes])
    rw [Action.result_bind_of_ok (Action.result_liftM_ok _ blob), Action.result_bind_of_ok rfl,
      Pointer.writeAt, Bytes.writeAt, if_neg (by rw [size] at hShort; omega)]
    rfl
  · rfl

theorem result_writeAt_of_inside (record : ArrayRecord countWidth scalar stride)
    (hInside : position + size countWidth scalar ≤ blob.length) :
    ∃ after, (record.writeAt position).result blob = (.ok (), after) := by
  rw [size] at hInside
  have hLength : (blob.overwrite position (Word.bytes .little record.count)).length =
      blob.length := Bytes.length_overwrite (by rw [Word.length_bytes]; omega)
  rw [writeAt, Action.result_bind_of_ok (Action.result_state blob), Bytes.writeAt,
    if_pos (by omega), Action.result_bind_of_ok (Action.result_liftM_ok _ blob),
    Action.result_bind_of_ok rfl, Pointer.writeAt, Bytes.writeAt, if_pos (by omega)]
  exact ⟨_, rfl⟩

/-- A record is stored whole, or refused with what is left over of it. -/
theorem writeAt_settles (record : ArrayRecord countWidth scalar stride) (blob : Bytes)
    (position : Nat) :
    ∃ answer after, (record.writeAt position).result blob = (answer, after) ∧
      Settles blob position (size countWidth scalar)
        (fun after => readAt after position = .ok record) (record.leftover blob position)
        answer after := by
  have hWritten := record.overwritten_writeAt position blob
  rcases Nat.lt_or_ge blob.length (position + size countWidth scalar) with hShort | hInside
  · exact ⟨_, _, record.result_writeAt_of_short hShort, .refused hShort⟩
  · obtain ⟨after, hRun⟩ := record.result_writeAt_of_inside hInside
    rw [hRun] at hWritten
    have hSlices := hWritten.slice? (List.pairwise_pair.mpr (Nat.le_of_eq (by
      rw [Word.length_bytes, pointerPosition])))
    have hCount := hSlices _ (List.mem_cons_self ..)
    have hElements := hSlices _ (List.mem_cons_of_mem _ (List.mem_singleton_self _))
    rw [Word.length_bytes] at hCount hElements
    refine ⟨_, after, hRun, .stored hInside hWritten.length_eq (fun index => hWritten.outside ?_) ?_⟩
    · simp only [List.forall_mem_cons, pointerPosition, size, Word.length_bytes]
      refine ⟨?_, ?_, List.forall_mem_nil _⟩ <;> omega
    · exact readAt_eq_ok_iff.mpr ⟨Bytes.readAt_of_bytes hCount, Pointer.readAt_of_bytes hElements⟩

end ArrayRecord

/-- Every write into a blob settles: of a word, of a pointer and of an array record, through the arena
and on their own. Only a record that does not fit may leave something. -/
structure WritesSettle (blob : Bytes) (position : Nat) : Prop where
  patch : ∀ {width : Nat} (word : Word width), ∃ answer after,
    (Arena.patch position word).result blob = (answer.mapError .error, after) ∧
      Settles blob position width
        (fun after => after.readAt .little width position = .ok (word, position + width)) blob
        answer after
  writePointer : ∀ {scalar : Scalar} {stride : Nat} {target : Option Nat}
    {pointer : Pointer scalar stride}, Pointer.toTarget position target = .ok pointer →
      ∃ answer after,
        (Arena.writePointer scalar stride position target).result blob =
          ((answer.map fun _ => pointer).mapError .error, after) ∧
        Settles blob position (Pointer.size scalar)
          (fun after => Pointer.readAt after position = .ok pointer) blob answer after
  writeArray : ∀ {countWidth : Nat} {scalar : Scalar} {stride target count : Nat}
    {record : ArrayRecord countWidth scalar stride},
    ArrayRecord.between position target count = .ok record → ∃ answer after,
      (Arena.writeArray countWidth scalar stride position target count).result blob =
        ((answer.map fun _ => record).mapError .error, after) ∧
      Settles blob position (ArrayRecord.size countWidth scalar)
        (fun after => ArrayRecord.readAt after position = .ok record)
        (record.leftover blob position) answer after
  pointer : ∀ {scalar : Scalar} {stride : Nat} (pointer : Pointer scalar stride), ∃ answer after,
    pointer.writeAt blob position = answer.map (fun _ => after) ∧
      Settles blob position (Pointer.size scalar)
        (fun after => Pointer.readAt after position = .ok pointer) blob answer after
  record : ∀ {countWidth : Nat} {scalar : Scalar} {stride : Nat}
    (record : ArrayRecord countWidth scalar stride), ∃ answer after,
      (record.writeAt position).result blob = (answer, after) ∧
        Settles blob position (ArrayRecord.size countWidth scalar)
          (fun after => ArrayRecord.readAt after position = .ok record)
          (record.leftover blob position) answer after

/-- A write into any bytes at any position is done if and only if all that it writes lies inside. Then
it changes nothing else and reads back. A word or a pointer that is refused leaves the bytes as they
were, and a record that is refused may leave its count in them. -/
theorem writes_settle (blob : Bytes) (position : Nat) : WritesSettle blob position where
  patch word := by
    obtain ⟨answer, after, hWrite, hSettles⟩ := Bytes.writeAt_settles blob position word
      fun after => Bytes.readAt_of_bytes
    refine ⟨answer, after, ?_, hSettles⟩
    rw [Arena.patch, Action.result_bind_of_ok (Action.result_state blob), hWrite]
    cases hSettles <;> rfl
  writePointer {scalar stride target pointer} hPointer := by
    obtain ⟨answer, after, hWrite, hSettles⟩ := pointer.writeAt_settles blob position
    refine ⟨answer, after, ?_, hSettles⟩
    rw [Arena.writePointer, hPointer,
      Action.result_bind_of_ok (Action.result_liftM_ok_of_fault pointer blob),
      Action.result_bind_of_ok (Action.result_state blob), hWrite]
    cases hSettles <;> rfl
  writeArray {countWidth scalar stride target count record} hRecord := by
    obtain ⟨answer, after, hRun, hSettles⟩ := record.writeAt_settles blob position
    refine ⟨answer, after, ?_, hSettles⟩
    rw [Arena.writeArray, hRecord,
      Action.result_bind_of_ok (Action.result_liftM_ok_of_fault record blob), Action.result_bind,
      Action.result_mapStop, hRun]
    cases hSettles <;> rfl
  pointer pointer := pointer.writeAt_settles blob position
  record record := record.writeAt_settles blob position

/-- A record of three elements at position eight, which says so in four bytes, is stored into the last
four of five. -/
theorem writes_settle_at_end :
    ∃ record : ArrayRecord 2 (.signed 2) 1, ArrayRecord.between 1 8 3 = .ok record ∧
      ∃ after, (Arena.writeArray 2 (.signed 2) 1 1 8 3).result [9, 0, 0, 0, 0] =
          (.ok record, after) ∧
        after = [9, 3, 0, 5, 0] ∧ ArrayRecord.readAt after 1 = .ok record := by
  have hRecord : ArrayRecord.between 1 8 3 = .ok (⟨3, ⟨5⟩⟩ : ArrayRecord 2 (.signed 2) 1) := rfl
  obtain ⟨answer, after, hRun, hSettles⟩ :=
    (writes_settle [9, 0, 0, 0, 0] 1).writeArray hRecord
  cases hSettles with
  | stored hInside hLength hOutside hReads =>
      have hBytes := congrArg Prod.snd hRun
      exact ⟨_, hRecord, after, hRun, hBytes.symm, hReads⟩
  | refused hShort => exact absurd hShort (by decide)

/-- Of the same record only the count fits into three bytes. It is stored although the write is
refused, so that the blob is not what it was. -/
theorem refused_record_stores_count :
    ∃ record : ArrayRecord 2 (.signed 2) 1, ArrayRecord.between 0 8 3 = .ok record ∧
      (Arena.writeArray 2 (.signed 2) 1 0 8 3).result [0, 0, 0] =
        (.error (.error .outOfBounds), [3, 0, 0]) :=
  ⟨_, rfl, rfl⟩

end Bytestream

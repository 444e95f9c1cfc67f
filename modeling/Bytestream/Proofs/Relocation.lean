import Bytestream.Proofs.References

/-!
Moving a blob whole. Every reference counts from where it stands itself, so a blob says the same
inside of a longer byte string, and a pointer that was copied leads as far from its copy as it led
from the original.
-/

namespace Bytestream

namespace Bytes

variable {front bytes back piece : Bytes} {first size : Nat}

theorem slice?_middle : (front ++ bytes ++ back).slice? front.length bytes.length = some bytes := by
  refine slice?_eq_some_iff.mpr ⟨by simp only [List.length_append]; omega, ?_⟩
  rw [List.append_assoc, List.drop_left, List.take_left]

/-- A piece of a byte string is found in a longer one, as far in as the string itself. -/
theorem slice?_relocated (hSlice : bytes.slice? first size = some piece) :
    (front ++ bytes ++ back).slice? (first + front.length) size = some piece := by
  rw [Nat.add_comm]
  exact slice?_trans slice?_middle hSlice

theorem readAt_relocated {order : ByteOrder} {width offset next : Nat} {word : Word width}
    (hRead : bytes.readAt order width offset = .ok (word, next)) :
    (front ++ bytes ++ back).readAt order width (offset + front.length) =
      .ok (word, next + front.length) := by
  obtain ⟨form, hSlice, hWord, rfl⟩ := readAt_eq_ok_iff.mp hRead
  exact readAt_eq_ok_iff.mpr ⟨form, slice?_relocated hSlice, hWord, Nat.add_right_comm ..⟩

end Bytes

namespace Pointer

variable {scalar : Scalar} {stride : Nat} {pointer : Pointer scalar stride}
variable {front blob back : Bytes} {position size target : Nat}

/-- A pointer leads as far from one position as from another. -/
theorem reach_add (pointer : Pointer scalar stride) (position distance : Nat) :
    pointer.reach (position + distance) = pointer.reach position + distance := by
  rw [reach, reach, Int.natCast_add, Int.add_right_comm]

theorem readAt_relocated (hRead : readAt blob position = .ok pointer) :
    readAt (front ++ blob ++ back) (position + front.length) = .ok pointer := by
  obtain ⟨form, hSlice, hStored⟩ := readAt_eq_ok_iff.mp hRead
  exact readAt_eq_ok_iff.mpr ⟨form, Bytes.slice?_relocated hSlice, hStored⟩

/-- The bytes of a stored pointer are that pointer wherever they are copied to. -/
theorem readAt_overwrite {form destination : Bytes} {copy : Nat}
    (hRead : readAt blob position = .ok pointer)
    (hForm : blob.slice? position scalar.width = some form)
    (hCopy : copy + scalar.width ≤ destination.length) :
    readAt (destination.overwrite copy form) copy = .ok pointer := by
  obtain ⟨found, hFound, hStored⟩ := readAt_eq_ok_iff.mp hRead
  rw [hForm] at hFound
  cases hFound
  have hWidth := Bytes.length_of_slice? hForm
  refine readAt_eq_ok_iff.mpr ⟨form, ?_, hStored⟩
  rw [← hWidth] at hCopy ⊢
  exact Bytes.slice?_overwrite hCopy

theorem target?_relocated {distance : Nat} (hTarget : pointer.target? position = some target)
    (hLimit : target + distance < positionLimit) :
    pointer.target? (position + distance) = some (target + distance) := by
  obtain ⟨hPointer, hReach, -⟩ := target?_eq_some_iff.mp hTarget
  refine target?_eq_some_iff.mpr ⟨hPointer, ?_, hLimit⟩
  rw [reach_add, hReach, Int.natCast_add]

theorem load_relocated {referent : Bytes}
    (hLoad : pointer.load blob position size = .ok (some referent))
    (hLength : (front ++ blob ++ back).length < positionLimit) :
    pointer.load (front ++ blob ++ back) (position + front.length) size = .ok (some referent) := by
  obtain ⟨target, hTarget, hSlice⟩ := load_eq_ok_some_iff.mp hLoad
  have hInside := (Bytes.slice?_eq_some_iff.mp hSlice).1
  simp only [List.length_append] at hLength
  exact load_eq_ok_some_iff.mpr
    ⟨_, target?_relocated hTarget (by omega), Bytes.slice?_relocated hSlice⟩

end Pointer

namespace ArrayRecord

variable {countWidth : Nat} {scalar : Scalar} {stride : Nat}
variable {record : ArrayRecord countWidth scalar stride}
variable {front blob back : Bytes} {position size : Nat}

theorem readAt_relocated (hRead : readAt blob position = .ok record) :
    readAt (front ++ blob ++ back) (position + front.length) = .ok record := by
  obtain ⟨hCount, hElements⟩ := readAt_eq_ok_iff.mp hRead
  refine readAt_eq_ok_iff.mpr ⟨?_, ?_⟩
  · rw [Bytes.readAt_relocated hCount, Nat.add_right_comm]
  · rw [pointerPosition, Nat.add_right_comm]
    exact Pointer.readAt_relocated hElements

theorem run_relocated {run : ElementRun} (hRun : record.run blob position size = .ok run)
    (hLength : (front ++ blob ++ back).length < positionLimit) :
    record.run (front ++ blob ++ back) (position + front.length) size = .ok run := by
  -- Without elements the pointer is not followed, and the empty range does not move.
  by_cases hNone : record.length = 0
  · rw [run_of_length_zero hNone, ← hRun, run_of_length_zero hNone]
  · have hWhole := hLength
    simp only [List.length_append] at hLength
    obtain ⟨first, hTarget, hSlice, hElements⟩ := (run_eq_ok_iff hNone (by omega)).mp hRun
    have hInside := (Bytes.slice?_eq_some_iff.mp hSlice).1
    refine (run_eq_ok_iff hNone hWhole).mpr
      ⟨first + front.length, ?_, Bytes.slice?_relocated hSlice, hElements⟩
    rw [pointerPosition, Nat.add_right_comm]
    exact Pointer.target?_relocated hTarget (by omega)

end ArrayRecord

namespace Blob

variable {scalar : Scalar} {stride : Nat}

/-- What is found through a pointer that leads somewhere is what is read there. -/
theorem follow_of_target? {blob : Bytes} {position target size : Nat}
    {pointer : Pointer scalar stride} (hRead : Pointer.readAt blob position = .ok pointer)
    (hTarget : pointer.target? position = some target) :
    follow scalar stride blob position size = (read blob target size).map some := by
  rw [follow_of_readAt hRead]
  simp only [Pointer.load, hTarget, read]
  cases blob.slice? target size <;> rfl

/-- A blob inside of a longer byte string says what it says alone: a reference that leads into the
blob leads to the same bytes, a null pointer to none and a run to the same elements. A pointer that
was copied leads from its copy as far as it led from where it was. -/
theorem survives_relocation (countWidth : Nat) (scalar : Scalar) (stride : Nat)
    (front blob back : Bytes) (position size : Nat)
    (hLength : (front ++ blob ++ back).length < positionLimit) :
    (∀ referent, follow scalar stride blob position size = .ok (some referent) →
      follow scalar stride (front ++ blob ++ back) (position + front.length) size =
        .ok (some referent)) ∧
    (Pointer.readAt blob position = .ok (Pointer.null : Pointer scalar stride) →
      follow scalar stride blob position size = .ok none ∧
        follow scalar stride (front ++ blob ++ back) (position + front.length) size = .ok none) ∧
    (∀ run, array countWidth scalar stride blob position size = .ok run →
      array countWidth scalar stride (front ++ blob ++ back) (position + front.length) size =
        .ok run) ∧
    ∀ pointer : Pointer scalar stride, Pointer.readAt blob position = .ok pointer →
      pointer ≠ Pointer.null →
      (∀ target, pointer.target? position = some target → pointer.reach position = target) ∧
      ∃ form, blob.slice? position scalar.width = some form ∧
        ∀ (destination : Bytes) (copy target : Nat), copy + scalar.width ≤ destination.length →
          pointer.reach position + (copy - position) = target → target < positionLimit →
          Pointer.readAt (destination.overwrite copy form) copy = .ok pointer ∧
            pointer.target? copy = some target ∧
              follow scalar stride (destination.overwrite copy form) copy size =
                (read (destination.overwrite copy form) target size).map some := by
  refine ⟨fun referent hFollow => ?_, fun hNull => ?_, fun run hArray => ?_,
    fun pointer hRead hPointer => ?_⟩
  · obtain ⟨pointer, hRead, hLoad⟩ := exists_pointer_of_follow hFollow
    rw [follow_of_readAt (Pointer.readAt_relocated hRead), Pointer.load_relocated hLoad hLength]
  · exact ⟨follow_null hNull, follow_null (Pointer.readAt_relocated hNull)⟩
  · obtain ⟨record, hRead, hRun⟩ := exists_record_of_array hArray
    rw [array_of_readAt (ArrayRecord.readAt_relocated hRead),
      ArrayRecord.run_relocated hRun hLength]
  · obtain ⟨form, hForm, -⟩ := Pointer.readAt_eq_ok_iff.mp hRead
    refine ⟨fun target hTarget => (Pointer.target?_eq_some_iff.mp hTarget).2.1, form, hForm,
      fun destination copy target hCopy hReach hLimit => ?_⟩
    have hCopied := Pointer.readAt_overwrite hRead hForm hCopy
    have hTarget : pointer.target? copy = some target := by
      refine Pointer.target?_eq_some_iff.mpr ⟨hPointer, ?_, hLimit⟩
      rw [← hReach, Pointer.reach, Pointer.reach]
      omega
    exact ⟨hCopied, hTarget, follow_of_target? hCopied hTarget⟩

/-- A pointer to the first of three numbers finds it behind a byte of something else as well. Its
copy, one number further on, leads to the second. -/
theorem survives_relocation_by_one :
    let blob : Bytes := [4, 0, 0, 0, 10, 0, 20, 0, 30, 0]
    follow (.signed 2) 1 ([85] ++ blob ++ [85]) (0 + 1) 2 = .ok (some [10, 0]) ∧
      array 2 (.signed 2) 1 ([85] ++ blob ++ [85]) (0 + 1) 1 = .ok ⟨[0, 0, 10, 0], 1, 4⟩ ∧
        follow (.signed 2) 1 (blob.overwrite 2 [4, 0]) 2 2 = .ok (some [20, 0]) := by
  intro blob
  obtain ⟨hFollow, -, -, hCopy⟩ :=
    survives_relocation 2 (.signed 2) 1 [85] blob [85] 0 2 (by decide)
  have hRead : Pointer.readAt blob 0 = .ok (⟨4⟩ : Pointer (.signed 2) 1) := rfl
  have hTarget : (⟨4⟩ : Pointer (.signed 2) 1).target? 0 = some 4 := by decide
  have hRecord : ArrayRecord.readAt blob 0 = .ok (⟨4, ⟨0⟩⟩ : ArrayRecord 2 (.signed 2) 1) := rfl
  have hArray : array 2 (.signed 2) 1 blob 0 1 = .ok ⟨[0, 0, 10, 0], 1, 4⟩ := by
    rw [array_of_readAt hRecord]
    exact (ArrayRecord.run_eq_ok_iff (by decide) (by decide)).mpr ⟨2, by decide, rfl, rfl⟩
  obtain ⟨-, form, hForm, hCopied⟩ := hCopy ⟨4⟩ hRead (by decide)
  cases hForm
  exact ⟨hFollow [10, 0] (follow_of_target? hRead hTarget),
    (survives_relocation 2 (.signed 2) 1 [85] blob [85] 0 1 (by decide)).2.2.1 _ hArray,
    (hCopied blob 2 6 (by decide) (by decide) (by decide)).2.2⟩

end Blob

end Bytestream

import Bytestream.Blob.Arena
import Bytestream.Proofs.References
import Bytestream.Proofs.Result

/-!
The steps in which a blob is built. Some of them append, behind zeros that align what they append,
and leave alone what is there. The others overwrite what is there and append nothing.
-/

namespace Bytestream

namespace Bytes

theorem getElem?_overwrite_outside {bytes piece : Bytes} {first index : Nat}
    (hFits : first + piece.length ≤ bytes.length)
    (hOutside : ¬(first ≤ index ∧ index < first + piece.length)) :
    (bytes.overwrite first piece)[index]? = bytes[index]? := by
  have hFirst : (bytes.take first).length = first := List.length_take_of_le (by omega)
  rw [overwrite, List.append_assoc]
  by_cases hBefore : index < first
  · rw [List.getElem?_append_left (by omega), List.getElem?_take_of_lt hBefore]
  · rw [List.getElem?_append_right (by omega), List.getElem?_append_right (by omega),
      List.getElem?_drop]
    congr 1
    omega

/-- The second byte string is the first, apart from the bytes at certain places and from what was
appended. -/
structure Keeps (changed : Nat → Prop) (bytes after : Bytes) : Prop where
  length_le : bytes.length ≤ after.length
  same : ∀ index < bytes.length, ¬changed index → after[index]? = bytes[index]?

namespace Keeps

variable {changed other : Nat → Prop} {bytes middle after piece : Bytes} {first size : Nat}

theorem refl : Keeps changed bytes bytes := ⟨Nat.le_refl _, fun _ _ _ => rfl⟩

theorem append (appended : Bytes) : Keeps changed bytes (bytes ++ appended) where
  length_le := by rw [List.length_append]; omega
  same _ hIndex _ := List.getElem?_append_left hIndex

theorem overwrite (hFits : first + piece.length ≤ bytes.length)
    (hChanged : ∀ index, first ≤ index → index < first + piece.length → changed index) :
    Keeps changed bytes (bytes.overwrite first piece) where
  length_le := Nat.le_of_eq (length_overwrite hFits).symm
  same _ _ hSame := getElem?_overwrite_outside hFits fun hInside =>
    hSame (hChanged _ hInside.1 hInside.2)

theorem trans (hFirst : Keeps changed bytes middle) (hSecond : Keeps other middle after) :
    Keeps (fun index => changed index ∨ other index) bytes after where
  length_le := Nat.le_trans hFirst.length_le hSecond.length_le
  same index hIndex hSame := by
    rw [hSecond.same index (Nat.lt_of_lt_of_le hIndex hFirst.length_le) (hSame ∘ .inr),
      hFirst.same index hIndex (hSame ∘ .inl)]

theorem mono (hKeeps : Keeps changed bytes after)
    (hMore : ∀ index, changed index → other index) : Keeps other bytes after where
  length_le := hKeeps.length_le
  same index hIndex hSame := hKeeps.same index hIndex (hSame ∘ hMore index)

/-- A piece that was left alone is still there. -/
theorem slice? (hKeeps : Keeps changed bytes after) (hSlice : bytes.slice? first size = some piece)
    (hSame : ∀ index, first ≤ index → index < first + size → ¬changed index) :
    after.slice? first size = some piece := by
  have hInside := (slice?_eq_some_iff.mp hSlice).1
  exact slice?_of_same hSlice (Nat.le_trans hInside hKeeps.length_le) fun index hFirst hLast =>
    hKeeps.same index (by omega) (hSame index hFirst hLast)

end Keeps

/-- Pieces written over a byte string one after the other, each at its position, until one is
refused. Whether all were written comes before the bytes that are left. -/
inductive Overwritten : Bytes → List (Nat × Bytes) → Bool → Bytes → Prop
  | all (bytes : Bytes) : Overwritten bytes [] true bytes
  | refused (bytes : Bytes) (pieces : List (Nat × Bytes)) : Overwritten bytes pieces false bytes
  | written {bytes after piece : Bytes} {first : Nat} {pieces : List (Nat × Bytes)}
      {complete : Bool} (hFits : first + piece.length ≤ bytes.length)
      (hLater : Overwritten (bytes.overwrite first piece) pieces complete after) :
      Overwritten bytes ((first, piece) :: pieces) complete after

namespace Overwritten

variable {bytes after : Bytes} {pieces : List (Nat × Bytes)} {complete : Bool}

theorem keeps (hWritten : Overwritten bytes pieces complete after) :
    Keeps (fun index => ∃ write ∈ pieces, write.1 + write.2.length ≤ bytes.length ∧
      write.1 ≤ index ∧ index < write.1 + write.2.length) bytes after := by
  induction hWritten with
  | all | refused => exact .refl
  | @written bytes after piece first pieces complete hFits hLater ih =>
      rw [length_overwrite hFits] at ih
      have hFirst : Keeps (fun index => first ≤ index ∧ index < first + piece.length) bytes
          (bytes.overwrite first piece) :=
        .overwrite hFits fun index hLeast hGreatest => ⟨hLeast, hGreatest⟩
      refine (hFirst.trans ih).mono fun index hChanged => ?_
      rcases hChanged with hInside | ⟨write, hWrite, hInside⟩
      · exact ⟨(first, piece), List.mem_cons_self .., hFits, hInside⟩
      · exact ⟨write, List.mem_cons_of_mem _ hWrite, hInside⟩

/-- Pieces that lie one behind the other are all there in the end. -/
theorem slice? (hWritten : Overwritten bytes pieces true after)
    (hOrder : pieces.Pairwise fun first second => first.1 + first.2.length ≤ second.1) :
    ∀ write ∈ pieces, after.slice? write.1 write.2.length = some write.2 := by
  generalize hComplete : true = complete at hWritten
  induction hWritten with
  | all => nofun
  | refused => cases hComplete
  | written hFits hLater ih =>
      obtain ⟨hBehind, hOrder⟩ := List.pairwise_cons.mp hOrder
      intro write hWrite
      -- The first piece is kept since the later ones are written behind it.
      rcases List.mem_cons.mp hWrite with rfl | hWrite
      · refine hLater.keeps.slice? (slice?_overwrite hFits) fun index _ hLast hChanged => ?_
        obtain ⟨later, hMember, -, hFirst, -⟩ := hChanged
        have hOrdered := hBehind later hMember
        omega
      · exact ih hOrder hComplete write hWrite

end Overwritten

end Bytes

/-- Storing a record stores its count first. Where only the count fits it stays stored. -/
theorem ArrayRecord.overwritten_writeAt {countWidth : Nat} {scalar : Scalar} {stride : Nat}
    (record : ArrayRecord countWidth scalar stride) (position : Nat) (blob : Bytes) :
    Bytes.Overwritten blob [(position, Word.bytes .little record.count),
        (pointerPosition countWidth position, Word.bytes .little record.elements.stored)]
      ((record.writeAt position).result blob).1.isOk ((record.writeAt position).result blob).2 := by
  rw [writeAt, Action.result_bind_of_ok (Action.result_state blob), Bytes.writeAt]
  by_cases hCount : position + countWidth ≤ blob.length
  · rw [if_pos hCount, Action.result_bind_of_ok (Action.result_liftM_ok _ blob),
      Action.result_bind_of_ok rfl, Pointer.writeAt, Bytes.writeAt]
    refine .written (by rwa [Word.length_bytes]) ?_
    by_cases hElements : position + countWidth + scalar.width ≤
        (blob.overwrite position (Word.bytes .little record.count)).length
    · rw [if_pos hElements]
      exact .written (by rwa [Word.length_bytes]) (.all _)
    · rw [if_neg hElements]
      exact .refused _ _
  · rw [if_neg hCount]
    exact .refused _ _

namespace Arena

variable {blob content after : Bytes} {answer : Except Error Nat}

/-- What an appending step ends with: zeros and behind them the content, at the position that the
step yields, or a fault. -/
inductive Appended (blob content : Bytes) : Except Stop Nat × Bytes → Prop
  | content {position : Nat} {after : Bytes} (zeros : Bytes)
      (hPosition : position = blob.length + zeros.length)
      (hAfter : after = blob ++ zeros ++ content) : Appended blob content (.ok position, after)
  | fault (fault : Fault) (after : Bytes) : Appended blob content (.error (.fault fault), after)

/-- Zeros alone may have content appended behind them. -/
theorem Appended.bind {action : Arena Nat} {next : Nat → Arena Nat}
    (hFirst : Appended blob [] (action.result blob))
    (hNext : ∀ position zeros, position = blob.length + zeros.length →
      Appended blob content ((next position).result (blob ++ zeros))) :
    Appended blob content ((action >>= next).result blob) := by
  rw [Action.result_bind]
  generalize action.result blob = reached at hFirst ⊢
  cases hFirst with
  | fault fault after => exact .fault fault after
  | content zeros hPosition hAfter =>
      rw [hAfter, List.append_nil]
      exact hNext _ zeros hPosition

theorem result_appendZeros (count : Nat) (blob : Bytes) :
    (appendZeros count).result blob =
      if blob.length + count < offsetLimit then (.ok (), blob ++ List.replicate count 0)
      else (.error (.fault .blobTooLong), blob) := by
  rw [appendZeros, Action.result_bind_of_ok (Action.result_state blob)]
  split <;> rfl

theorem appended_pad (alignment : Nat) (blob : Bytes) :
    Appended blob [] ((pad alignment).result blob) := by
  rw [pad, Action.result_bind_of_ok (Action.result_state blob)]
  dsimp only
  generalize BitVec.toNat _ = missing
  rw [Action.result_bind, result_appendZeros]
  by_cases hFits : blob.length + missing < offsetLimit
  · rw [if_pos hFits]
    refine .content (List.replicate missing 0) (by rw [List.length_replicate]) ?_
    rw [List.append_nil]
    rfl
  · rw [if_neg hFits]
    exact .fault _ _

theorem appended_align (alignment : Nat) (blob : Bytes) :
    Appended blob [] ((align alignment).result blob) := by
  rw [align]
  split
  · exact appended_pad alignment blob
  · exact .fault _ _

theorem appended_alloc (size alignment : Nat) (blob : Bytes) :
    Appended blob (List.replicate size 0) ((alloc size alignment).result blob) := by
  refine (appended_align alignment blob).bind fun position zeros hPosition => ?_
  rw [Action.result_bind, result_appendZeros]
  by_cases hFits : (blob ++ zeros).length + size < offsetLimit
  · rw [if_pos hFits]
    exact .content zeros hPosition rfl
  · rw [if_neg hFits]
    exact .fault _ _

theorem appended_pushAll (element : Element) (values : List Bytes) (blob : Bytes) :
    Appended blob values.flatten ((pushAll element values).result blob) :=
  (appended_pad element.alignment blob).bind fun _ zeros hPosition => .content zeros hPosition rfl

theorem overwritten_patch {width : Nat} (position : Nat) (word : Word width) (blob : Bytes) :
    Bytes.Overwritten blob [(position, Word.bytes .little word)]
      ((patch position word).result blob).1.isOk ((patch position word).result blob).2 := by
  rw [patch, Action.result_bind_of_ok (Action.result_state blob), Bytes.writeAt]
  by_cases hFits : position + width ≤ blob.length
  · rw [if_pos hFits]
    exact .written (by rwa [Word.length_bytes]) (.all _)
  · rw [if_neg hFits]
    exact .refused _ _

section Records

variable {countWidth : Nat} {scalar : Scalar} {stride position : Nat}

theorem overwritten_writePointer {target : Option Nat} {pointer : Pointer scalar stride}
    (hPointer : Pointer.toTarget position target = .ok pointer) (blob : Bytes) :
    Bytes.Overwritten blob [(position, Word.bytes .little pointer.stored)]
      ((writePointer scalar stride position target).result blob).1.isOk
      ((writePointer scalar stride position target).result blob).2 := by
  rw [writePointer, hPointer, Action.result_bind_of_ok (Action.result_liftM_ok_of_fault pointer blob),
    Action.result_bind_of_ok (Action.result_state blob), Pointer.writeAt, Bytes.writeAt]
  by_cases hFits : position + scalar.width ≤ blob.length
  · rw [if_pos hFits]
    exact .written (by rwa [Word.length_bytes]) (.all _)
  · rw [if_neg hFits]
    exact .refused _ _

theorem overwritten_writeArray {target count : Nat} {record : ArrayRecord countWidth scalar stride}
    (hRecord : ArrayRecord.between position target count = .ok record) (blob : Bytes) :
    Bytes.Overwritten blob [(position, Word.bytes .little record.count),
        (ArrayRecord.pointerPosition countWidth position,
          Word.bytes .little record.elements.stored)]
      ((writeArray countWidth scalar stride position target count).result blob).1.isOk
      ((writeArray countWidth scalar stride position target count).result blob).2 := by
  have hWritten := record.overwritten_writeAt position blob
  rw [writeArray, hRecord, Action.result_bind_of_ok (Action.result_liftM_ok_of_fault record blob),
    Action.result_bind, Action.result_mapStop]
  generalize (record.writeAt position).result blob = reached at hWritten ⊢
  obtain ⟨value, after⟩ := reached
  cases value <;> exact hWritten

/-- A pointer that cannot be made is a fault, and so is a record. -/
theorem result_writePointer_of_fault {target : Option Nat} {fault : Fault}
    (hPointer : (Pointer.toTarget position target : Except Fault (Pointer scalar stride)) =
      .error fault) (blob : Bytes) :
    ((writePointer scalar stride position target).result blob).1 = .error (.fault fault) := by
  rw [writePointer, hPointer, Action.result_bind, Action.result_liftM_error_of_fault]

theorem result_writeArray_of_fault {target count : Nat} {fault : Fault}
    (hRecord : (ArrayRecord.between position target count :
      Except Fault (ArrayRecord countWidth scalar stride)) = .error fault) (blob : Bytes) :
    ((writeArray countWidth scalar stride position target count).result blob).1 =
      .error (.fault fault) := by
  rw [writeArray, hRecord, Action.result_bind, Action.result_liftM_error_of_fault]

end Records

/-- A step that appends and does not fault appended everything. -/
theorem Appended.parts (hAppended : Appended blob content (answer.mapError .error, after)) :
    ∃ zeros : Bytes, answer = .ok (blob.length + zeros.length) ∧ after = blob ++ zeros ++ content := by
  cases answer with
  | error error => cases hAppended
  | ok position =>
      cases hAppended with
      | content zeros hPosition hAfter => exact ⟨zeros, congrArg _ hPosition, hAfter⟩

end Arena

end Bytestream

import Bytestream.Blob.View

/-!
What a stored reference says. A pointer that was made for a target leads to it from where it is
stored, and a record reads back as long as its own bytes are left alone.
-/

namespace Bytestream

namespace Bytes

variable {bytes other piece : Bytes} {first size : Nat}

theorem slice?_eq_some_iff :
    bytes.slice? first size = some piece ↔
      first + size ≤ bytes.length ∧ (bytes.drop first).take size = piece := by
  simp only [slice?, Option.ite_none_right_eq_some, Option.some.injEq]

/-- What lies at a place is found there in every string that has the same bytes at it. -/
theorem slice?_of_same (hSlice : bytes.slice? first size = some piece)
    (hLength : first + size ≤ other.length)
    (hSame : ∀ index, first ≤ index → index < first + size → other[index]? = bytes[index]?) :
    other.slice? first size = some piece := by
  obtain ⟨-, rfl⟩ := slice?_eq_some_iff.mp hSlice
  refine slice?_eq_some_iff.mpr ⟨hLength, List.ext_getElem? fun index => ?_⟩
  rw [List.getElem?_take, List.getElem?_take, List.getElem?_drop, List.getElem?_drop]
  by_cases hInside : index < size
  · rw [if_pos hInside, if_pos hInside, hSame _ (Nat.le_add_right _ _) (by omega)]
  · rw [if_neg hInside, if_neg hInside]

/-- A piece of a piece lies in the whole. -/
theorem slice?_trans {inner : Bytes} {start count : Nat}
    (hOuter : bytes.slice? first size = some piece) (hInner : piece.slice? start count = some inner) :
    bytes.slice? (first + start) count = some inner := by
  obtain ⟨hOutside, rfl⟩ := slice?_eq_some_iff.mp hOuter
  obtain ⟨hInside, rfl⟩ := slice?_eq_some_iff.mp hInner
  rw [List.length_take, List.length_drop] at hInside
  refine slice?_eq_some_iff.mpr ⟨by omega, ?_⟩
  rw [List.drop_take, List.take_take, List.drop_drop, Nat.min_eq_left (by omega)]

variable {order : ByteOrder} {width offset next : Nat}

/-- A word is read from the bytes at its offset. -/
theorem readAt_eq_ok_iff {word : Word width} :
    bytes.readAt order width offset = .ok (word, next) ↔
      ∃ form, bytes.slice? offset width = some form ∧ word = Word.ofBytes order width form ∧
        next = offset + width := by
  rw [readAt]
  constructor
  · intro hRead
    cases hSlice : bytes.slice? offset width with
    | none =>
        rw [hSlice] at hRead
        cases hRead
    | some form =>
        rw [hSlice] at hRead
        cases hRead
        exact ⟨form, rfl, rfl, rfl⟩
  · rintro ⟨form, hSlice, rfl, rfl⟩
    rw [hSlice]

/-- A stored word is read from where its bytes are. -/
theorem readAt_of_bytes {word : Word width}
    (hSlice : bytes.slice? offset width = some (Word.bytes order word)) :
    bytes.readAt order width offset = .ok (word, offset + width) := by
  exact readAt_eq_ok_iff.mpr ⟨_, hSlice, (Word.ofBytes_bytes order word).symm, rfl⟩

end Bytes

namespace Scalar

/-- An integer that the scalar can hold is what its word reads as. -/
theorem toInt_ofInt {scalar : Scalar} {value : Int} (hLeast : scalar.minimum ≤ value)
    (hGreatest : value ≤ scalar.maximum) : scalar.toInt (scalar.ofInt value) = value := by
  obtain ⟨width, form⟩ := scalar
  have hUnsigned (hPositive : 0 ≤ value) (hFits : value ≤ (BitVec.allOnes (8 * width)).toNat) :
      ((BitVec.ofInt (8 * width) value).toNat : Int) = value := by
    have hPower := Nat.two_pow_pos (8 * width)
    rw [BitVec.toNat_allOnes] at hFits
    rw [BitVec.toNat_ofInt, Int.emod_eq_of_lt hPositive (by omega), Int.toNat_of_nonneg hPositive]
  cases form with
  | signed =>
      simp only [minimum, maximum, BitVec.toInt_intMin, BitVec.toInt_intMax] at hLeast hGreatest
      simp only [toInt, ofInt]
      -- Without bytes there is no sign bit, and zero is the only value.
      rcases Nat.eq_zero_or_pos (8 * width) with hNone | hSome
      · rw [hNone] at hLeast hGreatest
        have hZero : value = 0 := by
          simp only [Nat.zero_sub, Nat.pow_zero, Nat.mod_self] at hLeast hGreatest
          omega
        rw [hZero, BitVec.toInt_ofInt, Int.zero_bmod]
      · have hHalf : 2 ^ (8 * width - 1) % 2 ^ (8 * width) = 2 ^ (8 * width - 1) :=
          Nat.mod_eq_of_lt (Nat.pow_lt_pow_right (by decide) (by omega))
        rw [hHalf] at hLeast
        push_cast at hLeast
        exact BitVec.toInt_ofInt_eq_self hSome hLeast (by omega)
  | unsigned => exact hUnsigned hLeast hGreatest
  | floating => exact hUnsigned hLeast hGreatest

theorem minimum_le_maximum (scalar : Scalar) : scalar.minimum ≤ scalar.maximum := by
  obtain ⟨width, form⟩ := scalar
  cases form with
  | signed =>
      simp only [minimum, maximum, BitVec.toInt_intMin, BitVec.toInt_intMax]
      have hPower := Nat.two_pow_pos (8 * width - 1)
      have hCast : ((2 ^ (8 * width - 1) : Nat) : Int) = 2 ^ (8 * width - 1) := by push_cast; rfl
      omega
  | unsigned => exact Int.natCast_nonneg _
  | floating => exact Int.natCast_nonneg _

/-- The offset that means null is one that the scalar can hold, and none that can be stored. -/
theorem nullOffset_apart {scalar : Scalar} {strides : Int} (hLeast : scalar.leastOffset ≤ strides)
    (hGreatest : strides ≤ scalar.greatestOffset) :
    scalar.minimum ≤ strides ∧ strides ≤ scalar.maximum ∧ strides ≠ scalar.nullOffset := by
  obtain ⟨width, form⟩ := scalar
  cases form <;> simp only [leastOffset, greatestOffset, nullOffset] at * <;> omega

theorem toInt_nullOffset (scalar : Scalar) :
    scalar.toInt (scalar.ofInt scalar.nullOffset) = scalar.nullOffset := by
  have hOrder := scalar.minimum_le_maximum
  apply toInt_ofInt <;> simp only [nullOffset] <;> split <;> omega

/-- A count that was narrowed is not changed by it. -/
theorem toNat_of_narrow? {width count : Nat} {stored : Word width}
    (hNarrow : (Scalar.unsigned width).narrow? count = some stored) : stored.toNat = count := by
  rw [narrow?] at hNarrow
  split at hNarrow
  · rename_i hRange
    cases hNarrow
    have hSame := toInt_ofInt hRange.1 hRange.2
    simp only [toInt, unsigned] at hSame
    exact Int.ofNat_inj.mp hSame
  · cases hNarrow

end Scalar

namespace Pointer

variable {scalar : Scalar} {stride : Nat} {pointer : Pointer scalar stride}
variable {position target : Nat} {blob : Bytes}

/-- Where a pointer leads from a position, whether or not there is a position there. -/
def reach (pointer : Pointer scalar stride) (position : Nat) : Int :=
  position + pointer.offset * stride

theorem isNull_eq_true_iff : pointer.isNull = true ↔ pointer = null := by
  rw [isNull, decide_eq_true_eq]

theorem target?_null : (null : Pointer scalar stride).target? position = none := by
  rw [target?, if_pos (isNull_eq_true_iff.mpr rfl)]

/-- A pointer leads to where its offset comes to, if that is a position. -/
theorem target?_eq_some_iff :
    pointer.target? position = some target ↔
      pointer ≠ null ∧ pointer.reach position = target ∧ target < positionLimit := by
  by_cases hNull : pointer = null
  · rw [hNull, target?_null]
    exact iff_of_false nofun fun hSome => hSome.1 rfl
  · rw [target?, if_neg (mt isNull_eq_true_iff.mp hNull), toPosition?_eq_some_iff]
    exact ⟨fun hReach => ⟨hNull, hReach⟩, fun hReach => hReach.2⟩

/-- A pointer made for a target is not null and leads there. -/
theorem reach_of_between (hBetween : between position target = .ok pointer) :
    pointer ≠ null ∧ pointer.reach position = target := by
  simp only [between] at hBetween
  split at hBetween
  · rename_i hWhole
    split at hBetween
    · rename_i hRange
      cases hBetween
      obtain ⟨hLeast, hGreatest, hApart⟩ := Scalar.nullOffset_apart hRange.1 hRange.2
      have hOffset := Scalar.toInt_ofInt hLeast hGreatest
      constructor
      · intro hNull
        have hStored := congrArg (fun pointer => scalar.toInt pointer.stored) hNull
        dsimp only [null] at hStored
        rw [hOffset, Scalar.toInt_nullOffset] at hStored
        exact hApart hStored
      · rw [reach, offset, hOffset, Int.ediv_mul_cancel_of_emod_eq_zero hWhole]
        omega
    · cases hBetween
  · cases hBetween

/-- A pointer is read from the bytes at its position. -/
theorem readAt_eq_ok_iff :
    readAt blob position = .ok pointer ↔
      ∃ form, blob.slice? position scalar.width = some form ∧
        pointer.stored = Word.ofBytes .little scalar.width form := by
  rw [readAt]
  constructor
  · intro hRead
    cases hWord : blob.readAt .little scalar.width position with
    | error error =>
        rw [hWord] at hRead
        cases hRead
    | ok found =>
        rw [hWord] at hRead
        cases hRead
        obtain ⟨form, hSlice, hStored, -⟩ := Bytes.readAt_eq_ok_iff.mp hWord
        exact ⟨form, hSlice, hStored⟩
  · rintro ⟨form, hSlice, hStored⟩
    rw [Bytes.readAt_eq_ok_iff.mpr ⟨form, hSlice, hStored, rfl⟩]
    rfl

theorem readAt_of_bytes
    (hSlice : blob.slice? position scalar.width = some (Word.bytes .little pointer.stored)) :
    readAt blob position = .ok pointer :=
  readAt_eq_ok_iff.mpr ⟨_, hSlice, (Word.ofBytes_bytes .little pointer.stored).symm⟩

/-- The referent of a pointer is what lies in the blob where the pointer leads. -/
theorem load_eq_ok_some_iff {size : Nat} {referent : Bytes} :
    pointer.load blob position size = .ok (some referent) ↔
      ∃ target, pointer.target? position = some target ∧
        blob.slice? target size = some referent := by
  rw [load]
  cases pointer.target? position with
  | none => exact ⟨nofun, nofun⟩
  | some target =>
      simp only [Option.some.injEq, exists_eq_left']
      cases blob.slice? target size with
      | none => exact ⟨nofun, nofun⟩
      | some found => simp only [Except.ok.injEq, Option.some.injEq]

end Pointer

namespace ArrayRecord

variable {countWidth : Nat} {scalar : Scalar} {stride : Nat}
variable {record : ArrayRecord countWidth scalar stride} {blob : Bytes} {position size : Nat}

theorem readAt_of_count {count : Word countWidth} {next : Nat}
    (hCount : blob.readAt .little countWidth position = .ok (count, next)) :
    readAt blob position = (Pointer.readAt blob next).map
      fun elements : Pointer scalar stride => ⟨count, elements⟩ := by
  rw [readAt, hCount]
  change (Pointer.readAt blob next >>= fun elements => pure (ArrayRecord.mk count elements)) = _
  cases (Pointer.readAt blob next : Except Error (Pointer scalar stride)) <;> rfl

/-- A record is stored where its count is, with its pointer right behind the count. -/
theorem readAt_eq_ok_iff :
    readAt blob position = .ok record ↔
      blob.readAt .little countWidth position = .ok (record.count, position + countWidth) ∧
        Pointer.readAt blob (pointerPosition countWidth position) = .ok record.elements := by
  constructor
  · intro hRead
    cases hCount : blob.readAt .little countWidth position with
    | error error =>
        rw [readAt, hCount] at hRead
        cases hRead
    | ok found =>
        obtain ⟨count, next⟩ := found
        obtain ⟨form, -, -, rfl⟩ := Bytes.readAt_eq_ok_iff.mp hCount
        rw [readAt_of_count hCount] at hRead
        rw [pointerPosition]
        generalize Pointer.readAt blob (position + countWidth) = elements at hRead ⊢
        cases elements <;> cases hRead
        exact ⟨rfl, rfl⟩
  · rintro ⟨hCount, hElements⟩
    rw [pointerPosition] at hElements
    rw [readAt_of_count hCount, hElements]
    rfl

/-- A record made for a count and a target says that count and leads to that target. -/
theorem parts_of_between {target count : Nat} (hBetween : between position target count = .ok record) :
    record.length = count ∧
      Pointer.between (pointerPosition countWidth position) target = .ok record.elements := by
  rw [between] at hBetween
  split at hBetween
  · cases hBetween
  · rename_i stored hNarrow
    cases hElements : (Pointer.between (pointerPosition countWidth position) target :
        Except Fault (Pointer scalar stride)) with
    | error fault =>
        rw [hElements] at hBetween
        cases hBetween
    | ok elements =>
        rw [hElements] at hBetween
        cases hBetween
        exact ⟨Scalar.toNat_of_narrow? hNarrow, rfl⟩

/-- A record without elements stands for none of them, wherever its pointer leads. -/
theorem run_of_length_zero (hNone : record.length = 0) :
    record.run blob position size = .ok ⟨[], size, 0⟩ := by
  have hSlice : blob.slice? 0 (0 - 0) = some [] :=
    Bytes.slice?_eq_some_iff.mpr ⟨Nat.zero_le _, List.take_zero⟩
  simp only [run, range?, hNone, if_pos, hSlice]

/-- The elements of a record reach from where its pointer leads as far as its count says. -/
theorem range?_eq_some_iff {first last : Nat} (hSome : record.length ≠ 0) :
    record.range? position size = some (first, last) ↔
      record.elements.target? (pointerPosition countWidth position) = some first ∧
        last = first + record.length * size ∧ last < positionLimit := by
  have hSum : toPosition? (first + record.length * size) = some last ↔
      last = first + record.length * size ∧ last < positionLimit := by
    rw [toPosition?_eq_some_iff, eq_comm, ← Int.natCast_mul, ← Int.natCast_add, Int.ofNat_inj]
  rw [range?, if_neg hSome, Option.bind_eq_bind, Option.bind_eq_some_iff]
  constructor
  · rintro ⟨found, hTarget, hRest⟩
    obtain ⟨stop, hLast, hPair⟩ := Option.bind_eq_some_iff.mp hRest
    cases hPair
    exact ⟨hTarget, hSum.mp hLast⟩
  · rintro ⟨hTarget, hLast⟩
    exact ⟨first, hTarget, Option.bind_eq_some_iff.mpr ⟨last, hSum.mpr hLast, rfl⟩⟩

/-- The elements of a record are the bytes where its pointer leads, if they end at a position. -/
theorem run_eq_ok_iff_of_position {run : ElementRun} (hSome : record.length ≠ 0) :
    record.run blob position size = .ok run ↔
      ∃ first, record.elements.target? (pointerPosition countWidth position) = some first ∧
        first + record.length * size < positionLimit ∧
          blob.slice? first (record.length * size) = some run.bytes ∧
            run = ⟨run.bytes, size, record.length⟩ := by
  constructor
  · intro hRun
    rw [ArrayRecord.run] at hRun
    cases hRange : record.range? position size with
    | none =>
        rw [hRange] at hRun
        cases hRun
    | some range =>
        obtain ⟨hTarget, hLast, hPosition⟩ := (range?_eq_some_iff hSome).mp hRange
        simp only [hRange, hLast, Nat.add_sub_cancel_left] at hRun
        split at hRun
        · rename_i hSlice
          cases hRun
          exact ⟨range.1, hTarget, hLast ▸ hPosition, hSlice, rfl⟩
        · cases hRun
  · rintro ⟨first, hTarget, hPosition, hSlice, hRun⟩
    have hRange : record.range? position size = some (first, first + record.length * size) :=
      (range?_eq_some_iff hSome).mpr ⟨hTarget, rfl, hPosition⟩
    rw [hRun]
    simp only [ArrayRecord.run, hRange, Nat.add_sub_cancel_left, hSlice]

/-- In a blob whose bytes all lie at positions, the elements of a record are the bytes where its pointer
leads. -/
theorem run_eq_ok_iff {run : ElementRun} (hSome : record.length ≠ 0)
    (hLength : blob.length < positionLimit) :
    record.run blob position size = .ok run ↔
      ∃ first, record.elements.target? (pointerPosition countWidth position) = some first ∧
        blob.slice? first (record.length * size) = some run.bytes ∧
          run = ⟨run.bytes, size, record.length⟩ := by
  rw [run_eq_ok_iff_of_position hSome]
  constructor
  · rintro ⟨first, hTarget, -, hRest⟩
    exact ⟨first, hTarget, hRest⟩
  · rintro ⟨first, hTarget, hSlice, hRun⟩
    have hInside := (Bytes.slice?_eq_some_iff.mp hSlice).1
    exact ⟨first, hTarget, Nat.lt_of_le_of_lt hInside hLength, hSlice, hRun⟩

end ArrayRecord

namespace Blob

variable {countWidth : Nat} {scalar : Scalar} {stride : Nat} {blob : Bytes} {position size : Nat}

theorem follow_of_readAt {pointer : Pointer scalar stride}
    (hRead : Pointer.readAt blob position = .ok pointer) :
    follow scalar stride blob position size = pointer.load blob position size := by
  rw [follow, hRead]
  rfl

theorem array_of_readAt {record : ArrayRecord countWidth scalar stride}
    (hRead : ArrayRecord.readAt blob position = .ok record) :
    array countWidth scalar stride blob position size = record.run blob position size := by
  rw [array, hRead]
  rfl

/-- Following a null pointer finds that there is nothing. -/
theorem follow_null
    (hRead : Pointer.readAt blob position = .ok (Pointer.null : Pointer scalar stride)) :
    follow scalar stride blob position size = .ok none := by
  rw [follow_of_readAt hRead, Pointer.load, Pointer.target?_null]

theorem exists_pointer_of_follow {referent : Option Bytes}
    (hFollow : follow scalar stride blob position size = .ok referent) :
    ∃ pointer : Pointer scalar stride, Pointer.readAt blob position = .ok pointer ∧
      pointer.load blob position size = .ok referent := by
  cases hRead : (Pointer.readAt blob position : Except Error (Pointer scalar stride)) with
  | error error =>
      rw [follow, hRead] at hFollow
      cases hFollow
  | ok pointer => exact ⟨pointer, rfl, follow_of_readAt hRead ▸ hFollow⟩

theorem exists_record_of_array {run : ElementRun}
    (hArray : array countWidth scalar stride blob position size = .ok run) :
    ∃ record : ArrayRecord countWidth scalar stride, ArrayRecord.readAt blob position = .ok record ∧
      record.run blob position size = .ok run := by
  cases hRead : (ArrayRecord.readAt blob position :
      Except Error (ArrayRecord countWidth scalar stride)) with
  | error error =>
      rw [array, hRead] at hArray
      cases hArray
  | ok record => exact ⟨record, rfl, array_of_readAt hRead ▸ hArray⟩

end Blob

end Bytestream

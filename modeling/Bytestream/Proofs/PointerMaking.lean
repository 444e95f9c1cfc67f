import Bytestream.Proofs.References

/-!
Making pointers. There are two ways to make one, and they refuse the same targets: those that are no
whole number of strides away, and those whose distance no offset can say without meaning null. A pointer
leads to a target exactly when it is the one that is made for it.
-/

namespace Bytestream

namespace Scalar

variable {scalar : Scalar} {value : Int} {word : Word scalar.width}

theorem ofInt_toInt (word : Word scalar.width) : scalar.ofInt (scalar.toInt word) = word := by
  obtain ⟨width, form⟩ := scalar
  have hUnsigned : BitVec.ofInt (8 * width) (BitVec.toNat word) = word := by
    rw [BitVec.ofInt_natCast, BitVec.ofNat_toNat, BitVec.setWidth_eq]
  cases form with
  | signed => exact BitVec.ofInt_toInt
  | unsigned => exact hUnsigned
  | floating => exact hUnsigned

/-- A word reads as an integer that its scalar can hold. -/
theorem toInt_held (word : Word scalar.width) :
    scalar.minimum ≤ scalar.toInt word ∧ scalar.toInt word ≤ scalar.maximum := by
  obtain ⟨width, form⟩ := scalar
  have hUnsigned : (0 : Int) ≤ BitVec.toNat word ∧
      (BitVec.toNat word : Int) ≤ (BitVec.allOnes (8 * width)).toNat := by
    have hLess : BitVec.toNat word < 2 ^ (8 * width) := BitVec.isLt word
    rw [BitVec.toNat_allOnes]
    omega
  cases form with
  | signed =>
      have hLess : BitVec.toInt word < 2 ^ (8 * width - 1) := BitVec.toInt_lt
      refine ⟨BitVec.toInt_intMin_le word, ?_⟩
      rw [maximum, BitVec.toInt_intMax]
      exact Int.le_sub_one_of_lt hLess
  | unsigned => exact hUnsigned
  | floating => exact hUnsigned

theorem narrow?_eq_some_iff : scalar.narrow? value = some word ↔ scalar.toInt word = value := by
  rw [narrow?, Option.ite_none_right_eq_some, Option.some.injEq]
  constructor
  · rintro ⟨hHeld, rfl⟩
    exact toInt_ofInt hHeld.1 hHeld.2
  · rintro rfl
    exact ⟨toInt_held word, ofInt_toInt word⟩

/-- The offsets are all the integers of the scalar but the one that means null. -/
theorem offset_of_held (hHeld : scalar.minimum ≤ value ∧ value ≤ scalar.maximum)
    (hApart : value ≠ scalar.nullOffset) :
    scalar.leastOffset ≤ value ∧ value ≤ scalar.greatestOffset := by
  obtain ⟨width, form⟩ := scalar
  cases form <;> simp only [leastOffset, greatestOffset, nullOffset] at * <;> omega

end Scalar

namespace Pointer

variable {scalar : Scalar} {stride : Nat} {pointer other : Pointer scalar stride}
variable {position target : Nat}

theorem eq_of_offset (hSame : pointer.offset = other.offset) : pointer = other := by
  obtain ⟨stored⟩ := pointer
  obtain ⟨others⟩ := other
  dsimp only [offset] at hSame
  rw [← Scalar.ofInt_toInt stored, hSame, Scalar.ofInt_toInt]

theorem offset_eq_nullOffset_iff : pointer.offset = scalar.nullOffset ↔ pointer = null := by
  rw [← Scalar.toInt_nullOffset]
  constructor
  · exact fun hSame => eq_of_offset hSame
  · rintro rfl
    rfl

/-- A pointer that is not null has an offset that can be stored. -/
theorem offset_storable (hNull : pointer ≠ null) :
    scalar.leastOffset ≤ pointer.offset ∧ pointer.offset ≤ scalar.greatestOffset :=
  Scalar.offset_of_held (Scalar.toInt_held pointer.stored) (mt offset_eq_nullOffset_iff.mp hNull)

theorem ne_null_of_storable (hLeast : scalar.leastOffset ≤ pointer.offset)
    (hGreatest : pointer.offset ≤ scalar.greatestOffset) : pointer ≠ null :=
  mt offset_eq_nullOffset_iff.mpr (Scalar.nullOffset_apart hLeast hGreatest).2.2

/-- The target is a whole number of strides away, and an offset can say how many. -/
def InReach (scalar : Scalar) (stride position target : Nat) : Prop :=
  (stride : Int) ∣ target - position ∧
    scalar.leastOffset ≤ ((target : Int) - position) / stride ∧
      ((target : Int) - position) / stride ≤ scalar.greatestOffset

/-- A pointer leads from the position to the target when its offset is the number of strides between
them. -/
theorem reach_eq_iff (hStride : 0 < stride) :
    pointer.reach position = target ↔
      (stride : Int) ∣ target - position ∧ pointer.offset = ((target : Int) - position) / stride := by
  have hPositive : (stride : Int) ≠ 0 := by omega
  rw [reach]
  constructor
  · intro hReach
    have hDistance : (target : Int) - position = pointer.offset * stride := by omega
    rw [hDistance, Int.mul_ediv_cancel _ hPositive]
    exact ⟨Int.dvd_mul_left _ _, rfl⟩
  · rintro ⟨hWhole, hOffset⟩
    rw [hOffset, Int.ediv_mul_cancel hWhole]
    omega

/-- A pointer is made for the target if and only if it is not null and leads there. -/
theorem between_eq_ok_iff (hStride : 0 < stride) :
    between position target = .ok pointer ↔
      pointer ≠ null ∧ pointer.reach position = target := by
  constructor
  · exact reach_of_between
  · rintro ⟨hNull, hReach⟩
    obtain ⟨hWhole, hOffset⟩ := (reach_eq_iff hStride).mp hReach
    have hStorable := offset_storable hNull
    simp only [between, ← hOffset]
    rw [if_pos (Int.emod_eq_zero_of_dvd hWhole), if_pos hStorable]
    exact congrArg _ (eq_of_offset (congrArg scalar.toInt (Scalar.ofInt_toInt pointer.stored)))

theorem between?_eq_some_iff (hStride : 0 < stride) :
    between? position target = some pointer ↔
      pointer ≠ null ∧ pointer.reach position = target := by
  simp only [reach_eq_iff hStride, between?]
  rw [Option.ite_none_right_eq_some, Option.filter_eq_some_iff, Option.map_eq_some_iff]
  constructor
  · rintro ⟨hWhole, ⟨stored, hNarrow, rfl⟩, hNull⟩
    rw [Bool.not_eq_true', Bool.eq_false_iff, Ne, isNull_eq_true_iff] at hNull
    exact ⟨hNull, Int.dvd_of_emod_eq_zero hWhole, Scalar.narrow?_eq_some_iff.mp hNarrow⟩
  · rintro ⟨hNull, hWhole, hOffset⟩
    refine ⟨Int.emod_eq_zero_of_dvd hWhole, ⟨_, Scalar.narrow?_eq_some_iff.mpr hOffset, rfl⟩, ?_⟩
    rw [Bool.not_eq_true', Bool.eq_false_iff, Ne, isNull_eq_true_iff]
    exact hNull

/-- Some pointer is made for the target if and only if it is in reach. -/
theorem exists_between_iff (hStride : 0 < stride) :
    (∃ pointer : Pointer scalar stride, between position target = .ok pointer) ↔
      InReach scalar stride position target := by
  simp only [between_eq_ok_iff hStride, reach_eq_iff hStride]
  constructor
  · rintro ⟨pointer, hNull, hWhole, hOffset⟩
    exact ⟨hWhole, hOffset ▸ offset_storable hNull⟩
  · rintro ⟨hWhole, hLeast, hGreatest⟩
    obtain ⟨hMinimum, hMaximum, -⟩ := Scalar.nullOffset_apart hLeast hGreatest
    let made : Pointer scalar stride := ⟨scalar.ofInt (((target : Int) - position) / stride)⟩
    have hOffset : made.offset = ((target : Int) - position) / stride :=
      Scalar.toInt_ofInt hMinimum hMaximum
    rw [← hOffset] at hLeast hGreatest
    exact ⟨made, ne_null_of_storable hLeast hGreatest, hWhole, hOffset⟩

/-- The first stride that is too large for its multiples to be taken in sixteen bytes. -/
def strideLimit : Nat := 0x4000000000000000

/-- An offset of at most eight bytes is less than two to the 64th away from zero. -/
theorem offset_bounds (pointer : Pointer scalar stride) (hWidth : scalar.width ≤ 8) :
    -(positionLimit : Int) < pointer.offset ∧ pointer.offset < positionLimit := by
  obtain ⟨width, form⟩ := scalar
  have hPower : 2 ^ (8 * width) ≤ positionLimit :=
    Nat.pow_le_pow_right (by decide) (Nat.mul_le_mul_left 8 hWidth : 8 * width ≤ 64)
  have hUnsigned (word : BitVec (8 * width)) :
      -(positionLimit : Int) < word.toNat ∧ (word.toNat : Int) < positionLimit := by
    have hLess := word.isLt
    omega
  cases form with
  | signed =>
      have hSigned (word : BitVec (8 * width)) :
          -(positionLimit : Int) < word.toInt ∧ word.toInt < positionLimit := by
        have hLess := word.isLt
        rw [BitVec.toInt_eq_toNat_cond]
        split <;> omega
      exact hSigned pointer.stored
  | unsigned => exact hUnsigned pointer.stored
  | floating => exact hUnsigned pointer.stored

/-- The sum that says where a pointer leads, and the product in it, have room in sixteen bytes. -/
theorem reach_in_sixteen_bytes (hWidth : scalar.width ≤ 8) (hStride : stride < strideLimit)
    (hPosition : position < positionLimit) (pointer : Pointer scalar stride) :
    (Scalar.signed 16).minimum ≤ pointer.offset * stride ∧
      pointer.offset * stride ≤ pointer.reach position ∧
      pointer.reach position ≤ (Scalar.signed 16).maximum := by
  obtain ⟨hLeast, hGreatest⟩ := offset_bounds pointer hWidth
  have hStrides : (0 : Int) ≤ stride := Int.natCast_nonneg stride
  have hLower := Int.mul_le_mul_of_nonneg_right (Int.le_of_lt hLeast) hStrides
  have hUpper := Int.mul_le_mul_of_nonneg_right (Int.le_of_lt hGreatest) hStrides
  have hMinimum : (Scalar.signed 16).minimum = -0x80000000000000000000000000000000 := by decide
  have hMaximum : (Scalar.signed 16).maximum = 0x7fffffffffffffffffffffffffffffff := by decide
  rw [hMinimum, hMaximum, reach]
  simp only [strideLimit, positionLimit] at *
  omega

/-- How the pointers made at a position and the targets they lead to belong together. -/
structure MadeExactly (scalar : Scalar) (stride position : Nat) : Prop where
  /-- The two ways to make a pointer make the same ones. -/
  alike : ∀ (target : Nat) (pointer : Pointer scalar stride),
    between? position target = some pointer ↔ between position target = .ok pointer
  /-- They make one for the targets in reach and for no others. -/
  inReach : ∀ target : Nat,
    (∃ pointer : Pointer scalar stride, between position target = .ok pointer) ↔
      InReach scalar stride position target
  /-- A pointer that was made says how many strides away its target is, and leads there. -/
  leads : ∀ (target : Nat) (pointer : Pointer scalar stride), target < positionLimit →
    between position target = .ok pointer →
      pointer ≠ null ∧ pointer.offset = ((target : Int) - position) / stride ∧
        pointer.target? position = some target
  /-- A pointer that was assigned a target, or nothing, leads to what it was assigned. -/
  assigned : ∀ (destination : Option Nat) (pointer : Pointer scalar stride),
    (∀ target ∈ destination, target < positionLimit) → toTarget position destination = .ok pointer →
      pointer.target? position = destination
  /-- A stored pointer that leads to a target is the one that is made for it. -/
  unique : ∀ (target : Nat) (pointer : Pointer scalar stride), pointer ≠ null →
    pointer.target? position = some target → between? position target = some pointer
  /-- With an offset of at most eight bytes and a stride below the limit, following a pointer takes no
  product and no sum that sixteen bytes have no room for. -/
  roomy : scalar.width ≤ 8 → stride < strideLimit → position < positionLimit →
    ∀ pointer : Pointer scalar stride,
      (Scalar.signed 16).minimum ≤ pointer.offset * stride ∧
        pointer.offset * stride ≤ pointer.reach position ∧
        pointer.reach position ≤ (Scalar.signed 16).maximum

/-- For every kind of offset and every positive stride, from every position: making a pointer and
following it are inverse to each other, with sums and products that are exact in sixteen bytes. -/
theorem made_exactly (scalar : Scalar) {stride : Nat} (position : Nat) (hStride : 0 < stride) :
    MadeExactly scalar stride position := by
  have hLeads (target : Nat) (pointer : Pointer scalar stride) (hPosition : target < positionLimit)
      (hMade : between position target = .ok pointer) : pointer.target? position = some target := by
    obtain ⟨hNull, hReach⟩ := reach_of_between hMade
    exact target?_eq_some_iff.mpr ⟨hNull, hReach, hPosition⟩
  constructor
  case alike =>
    intro target pointer
    rw [between?_eq_some_iff hStride, between_eq_ok_iff hStride]
  case inReach => exact fun target => exists_between_iff hStride
  case leads =>
    intro target pointer hPosition hMade
    obtain ⟨hNull, hReach⟩ := reach_of_between hMade
    exact ⟨hNull, ((reach_eq_iff hStride).mp hReach).2, hLeads target pointer hPosition hMade⟩
  case assigned =>
    intro destination pointer hPositions hAssigned
    cases destination with
    | none =>
        cases hAssigned
        exact target?_null
    | some target => exact hLeads target pointer (hPositions target rfl) hAssigned
  case unique =>
    intro target pointer hNull hTarget
    exact (between?_eq_some_iff hStride).mpr ⟨hNull, (target?_eq_some_iff.mp hTarget).2.1⟩
  case roomy =>
    exact fun hWidth hLimit hPosition => reach_in_sixteen_bytes hWidth hLimit hPosition

/-- From position 200 a signed byte reaches back to 73 and not to 72, which is as far away as the
offset that means null says. -/
theorem made_exactly_signed_byte :
    MadeExactly (.signed 1) 1 200 ∧ InReach (.signed 1) 1 200 73 ∧ ¬ InReach (.signed 1) 1 200 72 :=
  ⟨made_exactly _ _ (by decide), by unfold InReach; decide, by unfold InReach; decide⟩

end Pointer

end Bytestream

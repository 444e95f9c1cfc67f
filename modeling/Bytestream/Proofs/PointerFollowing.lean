import Bytestream.Proofs.References

/-!
What following a pointer comes to on any bytes, damaged ones among them. There are three answers, and
for each of them this says when it is given. A pointer that leads where no position is gets the answer
of one that is null. Out of bounds are only a pointer and a referent that do not lie inside the blob.
-/

namespace Bytestream

theorem Bytes.slice?_eq_none_iff {bytes : Bytes} {first size : Nat} :
    bytes.slice? first size = none ↔ bytes.length < first + size := by
  rw [slice?]
  split
  · rename_i hInside
    exact iff_of_false (Option.some_ne_none _) (Nat.not_lt_of_ge hInside)
  · rename_i hOutside
    exact iff_of_true rfl (Nat.lt_of_not_le hOutside)

namespace Pointer

variable {scalar : Scalar} {stride : Nat} {pointer other : Pointer scalar stride}
variable {blob : Bytes} {position target size : Nat}

/-- The pointer lies inside the blob at `position`. -/
def StoredAt (pointer : Pointer scalar stride) (blob : Bytes) (position : Nat) : Prop :=
  blob.slice? position scalar.width = some (Word.bytes .little pointer.stored)

/-- The pointer is not null and leads from `position` to a target, which is a position. -/
def LeadsTo (pointer : Pointer scalar stride) (position target : Nat) : Prop :=
  pointer ≠ null ∧ pointer.reach position = target ∧ target < positionLimit

/-- The pointer leads from `position` to before the first position or past the last. Only damaged data
says so. -/
def Strays (pointer : Pointer scalar stride) (position : Nat) : Prop :=
  pointer.reach position < 0 ∨ positionLimit ≤ pointer.reach position

theorem storedAt_iff : pointer.StoredAt blob position ↔ readAt blob position = .ok pointer := by
  constructor
  · exact readAt_of_bytes
  · intro hRead
    obtain ⟨form, hSlice, hStored⟩ := readAt_eq_ok_iff.mp hRead
    rw [StoredAt, hSlice, hStored, Word.bytes_ofBytes .little (Bytes.length_of_slice? hSlice)]

theorem StoredAt.inside (hStored : pointer.StoredAt blob position) :
    position + scalar.width ≤ blob.length :=
  (Bytes.slice?_eq_some_iff.mp hStored).1

/-- At most one pointer is stored at a position. -/
theorem StoredAt.unique (hStored : pointer.StoredAt blob position)
    (hOther : other.StoredAt blob position) : pointer = other :=
  Except.ok.inj ((storedAt_iff.mp hStored).symm.trans (storedAt_iff.mp hOther))

/-- Wherever there is room for a pointer one is stored. -/
theorem exists_storedAt (stride : Nat) (hInside : position + scalar.width ≤ blob.length) :
    ∃ pointer : Pointer scalar stride, pointer.StoredAt blob position := by
  have hSlice : blob.slice? position scalar.width = some _ := if_pos hInside
  exact ⟨⟨_⟩, storedAt_iff.mpr (readAt_eq_ok_iff.mpr ⟨_, hSlice, rfl⟩)⟩

theorem readAt_of_short (hShort : blob.length < position + scalar.width) :
    (readAt blob position : Except Error (Pointer scalar stride)) = .error .outOfBounds := by
  rw [readAt, Bytes.readAt, Bytes.slice?_eq_none_iff.mpr hShort]
  rfl

theorem target?_eq_none_iff :
    pointer.target? position = none ↔ pointer = null ∨ pointer.Strays position := by
  rw [Option.eq_none_iff_forall_ne_some]
  constructor
  · intro hNowhere
    by_cases hNull : pointer = null
    · exact .inl hNull
    · have hTarget := mt target?_eq_some_iff.mpr (hNowhere (pointer.reach position).toNat)
      rw [not_and, not_and] at hTarget
      have hPast := hTarget hNull
      exact .inr (by rw [Strays]; omega)
  · rintro hNowhere target hTarget
    obtain ⟨hNull, hReach, hPosition⟩ := target?_eq_some_iff.mp hTarget
    rcases hNowhere with hNone | hStrays
    · exact hNull hNone
    · rw [Strays] at hStrays
      omega

/-- Nothing is found where the pointer leads nowhere. -/
theorem load_eq_ok_none_iff :
    pointer.load blob position size = .ok none ↔ pointer = null ∨ pointer.Strays position := by
  rw [← target?_eq_none_iff, load]
  cases pointer.target? position with
  | none => exact iff_of_true rfl rfl
  | some target =>
      refine iff_of_false ?_ (Option.some_ne_none target)
      dsimp only
      cases blob.slice? target size <;> simp

/-- The referent is refused where it does not lie inside the blob. -/
theorem load_eq_error_iff {error : Error} :
    pointer.load blob position size = .error error ↔
      error = .outOfBounds ∧ ∃ target, pointer.LeadsTo position target ∧
        blob.length < target + size := by
  simp only [LeadsTo, ← target?_eq_some_iff, ← Bytes.slice?_eq_none_iff]
  rw [load]
  cases pointer.target? position with
  | none => simp
  | some target =>
      simp only [Option.some.injEq, exists_eq_left']
      cases blob.slice? target size with
      | none => simp [eq_comm]
      | some referent => simp

end Pointer

namespace Blob

open Bytestream.Pointer

variable {scalar : Scalar} {stride : Nat} {blob : Bytes} {position size : Nat}

/-- A pointer is followed by loading what it leads to, if it lies inside the blob. -/
theorem follow_eq_iff {answer : Except Error (Option Bytes)} :
    follow scalar stride blob position size = answer ↔
      blob.length < position + scalar.width ∧ answer = .error .outOfBounds ∨
        ∃ pointer : Pointer scalar stride, pointer.StoredAt blob position ∧
          pointer.load blob position size = answer := by
  rcases Nat.lt_or_ge blob.length (position + scalar.width) with hShort | hInside
  · have hRefused : follow scalar stride blob position size = .error .outOfBounds := by
      rw [follow, readAt_of_short hShort]
      rfl
    rw [hRefused]
    constructor
    · exact fun hAnswer => .inl ⟨hShort, hAnswer.symm⟩
    · rintro (⟨-, hAnswer⟩ | ⟨pointer, hStored, -⟩)
      · exact hAnswer.symm
      · exact absurd hStored.inside (Nat.not_le_of_gt hShort)
  · obtain ⟨pointer, hStored⟩ := exists_storedAt stride hInside
    rw [follow_of_readAt (storedAt_iff.mp hStored)]
    constructor
    · exact fun hAnswer => .inr ⟨pointer, hStored, hAnswer⟩
    · rintro (⟨hShort, -⟩ | ⟨other, hOther, hAnswer⟩)
      · exact absurd hInside (Nat.not_le_of_gt hShort)
      · rwa [hStored.unique hOther]

/-- When following a pointer finds a referent, when it finds nothing, and when it is refused. -/
structure FollowClasses (scalar : Scalar) (stride : Nat) (blob : Bytes) (position size : Nat) :
    Prop where
  found : ∀ referent, follow scalar stride blob position size = .ok (some referent) ↔
    ∃ (pointer : Pointer scalar stride) (target : Nat), pointer.StoredAt blob position ∧
      pointer.LeadsTo position target ∧ blob.slice? target size = some referent
  absent : follow scalar stride blob position size = .ok none ↔
    ∃ pointer : Pointer scalar stride, pointer.StoredAt blob position ∧
      (pointer = null ∨ pointer.Strays position)
  refused : ∀ error, follow scalar stride blob position size = .error error ↔
    error = .outOfBounds ∧ (blob.length < position + scalar.width ∨
      ∃ (pointer : Pointer scalar stride) (target : Nat), pointer.StoredAt blob position ∧
        pointer.LeadsTo position target ∧ blob.length < target + size)

/-- On any bytes, at any position and for any kind of offset, stride and size: a referent is found if
and only if the pointer and all of the referent lie inside. A pointer that strays is not refused, but
answered as if it were null. -/
theorem follow_classifies (scalar : Scalar) (stride : Nat) (blob : Bytes) (position size : Nat) :
    FollowClasses scalar stride blob position size where
  found referent := by
    constructor
    · intro hFound
      rcases follow_eq_iff.mp hFound with ⟨-, hRefused⟩ | ⟨pointer, hStored, hLoad⟩
      · cases hRefused
      · obtain ⟨target, hTarget, hReferent⟩ := load_eq_ok_some_iff.mp hLoad
        exact ⟨pointer, target, hStored, target?_eq_some_iff.mp hTarget, hReferent⟩
    · rintro ⟨pointer, target, hStored, hLeads, hReferent⟩
      exact follow_eq_iff.mpr (.inr ⟨pointer, hStored,
        load_eq_ok_some_iff.mpr ⟨target, target?_eq_some_iff.mpr hLeads, hReferent⟩⟩)
  absent := by
    constructor
    · intro hAbsent
      rcases follow_eq_iff.mp hAbsent with ⟨-, hRefused⟩ | ⟨pointer, hStored, hLoad⟩
      · cases hRefused
      · exact ⟨pointer, hStored, load_eq_ok_none_iff.mp hLoad⟩
    · rintro ⟨pointer, hStored, hNowhere⟩
      exact follow_eq_iff.mpr (.inr ⟨pointer, hStored, load_eq_ok_none_iff.mpr hNowhere⟩)
  refused error := by
    constructor
    · intro hRefused
      rcases follow_eq_iff.mp hRefused with ⟨hShort, hError⟩ | ⟨pointer, hStored, hLoad⟩
      · cases hError
        exact ⟨rfl, .inl hShort⟩
      · obtain ⟨rfl, target, hLeads, hCut⟩ := load_eq_error_iff.mp hLoad
        exact ⟨rfl, .inr ⟨pointer, target, hStored, hLeads, hCut⟩⟩
    · rintro ⟨rfl, hShort | ⟨pointer, target, hStored, hLeads, hCut⟩⟩
      · exact follow_eq_iff.mpr (.inl ⟨hShort, rfl⟩)
      · exact follow_eq_iff.mpr (.inr ⟨pointer, hStored,
          load_eq_error_iff.mpr ⟨rfl, target, hLeads, hCut⟩⟩)

/-- An offset of three back from the first byte is not null and leads before the start of the blob,
and it is answered as if it were null. -/
theorem follow_answers_stray_with_none :
    ∃ pointer : Pointer (.signed 1) 1, pointer.StoredAt [0xfd, 0] 0 ∧ pointer ≠ null ∧
      pointer.reach 0 = -3 ∧ follow (.signed 1) 1 [0xfd, 0] 0 1 = .ok none :=
  ⟨⟨0xfd⟩, rfl, by decide, rfl, rfl⟩

end Blob

end Bytestream

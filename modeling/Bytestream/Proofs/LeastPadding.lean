import Bytestream.Proofs.ArenaSteps
import Mathlib.Data.Nat.ModEq

/-!
Padding over the whole range of 64 bits. An alignment divides the number of all words, so a sum that
wraps around leaves the same rest as the exact one, and the masked negation of a value is its rest up
to the next multiple. Padding to one alignment and then to a larger one comes to the same as padding
to the larger one alone.
-/

namespace Bytestream

namespace Blob

theorem isPowerOfTwo_iff {n : Nat} : isPowerOfTwo n = true ↔ n.isPowerOfTwo := by
  rw [isPowerOfTwo, Bool.and_eq_true, decide_eq_true_eq, decide_eq_true_eq]
  constructor
  · rintro ⟨hSome, hSingle⟩
    exact (Nat.and_sub_one_eq_zero_iff_isPowerOfTwo hSome).mp hSingle
  · intro hPower
    have hSome := (Nat.pos_of_isPowerOfTwo hPower).ne'
    exact ⟨hSome, (Nat.and_sub_one_eq_zero_iff_isPowerOfTwo hSome).mpr hPower⟩

/-- Of two powers of two the smaller one divides the larger one. -/
theorem dvd_of_powers {alignment larger : Nat} (hPower : isPowerOfTwo alignment = true)
    (hLarger : isPowerOfTwo larger = true) (hOrder : alignment ≤ larger) : alignment ∣ larger := by
  obtain ⟨exponent, rfl⟩ := isPowerOfTwo_iff.mp hPower
  obtain ⟨greater, rfl⟩ := isPowerOfTwo_iff.mp hLarger
  exact Nat.pow_dvd_pow 2 ((Nat.pow_le_pow_iff_right (by decide)).mp hOrder)

section Words

variable {alignment larger : Word 8}

theorem dvd_positionLimit (hPower : isPowerOfTwo alignment.toNat = true) :
    alignment.toNat ∣ positionLimit :=
  dvd_of_powers hPower (by decide) (Nat.le_of_lt alignment.isLt)

/-- A 64-bit sum and the exact one leave the same rest. -/
theorem dvd_toNat_add_iff (hPower : isPowerOfTwo alignment.toNat = true) (value missing : Word 8)
    (more : Nat) :
    alignment.toNat ∣ (value + missing).toNat + more ↔
      alignment.toNat ∣ value.toNat + missing.toNat + more := by
  have hWrap : (value + missing).toNat ≡ value.toNat + missing.toNat [MOD alignment.toNat] := by
    rw [BitVec.toNat_add]
    exact Nat.mod_mod_of_dvd _ (dvd_positionLimit hPower)
  exact (hWrap.add_right more).dvd_iff (Nat.dvd_refl _)

theorem umod_add_eq_zero_iff (hPower : isPowerOfTwo alignment.toNat = true)
    (value missing : Word 8) :
    (value + missing) % alignment = 0 ↔ alignment.toNat ∣ value.toNat + missing.toNat := by
  rw [← BitVec.toNat_inj, BitVec.toNat_umod]
  change (value + missing).toNat % alignment.toNat = 0 ↔ _
  rw [← Nat.dvd_iff_mod_eq_zero]
  exact dvd_toNat_add_iff hPower value missing 0

/-- Masking the negation of a value leaves the rest of its complement. -/
theorem toNat_padding (hPower : isPowerOfTwo alignment.toNat = true) (value : Word 8) :
    (padding value alignment).toNat = (positionLimit - value.toNat) % alignment.toNat := by
  have hWhole := dvd_positionLimit hPower
  obtain ⟨exponent, hExponent⟩ := isPowerOfTwo_iff.mp hPower
  have hMask : (alignment - 1).toNat = alignment.toNat - 1 := by
    rw [BitVec.toNat_sub_of_le]
    · rfl
    · rw [BitVec.le_def, hExponent]
      exact Nat.two_pow_pos exponent
  rw [padding, BitVec.toNat_and, hMask, hExponent, Nat.and_two_pow_sub_one_eq_mod, ← hExponent,
    BitVec.toNat_neg]
  exact Nat.mod_mod_of_dvd _ hWhole

theorem padding_lt (hPower : isPowerOfTwo alignment.toNat = true) (value : Word 8) :
    padding value alignment < alignment := by
  rw [BitVec.lt_def, toNat_padding hPower]
  exact Nat.mod_lt _ (Nat.pos_of_isPowerOfTwo (isPowerOfTwo_iff.mp hPower))

theorem dvd_add_padding (hPower : isPowerOfTwo alignment.toNat = true) (value : Word 8) :
    alignment.toNat ∣ value.toNat + (padding value alignment).toNat := by
  have hValue : value.toNat < positionLimit := value.isLt
  rw [toNat_padding hPower, Nat.dvd_iff_mod_eq_zero, Nat.add_mod_mod,
    Nat.add_sub_cancel' (Nat.le_of_lt hValue)]
  exact Nat.mod_eq_zero_of_dvd (dvd_positionLimit hPower)

/-- Whatever leads to a multiple leaves the same rest as the padding, which is its own rest. -/
theorem padding_le_of_dvd (hPower : isPowerOfTwo alignment.toNat = true) {value : Word 8}
    {other : Nat} (hOther : alignment.toNat ∣ value.toNat + other) :
    (padding value alignment).toNat ≤ other := by
  have hSame : other ≡ (padding value alignment).toNat [MOD alignment.toNat] := by
    apply Nat.ModEq.add_left_cancel' value.toNat
    exact (Nat.mod_eq_zero_of_dvd hOther).trans
      (Nat.mod_eq_zero_of_dvd (dvd_add_padding hPower value)).symm
  have hRest := Nat.mod_eq_of_lt (BitVec.lt_def.mp (padding_lt hPower value))
  calc (padding value alignment).toNat
      = other % alignment.toNat := by rw [hSame, hRest]
    _ ≤ other := Nat.mod_le _ _

/-- What is missing up to the larger alignment is what is missing up to the smaller one and what is
missing from there. -/
theorem toNat_padding_add (hPower : isPowerOfTwo alignment.toNat = true)
    (hLarger : isPowerOfTwo larger.toNat = true) (hOrder : alignment ≤ larger) (value : Word 8) :
    (padding value alignment).toNat + (padding (value + padding value alignment) larger).toNat =
      (padding value larger).toNat := by
  have hDvd := dvd_of_powers hPower hLarger (BitVec.le_def.mp hOrder)
  have hWhole := dvd_add_padding hLarger value
  have hLess : (padding value alignment).toNat ≤ (padding value larger).toNat :=
    padding_le_of_dvd hPower (Nat.dvd_trans hDvd hWhole)
  have hRest : (padding (value + padding value alignment) larger).toNat ≤
      (padding value larger).toNat - (padding value alignment).toNat := by
    apply padding_le_of_dvd hLarger
    rwa [dvd_toNat_add_iff hLarger, Nat.add_assoc, Nat.add_sub_cancel' hLess]
  have hAll : (padding value larger).toNat ≤ (padding value alignment).toNat +
      (padding (value + padding value alignment) larger).toNat := by
    apply padding_le_of_dvd hLarger
    rw [← Nat.add_assoc, ← dvd_toNat_add_iff hLarger]
    exact dvd_add_padding hLarger _
  omega

theorem padding_add (hPower : isPowerOfTwo alignment.toNat = true)
    (hLarger : isPowerOfTwo larger.toNat = true) (hOrder : alignment ≤ larger) (value : Word 8) :
    padding value alignment + padding (value + padding value alignment) larger =
      padding value larger := by
  apply BitVec.eq_of_toNat_eq
  rw [BitVec.toNat_add, toNat_padding_add hPower hLarger hOrder]
  exact Nat.mod_eq_of_lt (padding value larger).isLt

end Words

end Blob

namespace Arena

open Bytestream.Blob (isPowerOfTwo padding toNat_padding_add)

variable {alignment larger : Word 8}

/-- Aligning appends the padding of the length, unless the blob becomes too long. -/
theorem result_align_word (hPower : isPowerOfTwo alignment.toNat = true) (blob : Bytes) :
    (align alignment.toNat).result blob =
      let missing := (padding (BitVec.ofNat _ blob.length) alignment).toNat
      if blob.length + missing < offsetLimit then
        (.ok (blob.length + missing), blob ++ List.replicate missing 0)
      else (.error (.fault .blobTooLong), blob) := by
  rw [align, if_pos hPower, pad, Action.result_bind_of_ok (Action.result_state blob),
    BitVec.ofNat_toNat, BitVec.setWidth_eq]
  dsimp only
  rw [Action.result_bind, result_appendZeros]
  by_cases hFits :
      blob.length + (padding (BitVec.ofNat _ blob.length) alignment).toNat < offsetLimit
  · rw [if_pos hFits, if_pos hFits]
    rfl
  · rw [if_neg hFits, if_neg hFits]

/-- Aligning twice is aligning to the larger of the two alignments. -/
theorem align_align (hPower : isPowerOfTwo alignment.toNat = true)
    (hLarger : isPowerOfTwo larger.toNat = true) (hOrder : alignment ≤ larger)
    {blob after : Bytes} {length : Nat} :
    (do let _ ← align alignment.toNat; align larger.toNat).result blob = (.ok length, after) ↔
      (align larger.toNat).result blob = (.ok length, after) := by
  have hSum := toNat_padding_add hPower hLarger hOrder (BitVec.ofNat _ blob.length)
  rw [Action.result_bind, result_align_word hPower, result_align_word hLarger]
  dsimp only
  generalize hMissing : padding (BitVec.ofNat _ blob.length) alignment = missing at hSum ⊢
  generalize (padding (BitVec.ofNat _ blob.length) larger).toNat = all at hSum ⊢
  by_cases hFits : blob.length + missing.toNat < offsetLimit
  · rw [if_pos hFits]
    have hLength : BitVec.ofNat (8 * 8) (blob ++ List.replicate missing.toNat 0).length =
        BitVec.ofNat _ blob.length + missing := by
      rw [List.length_append, List.length_replicate, BitVec.ofNat_add, BitVec.ofNat_toNat,
        BitVec.setWidth_eq]
    dsimp only
    rw [result_align_word hLarger, hLength, List.length_append, List.length_replicate]
    dsimp only
    rw [Nat.add_assoc, hSum, List.append_assoc, List.replicate_append_replicate, hSum]
    split
    · exact Iff.rfl
    · exact iff_of_false (nomatch ·) (nomatch ·)
  · rw [if_neg hFits, if_neg (by omega)]

end Arena

/-- The masked negation of a value is the least that is missing up to a multiple of a power of two,
also where the sum wraps around. An aligned length stays as it is, and a smaller alignment before a
larger one makes no difference to where the larger one leads. -/
theorem Blob.padding_is_least {alignment : Word 8} (hPower : isPowerOfTwo alignment.toNat = true)
    (value : Word 8) :
    padding value alignment < alignment ∧
    (value + padding value alignment) % alignment = 0 ∧
    alignment.toNat ∣ value.toNat + (padding value alignment).toNat ∧
    (∀ other < padding value alignment, (value + other) % alignment ≠ 0) ∧
    padding (value + padding value alignment) alignment = 0 ∧
    (∀ blob after length, (Arena.align alignment.toNat).result blob = (.ok length, after) →
      (Arena.align alignment.toNat).result after = (.ok length, after)) ∧
    ∀ larger : Word 8, isPowerOfTwo larger.toNat = true → alignment ≤ larger →
      value + padding value alignment + padding (value + padding value alignment) larger =
        value + padding value larger ∧
      ∀ blob after length,
        (do let _ ← Arena.align alignment.toNat; Arena.align larger.toNat).result blob =
            (.ok length, after) ↔
          (Arena.align larger.toNat).result blob = (.ok length, after) := by
  have hDvd := dvd_add_padding hPower value
  have hTwice := padding_add hPower hPower (BitVec.le_refl alignment) value
  refine ⟨padding_lt hPower value, (umod_add_eq_zero_iff hPower value _).mpr hDvd, hDvd, ?_,
    BitVec.add_right_eq_self.mp hTwice, ?_, ?_⟩
  · intro other hOther hMultiple
    have hLess := padding_le_of_dvd hPower ((umod_add_eq_zero_iff hPower value other).mp hMultiple)
    exact Nat.not_lt.mpr hLess (BitVec.lt_def.mp hOther)
  · intro blob after length hFirst
    have hBoth := (Arena.align_align hPower hPower (BitVec.le_refl alignment)).mpr hFirst
    rwa [Action.result_bind_of_ok hFirst] at hBoth
  · intro larger hLarger hOrder
    refine ⟨?_, fun blob after length => Arena.align_align hPower hLarger hOrder⟩
    rw [BitVec.add_assoc, padding_add hPower hLarger hOrder]

/-- Three bytes before the end of the range the sum wraps around to zero, and zero is aligned. Three
bytes of content are aligned to eight and then to sixteen. -/
theorem Blob.padding_is_least_at_wrap :
    let value : Word 8 := 0xFFFFFFFFFFFFFFFD
    isPowerOfTwo (8 : Word 8).toNat = true ∧ padding value 8 = 3 ∧ value + 3 = 0 ∧
      (∀ other < (3 : Word 8), (value + other) % 8 ≠ 0) ∧
      (isPowerOfTwo (16 : Word 8).toNat = true ∧ (8 : Word 8) ≤ 16) ∧
      value + padding value 8 + padding (value + padding value 8) 16 = value + padding value 16 ∧
      (do let _ ← Arena.align 8; Arena.align 16).result [1, 2, 3] =
        (.ok 16, [1, 2, 3] ++ List.replicate 13 0) ∧
      (Arena.align 16).result ([1, 2, 3] ++ List.replicate 13 0) =
        (.ok 16, [1, 2, 3] ++ List.replicate 13 0) := by
  intro value
  have hPower : isPowerOfTwo (8 : Word 8).toNat = true := by decide
  have hLarger : isPowerOfTwo (16 : Word 8).toNat = true := by decide
  have hPadding : padding value 8 = 3 := by decide
  have hDirect : (Arena.align 16).result [1, 2, 3] = (.ok 16, [1, 2, 3] ++ List.replicate 13 0) := rfl
  obtain ⟨-, -, -, hLeast, -, -, hSteps⟩ := padding_is_least hPower value
  obtain ⟨hSum, hSame⟩ := hSteps 16 hLarger (by decide)
  obtain ⟨-, -, -, -, -, hAgain, -⟩ := padding_is_least hLarger value
  exact ⟨hPower, hPadding, by decide, by rwa [hPadding] at hLeast, ⟨hLarger, by decide⟩, hSum,
    (hSame _ _ 16).mpr hDirect, hAgain _ _ 16 hDirect⟩

end Bytestream

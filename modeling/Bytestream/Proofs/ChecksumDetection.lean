import Bytestream.Crc32
import Mathlib.Algebra.Group.Nat.Defs

/-!
What the checksum tells apart. The register of the division is never the same after two different
starts, and up to four bytes are fed to it as one word, so no damage that short goes unnoticed
whatever lies around it.
-/

namespace Bytestream.Crc32

theorem shiftBit_xor (first second : Word 4) :
    shiftBit (first ^^^ second) = shiftBit first ^^^ shiftBit second := by
  have hCancel : first >>> 1 ^^^ polynomial ^^^ (second >>> 1 ^^^ polynomial) =
      first >>> 1 ^^^ second >>> 1 := by
    rw [BitVec.xor_comm (second >>> 1), BitVec.xor_assoc, ← BitVec.xor_assoc polynomial,
      BitVec.xor_self, BitVec.zero_xor]
  simp only [shiftBit, BitVec.getLsbD_xor, BitVec.ushiftRight_xor_distrib]
  cases first.getLsbD 0 <;> cases second.getLsbD 0
  · rfl
  · exact BitVec.xor_assoc ..
  · show _ = first >>> 1 ^^^ polynomial ^^^ second >>> 1
    rw [BitVec.xor_assoc, BitVec.xor_assoc, BitVec.xor_comm polynomial]
    rfl
  · exact hCancel.symm

theorem shiftBits_xor (count : Nat) (first second : Word 4) :
    shiftBits count (first ^^^ second) = shiftBits count first ^^^ shiftBits count second := by
  induction count generalizing first second with
  | zero => rfl
  | succ count ih => rw [shiftBits, shiftBit_xor, ih, shiftBits, shiftBits]

theorem shiftBits_add (first second : Nat) (register : Word 4) :
    shiftBits (first + second) register = shiftBits second (shiftBits first register) := by
  induction first generalizing register with
  | zero => rw [Nat.zero_add, shiftBits]
  | succ first ih => rw [Nat.succ_add, shiftBits, shiftBits, ih]

/-- The polynomial has the highest coefficient, so that the bit which was shifted out can be told
from the highest bit of what is left. -/
theorem eq_zero_of_shiftBit {register : Word 4} (hZero : shiftBit register = 0) : register = 0 := by
  have hBits (i : Nat) : (shiftBit register).getLsbD i = false := by
    rw [hZero]
    exact BitVec.getLsbD_zero
  have hOut : register.getLsbD 0 = false := by
    have hHighest := hBits 31
    rw [shiftBit] at hHighest
    split at hHighest
    · rw [BitVec.getLsbD_xor, BitVec.getLsbD_ushiftRight,
        BitVec.getLsbD_of_ge register (1 + 31) (by decide)] at hHighest
      exact absurd hHighest (by decide)
    · rename_i hOut
      exact Bool.eq_false_iff.mpr hOut
  apply BitVec.eq_of_getLsbD_eq
  intro i hi
  show register.getLsbD i = (0#32).getLsbD i
  rw [BitVec.getLsbD_zero]
  cases i with
  | zero => exact hOut
  | succ i =>
      have hNext := hBits i
      rw [shiftBit, hOut, if_neg Bool.false_ne_true, BitVec.getLsbD_ushiftRight] at hNext
      rwa [Nat.add_comm]

theorem shiftBits_injective (count : Nat) : Function.Injective (shiftBits count) := by
  induction count with
  | zero => exact fun _ _ hSame => hSame
  | succ count ih =>
      intro first second hSame
      have hStep : shiftBit (first ^^^ second) = 0 := by
        rw [shiftBit_xor, ih hSame, BitVec.xor_self]
        rfl
      exact BitVec.xor_eq_zero_iff.mp (eq_zero_of_shiftBit hStep)

/-- The same byte leads two registers apart to two registers apart. -/
theorem feed_injective (byte : UInt8) : Function.Injective (feed · byte) := by
  intro first second hSame
  exact (BitVec.xor_left_inj _).mp (shiftBits_injective 8 hSame)

theorem foldl_feed_injective (bytes : Bytes) :
    Function.Injective (fun register => bytes.foldl feed register) := by
  induction bytes with
  | nil => exact fun _ _ hSame => hSame
  | cons byte rest ih => exact fun _ _ hSame => feed_injective byte (ih hSame)

/-- A zero bit that is shifted out is lost without a trace. -/
theorem shiftBits_of_multiple (count : Nat) {number : Nat} (hFits : 2 ^ count * number < 2 ^ 32) :
    shiftBits count (BitVec.ofNat 32 (2 ^ count * number)) = BitVec.ofNat 32 number := by
  induction count with
  | zero => rw [Nat.pow_zero, Nat.one_mul, shiftBits]
  | succ count ih =>
      rw [Nat.pow_succ, Nat.mul_comm (2 ^ count) 2, Nat.mul_assoc] at hFits ⊢
      have hEven : (BitVec.ofNat 32 (2 * (2 ^ count * number))).getLsbD 0 = false := by
        rw [BitVec.getLsbD_ofNat]
        simp
      have hHalf : BitVec.ofNat 32 (2 * (2 ^ count * number)) >>> 1 =
          BitVec.ofNat 32 (2 ^ count * number) := by
        apply BitVec.eq_of_toNat_eq
        simp only [BitVec.toNat_ushiftRight, BitVec.toNat_ofNat, Nat.shiftRight_eq_div_pow]
        omega
      rw [shiftBits, shiftBit, hEven, if_neg Bool.false_ne_true, hHalf, ih (by omega)]

/-- A byte below other bytes joins their number without a carry. -/
theorem ofNat_byte_add (byte : UInt8) (number : Nat) :
    BitVec.ofNat 32 (byte.toNat + 256 * number) =
      BitVec.ofNat 32 byte.toNat ^^^ BitVec.ofNat 32 (2 ^ 8 * number) := by
  have hByte : byte.toNat < 2 ^ 8 := byte.toNat_lt
  have hSum : byte.toNat + 256 * number = 2 ^ 8 * number + byte.toNat := Nat.add_comm ..
  have hNone (i : Nat) (hi : 8 ≤ i) : byte.toNat.testBit i = false :=
    Nat.testBit_lt_two_pow (Nat.lt_of_lt_of_le hByte (Nat.pow_le_pow_right (by decide) hi))
  apply BitVec.eq_of_getLsbD_eq
  intro i hi
  rw [hSum]
  simp only [BitVec.getLsbD_xor, BitVec.getLsbD_ofNat, Nat.testBit_two_pow_mul_add number hByte,
    Nat.testBit_two_pow_mul, hi, decide_true, Bool.true_and]
  by_cases hLow : i < 8
  · simp [hLow, Nat.not_le_of_gt hLow]
  · simp [hLow, hNone i (Nat.le_of_not_lt hLow), Nat.le_of_not_lt hLow]

theorem number_lt (bytes : Bytes) : Bytes.number bytes < 2 ^ (8 * bytes.length) := by
  rw [← Bytes.toNat_ofNat_number]
  exact BitVec.isLt _

/-- Up to four bytes are fed to the register as the one word that they make up. -/
theorem foldl_feed_of_short {bytes : Bytes} (hShort : bytes.length ≤ 4) (register : Word 4) :
    bytes.foldl feed register =
      shiftBits (8 * bytes.length) (register ^^^ BitVec.ofNat 32 (Bytes.number bytes)) := by
  induction bytes generalizing register with
  | nil =>
      show register = register ^^^ 0#32
      rw [BitVec.xor_zero]
  | cons byte rest ih =>
      rw [List.length_cons] at hShort
      have hBound : Bytes.number rest < 2 ^ 24 :=
        Nat.lt_of_lt_of_le (number_lt rest) (Nat.pow_le_pow_right (by decide) (by omega))
      have hCount : 8 * (byte :: rest).length = 8 + 8 * rest.length := by
        rw [List.length_cons]
        omega
      rw [List.foldl_cons, ih (by omega), hCount, shiftBits_add, Bytes.number, ofNat_byte_add,
        ← BitVec.xor_assoc, shiftBits_xor 8 (_ ^^^ _), shiftBits_of_multiple 8 (by omega)]
      rfl

theorem eq_of_foldl_feed {first second : Bytes} {register : Word 4}
    (hLength : first.length = second.length) (hShort : first.length ≤ 4)
    (hSame : first.foldl feed register = second.foldl feed register) : first = second := by
  rw [foldl_feed_of_short hShort, foldl_feed_of_short (hLength ▸ hShort), hLength] at hSame
  have hWord := congrArg BitVec.toNat ((BitVec.xor_right_inj register).mp (shiftBits_injective _ hSame))
  have hBound {bytes : Bytes} (hFew : bytes.length ≤ 4) : Bytes.number bytes < 2 ^ 32 :=
    Nat.lt_of_lt_of_le (number_lt bytes) (Nat.pow_le_pow_right (by decide) (by omega))
  rw [BitVec.toNat_ofNat, BitVec.toNat_ofNat, Nat.mod_eq_of_lt (hBound hShort),
    Nat.mod_eq_of_lt (hBound (hLength ▸ hShort))] at hWord
  rw [← Bytes.digits_number first, hWord, hLength, Bytes.digits_number]

end Bytestream.Crc32

namespace Bytestream

/-- Checksums of the same bytes continued from different seeds are different. -/
theorem crc32_injective (bytes : Bytes) : Function.Injective (crc32 bytes) := by
  intro first second hSame
  have hRegister := Crc32.foldl_feed_injective bytes (BitVec.not_inj.mp hSame)
  exact BitVec.not_inj.mp hRegister

/-- A change within four consecutive bytes changes the checksum. -/
theorem crc32_ne_of_window {before intact damaged behind : Bytes} (seed : Word 4)
    (hLength : damaged.length = intact.length) (hShort : intact.length ≤ 4)
    (hDamaged : damaged ≠ intact) :
    crc32 (before ++ damaged ++ behind) seed ≠ crc32 (before ++ intact ++ behind) seed := by
  intro hSame
  rw [crc32_append, crc32_append, crc32_append, crc32_append] at hSame
  have hWindow := BitVec.not_inj.mp (crc32_injective behind hSame)
  exact hDamaged (Crc32.eq_of_foldl_feed hLength (hLength ▸ hShort) hWindow)

end Bytestream

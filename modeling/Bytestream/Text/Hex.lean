/-!
Fixed-width hexadecimal text, as log lines and error messages print identifiers and checksums.
-/

namespace Bytestream.Text

/-- The lower-case hexadecimal digits of `n`, most significant first, filled with zeros on the
left up to `digits` of them. Wider numbers keep all their digits. -/
def hex (digits n : Nat) : String :=
  let shown := Nat.toDigits 16 n
  String.ofList (List.replicate (digits - shown.length) '0' ++ shown)

/-- A 32-bit number as `0x` and eight digits. -/
def hex32 (n : Nat) : String := "0x" ++ hex 8 n

/-- The value of a hexadecimal digit of either case. -/
def hexDigit? (c : Char) : Option Nat :=
  if '0' ≤ c ∧ c ≤ '9' then some (c.toNat - '0'.toNat)
  else if 'a' ≤ c ∧ c ≤ 'f' then some (c.toNat - 'a'.toNat + 10)
  else if 'A' ≤ c ∧ c ≤ 'F' then some (c.toNat - 'A'.toNat + 10)
  else none

/-- The number with these hexadecimal digits, most significant first. -/
def ofHex? (text : String) : Option Nat :=
  text.toList.foldlM (fun n c => (hexDigit? c).map (16 * n + ·)) 0

end Bytestream.Text

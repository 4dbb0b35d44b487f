/-!
# Hexadecimal text

Bytes as two lower-case digits each, and numbers in the fewest digits.
-/

namespace DirLock.Text

/-- The digit that stands for a value below sixteen. -/
def hexDigit (value : Nat) : Char :=
  if value < 10 then Char.ofNat (0x30 + value) else Char.ofNat (0x57 + value)

/-- A byte as two digits, the high half first. -/
def hexByte (byte : UInt8) : List Char :=
  [hexDigit (byte.toNat / 16), hexDigit (byte.toNat % 16)]

/-- The bytes in order, two digits each. -/
def hexBytes (bytes : List UInt8) : List Char :=
  bytes.flatMap hexByte

/-- A number in the fewest hexadecimal digits. -/
def hexNumber (value : Nat) : List Char :=
  Nat.toDigits 16 value

/-- A number in exactly `width` hexadecimal digits, the high ones dropped if it has more. -/
def hexPadded : Nat → Nat → List Char
  | 0, _ => []
  | width + 1, value => hexPadded width (value / 16) ++ [hexDigit (value % 16)]

/-- The value of a hexadecimal digit of either case. -/
def hexValue? (c : Char) : Option Nat :=
  let code := c.toNat
  if 0x30 ≤ code && code ≤ 0x39 then some (code - 0x30)
  else if 0x61 ≤ code && code ≤ 0x66 then some (code - 0x57)
  else if 0x41 ≤ code && code ≤ 0x46 then some (code - 0x37)
  else none

theorem length_hexBytes (bytes : List UInt8) : (hexBytes bytes).length = 2 * bytes.length := by
  induction bytes with
  | nil => rfl
  | cons b bytes ih =>
    simp only [hexBytes, List.flatMap_cons, hexByte, List.length_append, List.length_cons,
      List.length_nil] at ih ⊢
    omega

end DirLock.Text

import Highlighter.Text

/-
  Numbers written in decimal and hexadecimal digits.

  Key definitions include:
    * `Text.hexDigit?`
    * `Text.decimal`
    * `Text.hex`
    * `Text.paddedHex`
-/

namespace Highlighter

namespace Text

/- The value of a hexadecimal digit of either case. -/
def hexDigit? (c : Char) : Option Nat :=
  if '0' ≤ c ∧ c ≤ '9' then
    some (c.toNat - '0'.toNat)
  else if 'a' ≤ c ∧ c ≤ 'f' then
    some (c.toNat - 'a'.toNat + 10)
  else if 'A' ≤ c ∧ c ≤ 'F' then
    some (c.toNat - 'A'.toNat + 10)
  else
    none

/- A number in decimal digits. -/
def decimal (n : Nat) : Text := Nat.toDigits 10 n

/- A number in lower-case hexadecimal digits. -/
def hex (n : Nat) : Text := Nat.toDigits 16 n

/-
  The last `width` hexadecimal digits of a number, written
  by `digit`.
-/
def paddedHex (digit : Nat → Char) : Nat → Nat → Text
  | 0, _ => []
  | width + 1, n =>
      paddedHex digit width (n / 16) ++ [digit (n % 16)]

/- A lower-case hexadecimal digit. -/
def lowerDigit (n : Nat) : Char := Nat.digitChar n

/- An upper-case hexadecimal digit. -/
def upperDigit (n : Nat) : Char := (Nat.digitChar n).toUpper

end Text

end Highlighter

import Highlighter.Text.Digit

/-
  What readers and writers of TOML have to agree on.

  Key definitions include:
    * `Toml.isBareKeyChar`
    * `Toml.isPlain`
    * `Toml.fitsInteger`
    * `Toml.dateKey`
-/

namespace Highlighter

namespace Toml

/- The characters of keys without quotes. -/
def isBareKeyChar (c : Char) : Bool :=
  ('a' ≤ c && c ≤ 'z') || ('A' ≤ c && c ≤ 'Z') ||
    Text.isAsciiDigit c || c == '_' || c == '-'

/- A tab or a character that is no control character. -/
def isPlain (c : Char) : Bool :=
  c == '\t' || (0x20 ≤ c.toNat && c.toNat != 0x7F)

/- Does a whole number fit into 64 bits with a sign? -/
def fitsInteger (n : Int) : Bool :=
  decide (-0x8000000000000000 ≤ n) &&
    decide (n < 0x8000000000000000)

/- The name under which a date is an entry by itself. -/
def dateKey : String := "$__toml_private_datetime"

end Toml

end Highlighter

import Highlighter.Text.Numeral

/-
  Colours and their notations.

  Key definitions include:
    * `Color`
    * `Color.ofHex?`
    * `Color.toHex`
    * `Color.ansi`
-/

namespace Highlighter

/- A colour by its red, green and blue parts. -/
structure Color where
  r : UInt8
  g : UInt8
  b : UInt8
deriving DecidableEq, Repr

namespace Color

/-
  The part that two characters stand for. The first of them
  may be a plus sign.
-/
def part? (high low : Char) : Option UInt8 :=
  match Text.hexDigit? low with
  | none => none
  | some l =>
      if high = '+' then
        some (UInt8.ofNat l)
      else
        (Text.hexDigit? high).map fun h => UInt8.ofNat (16 * h + l)

/- The part that one digit stands for when doubled. -/
def shortPart? (c : Char) : Option UInt8 :=
  (Text.hexDigit? c).map fun v => UInt8.ofNat (17 * v)

/- The colour written as `#rrggbb` or `#rgb`. -/
def ofHex? : Text → Option Color
  | ['#', r₁, r₂, g₁, g₂, b₁, b₂] => do
      let r ← part? r₁ r₂
      let g ← part? g₁ g₂
      let b ← part? b₁ b₂
      some ⟨r, g, b⟩
  | ['#', r, g, b] => do
      let r ← shortPart? r
      let g ← shortPart? g
      let b ← shortPart? b
      some ⟨r, g, b⟩
  | _ => none

/- A part written with two lower-case digits. -/
def partText (n : UInt8) : Text :=
  Text.paddedHex Text.lowerDigit 2 n.toNat

/- A colour written as `#rrggbb`. -/
def toHex (c : Color) : Text :=
  '#' :: (partText c.r ++ partText c.g ++ partText c.b)

/- A part written in decimal. -/
def decimal (n : UInt8) : Text := Text.decimal n.toNat

/- The escape sequence that makes a terminal write in it. -/
def ansi (c : Color) : Text :=
  Char.ofNat 0x1B :: "[38;2;".toList ++ decimal c.r ++
    ';' :: decimal c.g ++ ';' :: decimal c.b ++ ['m']

end Color

end Highlighter

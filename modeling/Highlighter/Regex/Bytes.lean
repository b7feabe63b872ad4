import Highlighter.Regex

/-
  The UTF-8 forms of the characters of a set, as sequences
  of ranges of bytes.

  Key definitions include:
    * `ByteRange`
    * `ByteRange.forms`
    * `ByteRange.encode`
    * `CharSet.ranges`
    * `CharSet.rangeCount`
-/

namespace Highlighter

------------------------------------------------------------
-- Ranges of bytes
------------------------------------------------------------

/- The bytes from `low` to `high`. -/
structure ByteRange where
  low : Nat
  high : Nat
deriving DecidableEq, Repr

namespace ByteRange

/- One byte. -/
def single (byte : Nat) : ByteRange := ⟨byte, byte⟩

/- All bytes that go on with a character. -/
def continuation : ByteRange := ⟨0x80, 0xBF⟩

/-
  The forms of the numbers from `low` to `high` that are
  written with a first byte from `lead` on and `count`
  bytes of six bits after it. Numbers that share their first
  byte are cut further; those in between that fill whole
  blocks are one form.
-/
def blocks : Nat → Nat → Nat → Nat → List (List ByteRange)
  | 0, lead, low, high => [[⟨lead + low, lead + high⟩]]
  | count + 1, lead, low, high =>
      let unit := 64 * Nat.pow 64 count
      let first := low / unit
      let last := high / unit
      let part := fun (block low high : Nat) =>
        (blocks count 0x80 low high).map
          (single (lead + block) :: ·)
      if first = last then
        part first (low % unit) (high % unit)
      else
        let cutFirst := low % unit ≠ 0
        let cutLast := high % unit + 1 ≠ unit
        let start := if cutFirst then first + 1 else first
        let stop := if cutLast then last else last + 1
        let head :=
          if cutFirst then part first (low % unit) (unit - 1)
          else []
        let middle :=
          if start < stop then
            [⟨lead + start, lead + stop - 1⟩ ::
              List.replicate (count + 1) continuation]
          else
            []
        let tail :=
          if cutLast then part last 0 (high % unit) else []
        head ++ middle ++ tail

/-
  The code points by the number of bytes that follow the
  first one: their bounds, that number and the first byte
  for zero. Surrogates are no characters.
-/
def planes : List (Nat × Nat × Nat × Nat) :=
  [(0x0, 0x7F, 0, 0x0), (0x80, 0x7FF, 1, 0xC0),
   (0x800, 0xD7FF, 2, 0xE0), (0xE000, 0xFFFF, 2, 0xE0),
   (0x10000, 0x10FFFF, 3, 0xF0)]

/- The forms of the characters from `low` to `high`. -/
def forms (low high : Nat) : List (List ByteRange) :=
  planes.flatMap fun (bottom, top, count, lead) =>
    let low := max low bottom
    let high := min high top
    if low ≤ high then blocks count lead low high else []

/- The forms of the characters of a table, in order. -/
def tableForms (t : Text.RangeTable) : List (List ByteRange) :=
  t.flatMap fun (low, high) => forms low high

/- The bytes of a character. -/
def encode (c : Char) : List Nat :=
  (forms c.toNat c.toNat).flatten.map ByteRange.low

end ByteRange

------------------------------------------------------------
-- Tables of sets
------------------------------------------------------------

namespace CharSet

/- The characters of a set as a table. -/
def ranges : CharSet → Text.RangeTable
  | range low high =>
      if low ≤ high then [(low.toNat, high.toNat)] else []
  | digit => Text.digitRanges
  | blank => Text.blankRanges
  | word => Text.wordRanges
  | union a b => Text.RangeTable.union a.ranges b.ranges
  | inter a b => Text.RangeTable.inter a.ranges b.ranges
  | compl a => Text.RangeTable.compl a.ranges

/-
  At least the number of ranges in the table of a set.
-/
def rangeCount : CharSet → Nat
  | range _ _ => 1
  | digit => 100
  | blank => 10
  | word => 1000
  | union a b => a.rangeCount + b.rangeCount
  | inter a b => a.rangeCount + b.rangeCount + 3
  | compl a => a.rangeCount + 1

end CharSet

end Highlighter

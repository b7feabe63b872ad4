import Highlighter.Text

/-
  Sets of characters given by sorted tables of code point
  ranges.

  Key definitions include:
    * `Text.RangeTable`
    * `Text.RangeTable.contains`
    * `Text.RangeTable.union`
    * `Text.RangeTable.compl`
    * `Text.blankRanges`
-/

namespace Highlighter

namespace Text

/-
  Ranges of code points, ends included, in rising order.
-/
abbrev RangeTable := List (Nat × Nat)

namespace RangeTable

/- Look a code point up, giving up once it is passed. -/
def contains (n : Nat) : RangeTable → Bool
  | [] => false
  | (low, high) :: rest =>
      if n < low then
        false
      else if n ≤ high then
        true
      else
        contains n rest

/- A code point is in the first range or in the others. -/
theorem contains_cons (n low high : Nat) (rest : RangeTable) :
    contains n ((low, high) :: rest) =
      (decide (low ≤ n) &&
        (decide (n ≤ high) || contains n rest)) := by
  by_cases hlow : n < low
  · simp [contains, hlow, Nat.not_le.mpr hlow]
  · by_cases hhigh : n ≤ high
    · simp [contains, hlow, hhigh, Nat.not_lt.mp hlow]
    · simp [contains, hlow, hhigh, Nat.not_lt.mp hlow]

/-
  Put a range into a table. Ranges that overlap or touch
  become one.
-/
def insert (low high : Nat) : RangeTable → RangeTable
  | [] => [(low, high)]
  | (a, b) :: rest =>
      if high + 1 < a then
        (low, high) :: (a, b) :: rest
      else if b + 1 < low then
        (a, b) :: insert low high rest
      else
        insert (min low a) (max high b) rest

/- The code points of either table. -/
def union (s t : RangeTable) : RangeTable :=
  s.foldl (fun t range => insert range.1 range.2 t) t

/- What a table leaves out from a code point on. -/
def gapsFrom (start : Nat) : RangeTable → RangeTable
  | [] => if start ≤ 0x10FFFF then [(start, 0x10FFFF)] else []
  | (low, high) :: rest =>
      if start < low then
        (start, low - 1) :: gapsFrom (high + 1) rest
      else
        gapsFrom (high + 1) rest

/- The code points that a table leaves out. -/
def compl (s : RangeTable) : RangeTable := gapsFrom 0 s

/- The code points of both tables. -/
def inter (s t : RangeTable) : RangeTable :=
  compl (union (compl s) (compl t))

end RangeTable

/- The blanks as a table. -/
def blankRanges : RangeTable :=
  [
    (0x9, 0xD), (0x20, 0x20), (0x85, 0x85), (0xA0, 0xA0),
    (0x1680, 0x1680), (0x2000, 0x200A), (0x2028, 0x2029),
    (0x202F, 0x202F), (0x205F, 0x205F), (0x3000, 0x3000)
  ]

/- The table has the blanks and nothing else. -/
theorem contains_blankRanges (c : Char) :
    RangeTable.contains c.toNat blankRanges = isBlank c := by
  have nothing (n : Nat) : RangeTable.contains n [] = false :=
    rfl
  rw [Bool.eq_iff_iff]
  simp only [blankRanges, RangeTable.contains_cons, nothing,
    isBlank, Bool.and_eq_true, Bool.or_eq_true,
    decide_eq_true_eq, beq_iff_eq, Bool.false_eq_true,
    or_false]
  omega

end Text

end Highlighter

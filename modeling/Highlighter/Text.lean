/-
  Texts as lists of characters, measured in UTF-8 bytes,
  and the lines they fall into.

  Key definitions include:
    * `Text.size`
    * `Text.suffixAt`
    * `Text.isBlank`
    * `Text.trimStart`
    * `Text.breakLength`
    * `Text.currentLine`
    * `Text.lines`
-/

namespace Highlighter

/- A text is a list of Unicode scalar values. -/
abbrev Text := List Char

namespace Text

------------------------------------------------------------
-- Byte sizes and offsets
------------------------------------------------------------

/- Number of bytes of a text in UTF-8. -/
def size : Text → Nat
  | [] => 0
  | c :: rest => c.utf8Size + size rest

@[simp]
theorem size_nil : size [] = 0 := rfl

@[simp]
theorem size_cons (c : Char) (t : Text) :
    size (c :: t) = c.utf8Size + size t := rfl

@[simp]
theorem size_append (s t : Text) :
    size (s ++ t) = size s + size t := by
  induction s with
  | nil => simp
  | cons c s ih => simp [ih, Nat.add_assoc]

/- Only the empty text has no bytes. -/
theorem size_pos {t : Text} (h : t ≠ []) : 0 < size t := by
  cases t with
  | nil => exact absurd rfl h
  | cons c t =>
      have := Char.utf8Size_pos c
      simp only [size_cons]
      omega

/-
  The part of a text from a byte offset on. There is none
  when the offset lies past the end or inside a character.
-/
def suffixAt : Text → Nat → Option Text
  | t, 0 => some t
  | [], _ + 1 => none
  | c :: rest, n + 1 =>
      if c.utf8Size ≤ n + 1 then
        suffixAt rest (n + 1 - c.utf8Size)
      else
        none

/- A text written in parts. -/
def ofParts (parts : List String) : Text :=
  parts.flatMap String.toList

/- The characters from position `i` up to position `j`. -/
def slice (t : Text) (i j : Nat) : Text :=
  (t.drop i).take (j - i)

------------------------------------------------------------
-- Blanks
------------------------------------------------------------

/- The characters with the Unicode property White_Space. -/
def isBlank (c : Char) : Bool :=
  let n := c.toNat
  (9 ≤ n && n ≤ 13) || n == 0x20 || n == 0x85 ||
    n == 0xA0 || n == 0x1680 ||
    (0x2000 ≤ n && n ≤ 0x200A) ||
    n == 0x2028 || n == 0x2029 || n == 0x202F ||
    n == 0x205F || n == 0x3000

/- A text without its leading blanks. -/
def trimStart (t : Text) : Text :=
  t.dropWhile isBlank

/- The leading blanks of a text. -/
def leadingBlanks (t : Text) : Text :=
  t.takeWhile isBlank

/- A text of blanks only. -/
def isBlankText (t : Text) : Bool :=
  t.all isBlank

/- A text is its leading blanks followed by the rest. -/
theorem leadingBlanks_append_trimStart (t : Text) :
    leadingBlanks t ++ trimStart t = t :=
  List.takeWhile_append_dropWhile

------------------------------------------------------------
-- Line breaks
------------------------------------------------------------

/- The two characters that line breaks are made of. -/
def isBreakChar (c : Char) : Bool :=
  c == '\n' || c == '\r'

/- The line breaks: `\n`, `\r\n` and a lone `\r`. -/
def isLineBreak (t : Text) : Bool :=
  t == ['\n'] || t == ['\r', '\n'] || t == ['\r']

/-
  The number of characters of the line break that a text
  begins with, zero if it begins with none.
-/
def breakLength : Text → Nat
  | '\r' :: '\n' :: _ => 2
  | c :: _ => if isBreakChar c then 1 else 0
  | [] => 0

/- The part of a text before its first line break. -/
def currentLine (t : Text) : Text :=
  t.takeWhile (fun c => !isBreakChar c)

/- One line and the line break after it. -/
structure Line where
  body : Text
  terminator : Text
deriving DecidableEq, Repr

/- Put a character in front of the first of some lines. -/
def extendFirst (c : Char) : List Line → List Line
  | [] => [⟨[c], []⟩]
  | line :: rest => ⟨c :: line.body, line.terminator⟩ :: rest

/-
  The lines of a text. The last line has an empty
  terminator, so the empty text is one line.
-/
def lines : Text → List Line
  | [] => [⟨[], []⟩]
  | '\r' :: '\n' :: rest => ⟨[], ['\r', '\n']⟩ :: lines rest
  | c :: rest =>
      if isBreakChar c then
        ⟨[], [c]⟩ :: lines rest
      else
        extendFirst c (lines rest)

/- A text that starts with a break breaks off right there. -/
theorem breakLength_pos_iff (c : Char) (t : Text) :
    0 < breakLength (c :: t) ↔ isBreakChar c = true := by
  unfold breakLength
  split
  · rename_i h
    cases h
    simp [isBreakChar]
  · rename_i h
    cases h
    split <;> simp_all
  · rename_i h
    cases h

/- A line break takes up no more than the text has. -/
theorem breakLength_le (t : Text) :
    breakLength t ≤ t.length := by
  unfold breakLength
  split
  · simp
  · split <;> simp
  · simp

end Text

end Highlighter

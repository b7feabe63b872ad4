import Highlighter.Regex.Reads
import Highlighter.Regex.Source

/-
  Patterns tried at the start of a line: anchored regular
  expressions and searches for a literal.

  Key definitions include:
    * `Pattern`
    * `Pattern.matchLength`
    * `Pattern.Source`
    * `Pattern.compileWith?`
    * `Pattern.compile?`
-/

namespace Highlighter

/-
  A pattern is a regular expression, or everything up to the
  first occurrence of a literal.
-/
inductive Pattern
  | regex (a : Regex)
  | upTo (literal : Text)
deriving DecidableEq, Repr

namespace Pattern

/-
  The number of characters before the first occurrence of a
  literal, all of them if it does not occur.
-/
def lengthUpTo (literal : Text) : Text → Nat
  | [] => 0
  | c :: rest =>
      if literal.isPrefixOf (c :: rest) then
        0
      else
        lengthUpTo literal rest + 1

/-
  The number of characters from the start of a line to the
  end of the match in it. It may be zero.
-/
def matchLength (line : Text) : Pattern → Option Nat
  | regex a => (a.find line).map Regex.Match.stop
  | upTo literal => some (lengthUpTo literal line)

/- A literal is looked for inside the line. -/
theorem lengthUpTo_le (literal line : Text) :
    lengthUpTo literal line ≤ line.length := by
  induction line with
  | nil => simp [lengthUpTo]
  | cons c rest ih =>
      simp only [lengthUpTo, List.length_cons]
      split
      · omega
      · omega

/- A match ends inside the line. -/
theorem matchLength_le
    {p : Pattern}
    {line : Text}
    {n : Nat}
    (h : p.matchLength line = some n) : n ≤ line.length := by
  cases p with
  | regex a =>
      simp only [matchLength, Option.map_eq_some_iff] at h
      obtain ⟨m, hm, rfl⟩ := h
      exact Regex.find_stop_le hm
  | upTo literal =>
      simp only [matchLength, Option.some.injEq] at h
      rw [← h]
      exact lengthUpTo_le literal line

/- The same length in bytes. -/
def matchSize (line : Text) (p : Pattern) : Option Nat :=
  (p.matchLength line).map (fun n => Text.size (line.take n))

------------------------------------------------------------
-- Compilation
------------------------------------------------------------

/- The written form of a pattern. -/
inductive Source
  | regex (source : Text)
  | upTo (literal : Text)
deriving DecidableEq, Repr

/-
  A regular expression in its group and anchored at the
  start. This is done to the text of the expression, so an
  expression that closes the group itself gets past it.
-/
def anchoredSource (source : Text) : Text :=
  "^(?:".toList ++ source ++ ")".toList

/- The pattern that a written form stands for, to a reader. -/
def compileWith? (read : Regex.Reader) :
    Source → Option Pattern
  | Source.regex source =>
      (read (anchoredSource source)).map regex
  | Source.upTo literal => some (upTo literal)

/- What it stands for to the reader of this library. -/
def compile? : Source → Option Pattern :=
  compileWith? Regex.ofSource?

end Pattern

end Highlighter

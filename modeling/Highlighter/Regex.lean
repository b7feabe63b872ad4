import Highlighter.Text.Word

/-
  Regular expressions over texts.

  Key definitions include:
    * `CharSet`
    * `CharSet.contains`
    * `Assertion`
    * `Assertion.holds`
    * `Regex`
    * `Regex.nullable`
    * `Regex.opensWith`
    * `Regex.closesWith`
    * `Regex.choices`
    * `Regex.repeated`
-/

namespace Highlighter

------------------------------------------------------------
-- Sets of characters
------------------------------------------------------------

/- Sets of characters, closed under the set operations. -/
inductive CharSet
  | range (low high : Char)
  | digit
  | blank
  | word
  | union (a b : CharSet)
  | inter (a b : CharSet)
  | compl (a : CharSet)
deriving DecidableEq, Repr

namespace CharSet

/- Membership. -/
def contains (c : Char) : CharSet → Bool
  | range low high => low ≤ c && c ≤ high
  | digit => Text.isDigit c
  | blank => Text.isBlank c
  | word => Text.isWordChar c
  | union a b => a.contains c || b.contains c
  | inter a b => a.contains c && b.contains c
  | compl a => !a.contains c

/- The set of one character. -/
def single (c : Char) : CharSet := range c c

/- The set of all characters. -/
def all : CharSet := range (Char.ofNat 0) (Char.ofNat 0x10FFFF)

/- The set of no character. -/
def none : CharSet := compl all

/- The union of a list of sets. -/
def unions : List CharSet → CharSet
  | [] => none
  | [a] => a
  | a :: rest => union a (unions rest)

/- The characters of the one set that the other lacks. -/
def diff (a b : CharSet) : CharSet := inter a (compl b)

/- The characters that exactly one of two sets has. -/
def symmDiff (a b : CharSet) : CharSet :=
  inter (union a b) (compl (inter a b))

/- Every character but the line feed. -/
def notNewline : CharSet := compl (single '\n')

/- The digits `0` to `9`. -/
def asciiDigit : CharSet := range '0' '9'

/- The blanks among the ASCII characters. -/
def asciiBlank : CharSet :=
  union (range '\t' '\r') (single ' ')

/- ASCII letters, ASCII digits and the underscore. -/
def asciiWord : CharSet :=
  unions [range '0' '9', range 'A' 'Z', single '_',
    range 'a' 'z']

/- Does a set have ASCII characters only? -/
def isAscii : CharSet → Bool
  | range _ high => high.toNat < 0x80
  | digit | blank | word => false
  | union a b => a.isAscii && b.isAscii
  | inter a b => a.isAscii || b.isAscii
  | compl _ => false

end CharSet

------------------------------------------------------------
-- Assertions
------------------------------------------------------------

/- What an assertion on words asks for at a position. -/
inductive WordEdge
  | boundary
  | inside
  | start
  | stop
  | startHalf
  | stopHalf
deriving DecidableEq, Repr

/-
  Conditions on the character before and the character
  after a position, either of which may be missing.
-/
inductive Assertion
  | textStart
  | textEnd
  | lineStart
  | lineEnd
  | word (edge : WordEdge)
  | asciiWord (edge : WordEdge)
deriving DecidableEq, Repr

namespace WordEdge

/- Is the edge there between two characters? -/
def holds : WordEdge → Bool → Bool → Bool
  | boundary, before, after => before != after
  | inside, before, after => before == after
  | start, before, after => !before && after
  | stop, before, after => before && !after
  | startHalf, before, _ => !before
  | stopHalf, _, after => !after

end WordEdge

namespace Assertion

/- Does the assertion hold between two characters? -/
def holds (before after : Option Char) : Assertion → Bool
  | textStart => before.isNone
  | textEnd => after.isNone
  | lineStart => before.all (· == '\n')
  | lineEnd => after.all (· == '\n')
  | word edge =>
      edge.holds (before.any Text.isWordChar)
        (after.any Text.isWordChar)
  | asciiWord edge =>
      edge.holds (before.any Text.isAsciiWordChar)
        (after.any Text.isAsciiWordChar)

end Assertion

------------------------------------------------------------
-- Expressions
------------------------------------------------------------

/-
  Regular expressions with prioritised choice. `times` takes
  at least `low` rounds of its body and at most `high` if
  there is a bound, as many as possible when `greedy` and as
  few otherwise. A group without a number only brackets.
-/
inductive Regex
  | empty
  | set (chars : CharSet)
  | assert (condition : Assertion)
  | cat (a b : Regex)
  | alt (a b : Regex)
  | times (low : Nat) (high : Option Nat) (greedy : Bool)
      (body : Regex)
  | group (index : Option Nat) (body : Regex)
deriving DecidableEq, Repr

namespace Regex

/- Can the expression match without reading anything? -/
def nullable : Regex → Bool
  | empty => true
  | set _ => false
  | assert _ => true
  | cat a b => a.nullable && b.nullable
  | alt a b => a.nullable || b.nullable
  | times low _ _ body => low == 0 || body.nullable
  | group _ body => body.nullable

/- Does the expression never read anything? -/
def readsNothing : Regex → Bool
  | empty => true
  | set _ => false
  | assert _ => true
  | cat a b => a.readsNothing && b.readsNothing
  | alt a b => a.readsNothing && b.readsNothing
  | times _ _ _ body => body.readsNothing
  | group _ body => body.readsNothing

/-
  Does every match of the expression begin where a condition
  holds? This may answer no when the truth is yes.
-/
def opensWith (condition : Assertion) : Regex → Bool
  | empty => false
  | set _ => false
  | assert c => c == condition
  | cat a b =>
      a.opensWith condition ||
        (a.readsNothing && b.opensWith condition)
  | alt a b => a.opensWith condition && b.opensWith condition
  | times low _ _ body => 0 < low && body.opensWith condition
  | group _ body => body.opensWith condition

/- Does every match end where a condition holds? -/
def closesWith (condition : Assertion) : Regex → Bool
  | empty => false
  | set _ => false
  | assert c => c == condition
  | cat a b =>
      b.closesWith condition ||
        (b.readsNothing && a.closesWith condition)
  | alt a b => a.closesWith condition && b.closesWith condition
  | times low _ _ body => 0 < low && body.closesWith condition
  | group _ body => body.closesWith condition

/-
  The number of choices that a match can come to. Each copy
  of a repeated body has choices of its own, a round that
  may be left out is one more choice, and a loop has two: to
  begin it and to go on with it.
-/
def choices : Regex → Nat
  | empty => 0
  | set _ => 0
  | assert _ => 0
  | cat a b => a.choices + b.choices
  | alt a b => a.choices + b.choices + 1
  | times low none _ body =>
      (low - 1) * body.choices + (body.choices + 2)
  | times low (some high) _ body =>
      low * body.choices + (high - low) * (body.choices + 1)
  | group _ body => body.choices

------------------------------------------------------------
-- Building expressions
------------------------------------------------------------

/- One character. -/
def char (c : Char) : Regex := set (CharSet.single c)

/- Expressions one after the other. -/
def concat : List Regex → Regex
  | [] => empty
  | [a] => a
  | a :: rest => cat a (concat rest)

/- A choice between expressions, the first one preferred. -/
def choice : List Regex → Regex
  | [] => empty
  | [a] => a
  | a :: rest => alt a (choice rest)

/-
  Between `low` and `high` rounds, without an upper bound
  when `high` is missing. An expression that reads nothing
  is not repeated.
-/
def repeated (greedy : Bool) (low : Nat) (high : Option Nat)
    (a : Regex) : Regex :=
  let low := if a.readsNothing then min low 1 else low
  let high :=
    if a.readsNothing then some (min (high.getD 1) 1)
    else high
  if high = some 0 then
    empty
  else if low = 1 ∧ high = some 1 then
    a
  else
    times low high greedy a

/- Any number of rounds, as many as possible. -/
def many (a : Regex) : Regex := repeated true 0 none a

end Regex

end Highlighter

import Highlighter.Regex.Bytes

/-
  Regular expressions in a simplified form, from which the
  size of automata for them is told.

  Key definitions include:
    * `Shape`
    * `Shape.concat`
    * `Shape.choice`
    * `Shape.reads`
    * `Regex.branches`
    * `Regex.shape`
-/

namespace Highlighter

/-
  Expressions in which neighbouring characters are one
  literal, bracketing is forgotten, and sets are tables.
-/
inductive Shape
  | empty
  | literal (text : Text)
  | set (ranges : Text.RangeTable)
  | look (condition : Assertion)
  | cat (parts : List Shape)
  | alt (branches : List Shape)
  | times (low : Nat) (high : Option Nat) (greedy : Bool)
      (body : Shape)
  | capture (index : Nat) (body : Shape)
deriving BEq, Repr

namespace Shape

/- A set, which is a literal if it has one character. -/
def ofRanges : Text.RangeTable → Shape
  | [(low, high)] =>
      if low = high then literal [Char.ofNat low]
      else set [(low, high)]
  | ranges => set ranges

------------------------------------------------------------
-- Concatenation
------------------------------------------------------------

/- What a shape is a concatenation of. -/
def parts : Shape → List Shape
  | empty => []
  | cat parts => parts
  | s => [s]

/- Parts in front of others, literals that meet joined. -/
def joinParts : List Shape → List Shape → List Shape
  | [], after => after
  | [literal s], literal t :: after => literal (s ++ t) :: after
  | s :: rest, after => s :: joinParts rest after

/- The shape with given parts. -/
def ofParts : List Shape → Shape
  | [] => empty
  | [s] => s
  | parts => cat parts

/- One shape after another. -/
def concat (s t : Shape) : Shape :=
  ofParts (joinParts s.parts t.parts)

------------------------------------------------------------
-- Choice
------------------------------------------------------------

/- What a shape is a choice between. -/
def options : Shape → List Shape
  | alt branches => branches
  | s => [s]

/- The code point of a literal of one character. -/
def onlyChar? : Shape → Option Nat
  | literal [c] => some c.toNat
  | _ => none

/- The table of a set. -/
def table? : Shape → Option Text.RangeTable
  | set ranges => some ranges
  | _ => none

/- The values of a function that has one for each element. -/
def all? {α : Type} (f : Shape → Option α) :
    List Shape → Option (List α)
  | [] => some []
  | s :: rest => do
      let a ← f s
      let rest ← all? f rest
      some (a :: rest)

/-
  A choice in which single characters, or sets, become one
  set when there is nothing else.
-/
def mergeChoice (shapes : List Shape) : Shape :=
  match shapes.flatMap options with
  | [s] => s
  | branches =>
      match all? onlyChar? branches, all? table? branches with
      | some chars, _ =>
          ofRanges (chars.foldl
            (fun t n => Text.RangeTable.insert n n t) [])
      | none, some tables =>
          ofRanges (tables.foldl Text.RangeTable.union [])
      | none, none => alt branches

/- The parts of a true concatenation. -/
def catParts? : Shape → Option (List Shape)
  | cat parts => some parts
  | _ => none

/- How many parts two lists share at their beginning. -/
def sharedLength : List Shape → List Shape → Nat
  | s :: ss, t :: ts => if s == t then sharedLength ss ts + 1 else 0
  | _, _ => 0

/-
  A choice. Parts that all branches begin with are taken out
  in front of it.
-/
def choice (shapes : List Shape) : Shape :=
  let merged := mergeChoice shapes
  match all? catParts? merged.options with
  | some (first :: second :: others) =>
      let rest := second :: others
      let shared :=
        rest.foldl
          (fun n parts => min n (sharedLength first parts))
          first.length
      if shared = 0 then
        merged
      else
        concat (ofParts (first.take shared))
          (mergeChoice ((first :: rest).map
            fun parts => ofParts (parts.drop shared)))
  | _ => merged

------------------------------------------------------------
-- Reading
------------------------------------------------------------

mutual

/- Does every match of the shape read something? -/
def reads : Shape → Bool
  | empty => false
  | literal _ => true
  | set ranges => !ranges.isEmpty
  | look _ => false
  | cat parts => anyReads parts
  | alt branches => allRead branches
  | times low _ _ body => 0 < low && body.reads
  | capture _ body => body.reads

/- Does one of some shapes always read something? -/
def anyReads : List Shape → Bool
  | [] => false
  | s :: rest => s.reads || anyReads rest

/- Do all of some shapes always read something? -/
def allRead : List Shape → Bool
  | [] => true
  | s :: rest => s.reads && allRead rest

end

end Shape

------------------------------------------------------------
-- Shapes of expressions
------------------------------------------------------------

namespace Regex

/- The branches of an expression, one if it is no choice. -/
def branches : Regex → List Shape
  | empty => [Shape.empty]
  | set chars => [Shape.ofRanges chars.ranges]
  | assert condition => [Shape.look condition]
  | cat a b =>
      [Shape.concat (Shape.choice a.branches)
        (Shape.choice b.branches)]
  | alt a b => a.branches ++ b.branches
  | times low high greedy body =>
      [Shape.times low high greedy
        (Shape.choice body.branches)]
  | group none body => [Shape.choice body.branches]
  | group (some index) body =>
      [Shape.capture index (Shape.choice body.branches)]

/- The simplified form of an expression. -/
def shape (a : Regex) : Shape := Shape.choice a.branches

end Regex

end Highlighter

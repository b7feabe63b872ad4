import Highlighter.Regex.Class
import Highlighter.Regex.Footprint

/-
  The written form of regular expressions.

  Key definitions include:
    * `Regex.OpenGroup`
    * `Regex.Reading`
    * `Regex.Reading.step`
    * `Regex.Reader`
    * `Regex.ofSource?`
-/

namespace Highlighter

namespace Regex

------------------------------------------------------------
-- What has been read
------------------------------------------------------------

/-
  How deep groups, repetitions, choices, concatenations and
  classes may lie in each other.
-/
def nestLimit : Nat := 250

/-
  A part of a concatenation: an expression and how deep it
  nests, or a change of flags, which matches nothing and
  cannot be repeated.
-/
inductive Part
  | expr (a : Regex) (height : Nat)
  | flags
deriving DecidableEq, Repr

namespace Part

/- The expression of a part, if it is one. -/
def regex? : Part → Option Regex
  | expr a _ => some a
  | flags => none

/- How deep a part nests. -/
def height : Part → Nat
  | expr _ height => height
  | flags => 0

end Part

/-
  The branches of a choice read so far and how deep each
  nests, newest first, and the parts of the branch being
  read, newest first.
-/
structure Branches where
  finished : List (Regex × Nat)
  parts : List Part
deriving DecidableEq, Repr

namespace Branches

/- Nothing read. -/
def start : Branches := ⟨[], []⟩

/-
  The height of what holds others together: one more than
  the highest, but nothing holds a single one.
-/
def heightOver (heights : List Nat) : Nat :=
  let highest := heights.foldl max 0
  if heights.length < 2 then highest else highest + 1

/- The branch being read. -/
def current (b : Branches) : Regex × Nat :=
  (concat (b.parts.reverse.filterMap Part.regex?),
    heightOver (b.parts.map Part.height))

/- Go on to the next branch. -/
def next (b : Branches) : Branches :=
  ⟨b.current :: b.finished, []⟩

/- The choice between all branches. -/
def close (b : Branches) : Regex × Nat :=
  let all := (b.current :: b.finished).reverse
  (choice (all.map Prod.fst), heightOver (all.map Prod.snd))

/- Add a part. -/
def add (part : Part) (b : Branches) : Branches :=
  { b with parts := part :: b.parts }

end Branches

/-
  A group whose closing bracket is still to come: its number
  if it captures, and the branches and flags around it.
-/
structure OpenGroup where
  index : Option Nat
  around : Branches
  flags : Flags
deriving DecidableEq, Repr

/-
  The state of reading an expression: the innermost open
  group with its flags, the groups around it, the number of
  capturing groups so far and the names given to them.
-/
structure Reading where
  branches : Branches
  flags : Flags
  outer : List OpenGroup
  groupCount : Nat
  names : List Text
deriving DecidableEq, Repr

namespace Reading

/- Nothing read. -/
def start : Reading := ⟨Branches.start, {}, [], 0, []⟩

/- Add an expression that nests so deep. -/
def add (a : Regex) (height : Nat) (r : Reading) : Reading :=
  { r with branches := r.branches.add (Part.expr a height) }

/- Open a group. -/
def openGroup (index : Option Nat) (flags : Flags)
    (r : Reading) : Reading :=
  { r with
    branches := Branches.start
    flags := flags
    outer := ⟨index, r.branches, r.flags⟩ :: r.outer }

/- Open a group that captures. -/
def openCapture (r : Reading) : Reading :=
  let index := r.groupCount + 1
  { r.openGroup (some index) r.flags with groupCount := index }

/- Close the innermost group. -/
def closeGroup (r : Reading) : Option Reading :=
  match r.outer with
  | [] => none
  | g :: outer =>
      let (body, height) := r.branches.close
      if height < nestLimit then
        some
          { r with
            branches :=
              g.around.add
                (Part.expr (group g.index body) (height + 1))
            flags := g.flags
            outer := outer }
      else
        none

------------------------------------------------------------
-- Repetition
------------------------------------------------------------

/-
  Repeat the last part. A question mark after the operator
  makes it prefer few rounds.
-/
def repeatLast (low : Nat) (high : Option Nat) (r : Reading)
    (rest : Text) : Option (Reading × Text) :=
  match r.branches.parts with
  | Part.expr a height :: parts =>
      let isLazy := rest.head? == some '?'
      let rest := if isLazy then rest.drop 1 else rest
      let greedy := isLazy == r.flags.swapGreed
      let part :=
        Part.expr (repeated greedy low high a) (height + 1)
      if height < nestLimit then
        some
          ({ r with
             branches := ⟨r.branches.finished, part :: parts⟩ },
           rest)
      else
        none
  | _ => none

/-
  The bounds of a counted repetition, given the text after
  the opening brace: one number, a number and a comma, or
  two numbers in order.
-/
def readBounds (t : Text) :
    Option ((Nat × Option Nat) × Text) := do
  let (low, rest) ← readDecimal t
  match rest with
  | '}' :: rest => some ((low, some low), rest)
  | ',' :: '}' :: rest => some ((low, none), rest)
  | ',' :: rest =>
      let (high, rest) ← readDecimal rest
      match rest with
      | '}' :: rest =>
          if low ≤ high then
            some ((low, some high), rest)
          else
            none
      | _ => none
  | _ => none

------------------------------------------------------------
-- Groups
------------------------------------------------------------

/- May the character stand in the name of a group? -/
def isNameChar (first : Bool) (c : Char) : Bool :=
  if first then
    c == '_' || (Text.isWordChar c && !Text.isDigit c)
  else
    Text.isWordChar c || c == '.' || c == '[' || c == ']'

/- The name of a group up to its closing angle bracket. -/
def readName (t : Text) : Option (Text × Text) :=
  let name := t.takeWhile (· != '>')
  match name, t.drop name.length with
  | c :: name, _ :: rest =>
      if isNameChar true c && name.all (isNameChar false) then
        some (c :: name, rest)
      else
        none
  | _, _ => none

/-
  Letters of modes, those after a hyphen switched off. A
  mode may be named once, the hyphen may come once and not
  at the end.
-/
def switchFlags (on : Bool) (seen : Text) (f : Flags) :
    Text → Option Flags
  | [] => if seen.head? = some '-' then none else some f
  | '-' :: rest =>
      if seen.contains '-' then
        none
      else
        switchFlags false ('-' :: seen) f rest
  | c :: rest =>
      if seen.contains c then
        none
      else do
        let f ← f.switch on c
        switchFlags on (c :: seen) f rest

/-
  What follows the opening bracket of a group: a name, a
  change of flags for the group or for the rest of the
  group around it, or nothing special.
-/
def readGroup (r : Reading) (t : Text) :
    Option (Reading × Text) :=
  let named := fun (rest : Text) => do
    let (name, rest) ← readName rest
    if r.names.contains name then
      none
    else
      some
        ({ r.openCapture with names := name :: r.names }, rest)
  match t with
  | '?' :: 'P' :: '<' :: rest => named rest
  | '?' :: '<' :: rest => named rest
  | '?' :: rest =>
      let letters :=
        rest.takeWhile (fun c => c != ':' && c != ')')
      match rest.drop letters.length with
      | ':' :: rest => do
          let flags ← switchFlags true [] r.flags letters
          some (r.openGroup none flags, rest)
      | _ :: rest =>
          if letters.isEmpty then
            none
          else do
            let flags ← switchFlags true [] r.flags letters
            some
              ({ r with
                 flags := flags
                 branches := r.branches.add Part.flags },
               rest)
      | [] => none
  | _ => some (r.openCapture, t)

------------------------------------------------------------
-- Reading
------------------------------------------------------------

/- Add the expression of an atom. -/
def addAtom (r : Reading) : Atom → Reading
  | Atom.char c => r.add (Regex.char c) 0
  | Atom.set s => r.add (Regex.set s) 0
  | Atom.assert condition => r.add (Regex.assert condition) 0

/- Read on from a character and the text after it. -/
def step (r : Reading) (c : Char) (rest : Text) :
    Option (Reading × Text) :=
  let multi := r.flags.multiLine
  match c with
  | '(' => r.readGroup rest
  | ')' => r.closeGroup.map (fun r => (r, rest))
  | '|' => some ({ r with branches := r.branches.next }, rest)
  | '[' => do
      let (s, rest) ← readClass r.flags rest
      some (r.add (Regex.set s.chars) s.height, rest)
  | '?' => r.repeatLast 0 (some 1) rest
  | '*' => r.repeatLast 0 none rest
  | '+' => r.repeatLast 1 none rest
  | '{' => do
      let ((low, high), rest) ← readBounds rest
      r.repeatLast low high rest
  | '.' =>
      let s :=
        if r.flags.dotAll then CharSet.all
        else CharSet.notNewline
      if r.flags.unicode then
        some (r.add (Regex.set s) 0, rest)
      else
        none
  | '^' =>
      let condition :=
        if multi then Assertion.lineStart
        else Assertion.textStart
      some (r.add (Regex.assert condition) 0, rest)
  | '$' =>
      let condition :=
        if multi then Assertion.lineEnd
        else Assertion.textEnd
      some (r.add (Regex.assert condition) 0, rest)
  | '\\' => do
      let (a, rest) ← readEscape r.flags rest
      some (r.addAtom a, rest)
  | _ => some (r.add (Regex.char c) 0, rest)

/-
  Read a text to its end. `fuel` bounds the steps; the
  characters of the text are enough.
-/
def readAll : Nat → Reading → Text → Option Reading
  | _, r, [] => some r
  | 0, _, _ :: _ => none
  | fuel + 1, r, c :: rest =>
      match r.step c rest with
      | none => none
      | some (r, rest) => readAll fuel r rest

end Reading

/-
  A reader of written expressions: it finds the expression
  that a text stands for, or rejects the text.
-/
abbrev Reader := Text → Option Regex

/-
  The reader of this library. A text stands for an expression
  if all its groups are closed and it is neither too deep nor
  too large. It knows neither the flags `i`, `x` and `R` nor
  the classes that `\p` names, and names groups by words.
-/
def ofSource? : Reader := fun t =>
  match Reading.start.readAll t.length t with
  | none => none
  | some r =>
      let (a, height) := r.branches.close
      if r.outer.isEmpty && height ≤ nestLimit && a.fits then
        some a
      else
        none

end Regex

end Highlighter

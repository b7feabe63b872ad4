import Highlighter.Regex
import Highlighter.Regex.Visits

/-
  Matching of regular expressions by backtracking: the first
  way to match in order of priority wins, and of all places
  to match at the leftmost one.

  A choice that was met at a position is not gone through
  there again: it has either failed, and would fail again,
  or it lies in a loop that has read nothing since. So a
  search goes through a choice once at each position, however
  many ways lead to it.

  Key definitions include:
    * `Regex.Place`
    * `Regex.Outcome`
    * `Regex.run`
    * `Regex.Match`
    * `Regex.find`
-/

namespace Highlighter

namespace Regex

------------------------------------------------------------
-- Places
------------------------------------------------------------

/- The part of a text that a numbered group matched. -/
structure Span where
  index : Nat
  start : Nat
  stop : Nat
deriving DecidableEq, Repr

/-
  A place reached in a text: the character before it, the
  text after it, the number of characters read, and the
  groups matched so far, newest first.
-/
structure Place where
  before : Option Char
  rest : Text
  pos : Nat
  groups : List Span
deriving DecidableEq, Repr

namespace Place

/- The place after the next character, if it is in a set. -/
def read (chars : CharSet) (p : Place) : Option Place :=
  match p.rest with
  | [] => none
  | c :: rest =>
      if chars.contains c then
        some ⟨some c, rest, p.pos + 1, p.groups⟩
      else
        none

/- Does an assertion hold at a place? -/
def allows (condition : Assertion) (p : Place) : Bool :=
  condition.holds p.before p.rest.head?

/-
  Note that a group reaches from a position to here, if it
  has a number.
-/
def close (index : Option Nat) (start : Nat) (p : Place) :
    Place :=
  match index with
  | none => p
  | some index =>
      { p with groups := ⟨index, start, p.pos⟩ :: p.groups }

end Place

------------------------------------------------------------
-- Backtracking
------------------------------------------------------------

/- An answer, or the choices met when there is none. -/
inductive Outcome (α : Type)
  | found (answer : α)
  | failed (visits : Visits)
deriving DecidableEq, Repr

namespace Outcome

variable {α : Type}

/- The answer, if there is one. -/
def answer? : Outcome α → Option α
  | found answer => some answer
  | failed _ => none

end Outcome

/- A way to go on from a place. -/
abbrev Next (α : Type) := Place → Visits → Outcome α

/-
  A way to match from a place and go on, its choices being
  numbered from a given number on.
-/
abbrev Runner (α : Type) :=
  Nat → Place → Visits → Next α → Outcome α

variable {α : Type}

/-
  A choice between two ways to go on. It fails if it was met
  at this position before.
-/
def choose
    (n pos : Nat)
    (first second : Visits → Outcome α)
    (v : Visits) : Outcome α :=
  if v.has n pos then
    Outcome.failed v
  else
    match first (v.mark n pos) with
    | Outcome.found answer => Outcome.found answer
    | Outcome.failed v => second v

/- A choice to go on with a loop or to leave it. -/
def goOn
    (greedy : Bool)
    (n pos : Nat)
    (again stop : Visits → Outcome α)
    (v : Visits) : Outcome α :=
  if greedy then choose n pos again stop v
  else choose n pos stop again v

/-
  A number of copies of a body in a row, each of which has
  `width` choices.
-/
def inRow (body : Runner α) (width : Nat) : Nat → Runner α
  | 0, _, p, v, k => k p v
  | count + 1, n, p, v, k =>
      body n p v fun q v =>
        inRow body width count (n + width) q v k

/-
  Up to a number of copies of a body, each of which may be
  left out together with those after it.
-/
def upTo (body : Runner α) (width : Nat) (greedy : Bool) :
    Nat → Runner α
  | 0, _, p, v, k => k p v
  | count + 1, n, p, v, k =>
      goOn greedy n p.pos
        (fun v =>
          body (n + 1) p v fun q v =>
            upTo body width greedy count (n + 1 + width) q v k)
        (k p) v

/-
  Further rounds of a loop. The text that was ahead at the
  beginning bounds them: a round that reads nothing comes to
  the same choice again and fails.
-/
def rounds (body : Runner α) (n : Nat) (greedy : Bool) :
    Text → Place → Visits → Next α → Outcome α
  | [], p, v, k => choose n p.pos (k p) Outcome.failed v
  | _ :: ahead, p, v, k =>
      goOn greedy n p.pos
        (fun v =>
          body (n + 1) p v fun q v =>
            rounds body n greedy ahead q v k)
        (k p) v

/- One round of a loop and further ones. -/
def oneOrMore (body : Runner α) (greedy : Bool) : Runner α :=
  fun n p v k =>
    body (n + 1) p v fun q v =>
      rounds body n greedy q.rest q v k

/-
  Match an expression from a place and go on with `k` from
  the places reached, in order of priority, until `k` gives
  an answer.
-/
def run : Regex → Runner α
  | empty, _, p, v, k => k p v
  | set chars, _, p, v, k =>
      match p.read chars with
      | none => Outcome.failed v
      | some q => k q v
  | assert condition, _, p, v, k =>
      if p.allows condition then k p v else Outcome.failed v
  | cat a b, n, p, v, k =>
      a.run n p v fun q v => b.run (n + a.choices) q v k
  | alt a b, n, p, v, k =>
      choose n p.pos
        (fun v => a.run (n + 1) p v k)
        (fun v => b.run (n + 1 + a.choices) p v k) v
  | times low (some high) greedy body, n, p, v, k =>
      let width := body.choices
      inRow body.run width low n p v fun q v =>
        upTo body.run width greedy (high - low)
          (n + low * width) q v k
  | times 0 none greedy body, n, p, v, k =>
      if body.nullable then
        goOn greedy n p.pos
          (fun v => oneOrMore body.run greedy (n + 1) p v k)
          (k p) v
      else
        rounds body.run n greedy p.rest p v k
  | times (low + 1) none greedy body, n, p, v, k =>
      let width := body.choices
      inRow body.run width low n p v fun q v =>
        oneOrMore body.run greedy (n + low * width) q v k
  | group index body, n, p, v, k =>
      body.run n p v fun q v => k (q.close index p.pos) v

------------------------------------------------------------
-- Searching
------------------------------------------------------------

/- A match: where it starts and the place it ends at. -/
structure Match where
  start : Nat
  place : Place
deriving DecidableEq, Repr

namespace Match

/- The position the match ends at. -/
def stop (m : Match) : Nat := m.place.pos

/-
  The part of the text that a group matched last. Group
  zero is the whole match.
-/
def group? (m : Match) (index : Nat) : Option (Nat × Nat) :=
  if index = 0 then
    some (m.start, m.stop)
  else
    (m.place.groups.find? (·.index == index)).map
      fun s => (s.start, s.stop)

end Match

/- A match that starts at the given position of a text. -/
def matchAt
    (a : Regex)
    (before : Option Char)
    (pos : Nat)
    (rest : Text)
    (v : Visits) : Outcome Match :=
  a.run 0 ⟨before, rest, pos, []⟩ v
    fun q _ => Outcome.found ⟨pos, q⟩

/-
  The leftmost match from a position on. What was met on the
  way to no match is not tried again from later positions.
-/
def findFrom
    (a : Regex)
    (before : Option Char)
    (pos : Nat) :
    Text → Visits → Outcome Match
  | [], v => a.matchAt before pos [] v
  | c :: rest, v =>
      match a.matchAt before pos (c :: rest) v with
      | Outcome.found m => Outcome.found m
      | Outcome.failed v =>
          a.findFrom (some c) (pos + 1) rest v

/-
  The leftmost match in a text. An expression that asks for
  the start of the text matches there or not at all.
-/
def find (a : Regex) (t : Text) : Option Match :=
  if a.opensWith Assertion.textStart then
    (a.matchAt none 0 t #[]).answer?
  else
    (a.findFrom none 0 t #[]).answer?

end Regex

end Highlighter

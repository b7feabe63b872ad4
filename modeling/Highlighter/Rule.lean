import Highlighter.Label
import Highlighter.Pattern
import Highlighter.State

/-
  Rules of a scan: a pattern and what becomes of the text
  that it matches.

  Key definitions include:
    * `Effect`
    * `Labelling`
    * `Rule`
    * `Piece`
    * `Hit`
    * `Rule.apply`
-/

namespace Highlighter

------------------------------------------------------------
-- Rules
------------------------------------------------------------

/- What a token does to the indentation after it. -/
inductive Effect
  | none
  | indent
  | dedent
deriving DecidableEq, Repr

namespace Effect

/- Every effect, in order of declaration. -/
def all : List Effect := [none, indent, dedent]

/- The name of an effect. -/
def name : Effect → String
  | none => "none"
  | indent => "indent"
  | dedent => "dedent"

end Effect

/-
  How the text of a match is labelled: as a whole, or by
  capture groups in the order listed, with the text between
  them unlabelled.
-/
inductive Labelling
  | whole (label : Option Label)
  | captures (groups : List (Nat × Option Label))
deriving DecidableEq, Repr

/-
  A rule with a pattern of type `P`: how it labels, the
  state it moves to, and whether it opens or closes a level
  of indentation.
-/
structure Rule (P : Type) where
  pattern : P
  labelling : Labelling
  next : Option State := none
  indents : Bool := false
  dedents : Bool := false
deriving DecidableEq, Repr

namespace Rule

variable {P : Type}

/- The effect of the tokens that a rule makes. -/
def effect (r : Rule P) : Effect :=
  if r.indents then Effect.indent
  else if r.dedents then Effect.dedent
  else Effect.none

/- The state after a rule fired in a state. -/
def stateAfter (r : Rule P) (state : State) : State :=
  r.next.getD state

/- The same rule with another pattern. -/
def withPattern {Q : Type} (r : Rule P) (pattern : Q) : Rule Q :=
  ⟨pattern, r.labelling, r.next, r.indents, r.dedents⟩

end Rule

------------------------------------------------------------
-- Hits
------------------------------------------------------------

/- A part of a match with its label. -/
structure Piece where
  label : Option Label
  text : Text
deriving DecidableEq, Repr

/-
  A rule that fired: the number of characters consumed and
  the pieces they were cut into.
-/
structure Hit where
  length : Nat
  pieces : List Piece
deriving DecidableEq, Repr

namespace Hit

/- The text between two positions as an unlabelled piece. -/
def gap (line : Text) (i j : Nat) : List Piece :=
  if i < j then [⟨none, line.slice i j⟩] else []

/-
  Cut a match into pieces from position `i` on. A group that
  is missing, empty, or begins before `i` is passed over.
-/
def cut (line : Text) (m : Regex.Match) :
    Nat → List (Nat × Option Label) → List Piece
  | i, [] => gap line i m.stop
  | i, (index, label) :: groups =>
      match m.group? index with
      | none => cut line m i groups
      | some (start, stop) =>
          if start < stop ∧ i ≤ start then
            gap line i start ++
              ⟨label, line.slice start stop⟩ ::
                cut line m stop groups
          else
            cut line m i groups

end Hit

namespace Rule

/-
  Try a rule at the start of a line. A match that consumes
  nothing is no hit.
-/
def apply (r : Rule Pattern) (line : Text) : Option Hit :=
  match r.pattern, r.labelling with
  | Pattern.regex a, Labelling.captures groups =>
      match a.find line with
      | none => none
      | some m =>
          if m.stop = 0 then
            none
          else
            some ⟨m.stop, Hit.cut line m 0 groups⟩
  | pattern, labelling =>
      match pattern.matchLength line with
      | none => none
      | some length =>
          if length = 0 then
            none
          else
            let label :=
              match labelling with
              | Labelling.whole label => label
              | Labelling.captures _ => none
            some ⟨length, [⟨label, line.take length⟩]⟩

/- A rule that fires consumes something. -/
theorem apply_length_pos
    {r : Rule Pattern}
    {line : Text}
    {hit : Hit}
    (h : r.apply line = some hit) :
    0 < hit.length := by
  unfold apply at h
  split at h
  · split at h
    · cases h
    · split at h
      · cases h
      · cases h
        simp only
        omega
  · split at h
    · cases h
    · split at h
      · cases h
      · cases h
        simp only
        omega

/- A rule that fires consumes no more than the line. -/
theorem apply_length_le
    {r : Rule Pattern}
    {line : Text}
    {hit : Hit}
    (h : r.apply line = some hit) :
    hit.length ≤ line.length := by
  unfold apply at h
  split at h
  · split at h
    · cases h
    · rename_i m hm
      split at h
      · cases h
      · cases h
        exact Regex.find_stop_le hm
  · split at h
    · cases h
    · rename_i n hn
      split at h
      · cases h
      · cases h
        exact Pattern.matchLength_le hn

end Rule

end Highlighter

import Highlighter.Token

/-
  Folding: the regions between matched brackets that reach
  over more than one line.

  Key definitions include:
    * `FoldRange`
    * `Bracket`
    * `FoldRange.scanFrom`
    * `FoldRange.ofTokens`
    * `FoldRange.atLine`
-/

namespace Highlighter

/-
  The text strictly between two brackets, in bytes, and the
  lines that the brackets stand on.
-/
structure FoldRange where
  opener : Nat
  closer : Nat
  startLine : Nat
  endLine : Nat
deriving DecidableEq, Repr

/- The two kinds of brackets that fold. -/
inductive Bracket
  | brace
  | square
deriving DecidableEq, Repr

namespace Bracket

/- The opening bracket of a kind. -/
def openText : Bracket → Text
  | brace => ['{']
  | square => ['[']

/- The closing bracket of a kind. -/
def closeText : Bracket → Text
  | brace => ['}']
  | square => [']']

/- Does a token open a bracket of a kind? -/
def opens (b : Bracket) (t : Token) : Bool :=
  t.effect == Effect.indent && t.text == b.openText

/- Does a token close a bracket of a kind? -/
def closes (b : Bracket) (t : Token) : Bool :=
  t.effect == Effect.dedent && t.text == b.closeText

end Bracket

namespace FoldRange

/- Where an open bracket ends and the line it stands on. -/
structure Opening where
  stop : Nat
  line : Nat
deriving DecidableEq, Repr

/- The brackets open at a point, innermost first by kind. -/
structure Openings where
  braces : List Opening
  squares : List Opening
deriving DecidableEq, Repr

namespace Openings

/- The open brackets of a kind. -/
def ofKind (o : Openings) : Bracket → List Opening
  | Bracket.brace => o.braces
  | Bracket.square => o.squares

/- Replace the open brackets of a kind. -/
def setKind (o : Openings) (stack : List Opening) :
    Bracket → Openings
  | Bracket.brace => { o with braces := stack }
  | Bracket.square => { o with squares := stack }

end Openings

/- The kind of bracket that a token opens. -/
def openedBy (t : Token) : Option Bracket :=
  [Bracket.brace, Bracket.square].find? (·.opens t)

/- The kind of bracket that a token closes. -/
def closedBy (t : Token) : Option Bracket :=
  [Bracket.brace, Bracket.square].find? (·.closes t)

/-
  The range between an opening and a token that closes it,
  if they stand on different lines.
-/
def between (o : Opening) (t : Token) (line : Nat) :
    List FoldRange :=
  if o.line < line then
    [⟨o.stop, t.start, o.line, line⟩]
  else
    []

/-
  The ranges that are closed by tokens from a line on, in
  order of their closing brackets.
-/
def scanFrom : Nat → Openings → List Token → List FoldRange
  | _, _, [] => []
  | line, o, t :: rest =>
      if t.isLineBreak then
        scanFrom (line + 1) o rest
      else
        match openedBy t with
        | some kind =>
            scanFrom line
              (o.setKind (⟨t.stop, line⟩ :: o.ofKind kind) kind)
              rest
        | none =>
            match closedBy t with
            | none => scanFrom line o rest
            | some kind =>
                match o.ofKind kind with
                | [] => scanFrom line o rest
                | opening :: stack =>
                    between opening t line ++
                      scanFrom line (o.setKind stack kind) rest

/- The ranges of some tokens, in order of their openings. -/
def ofTokens (tokens : List Token) : List FoldRange :=
  (scanFrom 0 ⟨[], []⟩ tokens).mergeSort
    (fun a b => decide (a.opener ≤ b.opener))

/- The first range that starts on a line. -/
def atLine (ranges : List FoldRange) (line : Nat) :
    Option FoldRange :=
  ranges.find? (fun r => r.startLine == line)

end FoldRange

end Highlighter

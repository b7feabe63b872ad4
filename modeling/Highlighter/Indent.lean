import Highlighter.Highlight
import Highlighter.Meta

/-
  Indentation from open brackets. A token that indents puts
  a level on a stack and one that dedents takes a level off.
  A level is the column it asks for: the indentation of the
  line it was opened on and one unit more. A line is meant
  to stand at the innermost level, less one level for every
  closing bracket that it starts with.

  Key definitions include:
    * `Column.wrap`
    * `IndentOptions`
    * `Text.indentation`
    * `Text.level`
    * `Text.reindent`
    * `Text.reindent?`
    * `RuleTable.closers`
    * `RuleTable.suggest`
    * `LineIndent`
    * `RuleTable.lineIndents`
-/

namespace Highlighter

------------------------------------------------------------
-- Columns
------------------------------------------------------------

namespace Column

/-
  The last column. Columns, as well as the widths that they
  are told by, are numbers of 64 bits.
-/
def last : Nat := 0xFFFFFFFFFFFFFFFF

/-
  The column that a sum comes to. Sums are not checked, so
  past the last column it starts over.
-/
def wrap (n : Nat) : Nat := n % (last + 1)

end Column

/-
  Settings of indentation: the columns of one level, the
  columns between tab stops, and whether to write tabs.
-/
structure IndentOptions where
  indentUnit : Nat := 2
  tabSize : Nat := 2
  useTabs : Bool := true
deriving DecidableEq, Repr

namespace Text

/- The column after a blank. A tab goes to the next stop. -/
def columnAfter (tabSize : Nat) (column : Nat) (c : Char) :
    Nat :=
  if c = '\t' then
    Column.wrap (column + tabSize - column % tabSize)
  else
    Column.wrap (column + 1)

/- The width in columns of the leading blanks of a line. -/
def indentation (line : Text) (tabSize : Nat) : Nat :=
  line.leadingBlanks.foldl (columnAfter (max tabSize 1)) 0

/-
  The level that brackets on a line open: the column of the
  line and one unit more.
-/
def level (line : Text) (options : IndentOptions) : Nat :=
  Column.wrap
    (line.indentation options.tabSize + options.indentUnit)

/- Blanks that reach a column. -/
def blanksTo (options : IndentOptions) (column : Nat) : Text :=
  if options.useTabs ∧ 0 < options.tabSize then
    List.replicate (column / options.tabSize) '\t' ++
      List.replicate (column % options.tabSize) ' '
  else
    List.replicate column ' '

/- Move a line to a column. -/
def reindent (line : Text) (column : Nat)
    (options : IndentOptions) : Text :=
  blanksTo options column ++ line.trimStart

/- The number of blanks that reach a column. -/
def blanksSize (options : IndentOptions) (column : Nat) : Nat :=
  if options.useTabs ∧ 0 < options.tabSize then
    column / options.tabSize + column % options.tabSize
  else
    column

/- The most bytes that a text can have. -/
def maxSize : Nat := 0x7FFFFFFFFFFFFFFF

/-
  The same where there is room for it. Room is made before
  any blank is written: a byte for each column, with tabs as
  well, and the bytes of the rest of the line. Then what is
  written takes the room that it needs. There is no room for
  more than a text can have.
-/
def reindent? (line : Text) (column : Nat)
    (options : IndentOptions) : Option Text :=
  let rest := line.trimStart.size
  if Column.wrap (column + rest) ≤ maxSize ∧
      blanksSize options column + rest ≤ maxSize then
    some (line.reindent column options)
  else
    none

end Text

------------------------------------------------------------
-- Suggestions
------------------------------------------------------------

namespace RuleTable

/-
  The number of dedents that a line starts with, found by
  the rules that dedent alone. A rule with a next state
  hands over to the rules of that state.
-/
def closers (table : RuleTable) (rules : List (Rule Pattern))
    (line : Text) : Nat :=
  match _h : firstHit line (rules.filter (·.dedents)) with
  | none => 0
  | some (r, hit) =>
      let rules :=
        match r.next with
        | none => rules
        | some state => table.rules state
      table.closers rules (line.drop hit.length) + 1
termination_by line.length
decreasing_by
  have hfire := firstHit_apply _h
  have hpos := Rule.apply_length_pos hfire
  have hle := Rule.apply_length_le hfire
  simp only [List.length_drop]
  omega

/-
  The column suggested for a line whose first character that
  is not blank starts `body`. `levels` are the levels open
  before the line, innermost first.
-/
def suggest
    (table : RuleTable)
    (m : LanguageMeta)
    (state : State)
    (levels : List Nat)
    (body : Text) : Option Nat :=
  if m.indentsIn state then
    let n := table.closers (table.rules state) body
    some ((levels.drop n).headD 0)
  else
    none

end RuleTable

------------------------------------------------------------
-- Lines
------------------------------------------------------------

/-
  The indentation of a line: its number, the state it starts
  in, the levels open before it, the change in their number
  across it, and the column suggested for it, if any.
-/
structure LineIndent where
  line : Nat
  startState : State
  depth : Nat
  delta : Int
  indent : Option Nat
deriving DecidableEq, Repr

namespace Token

/- The levels after a token; `level` is the one it opens. -/
def applyEffect (level : Nat) (levels : List Nat) (t : Token) :
    List Nat :=
  match t.effect with
  | Effect.indent => level :: levels
  | Effect.dedent => levels.tail
  | Effect.none => levels

/- The tokens before the first line break. -/
def beforeBreak (tokens : List Token) : List Token :=
  tokens.takeWhile (fun t => !t.isLineBreak)

/- The first line break and all tokens after it. -/
def fromBreak (tokens : List Token) : List Token :=
  tokens.dropWhile (fun t => !t.isLineBreak)

end Token

namespace RuleTable

/-
  The indentation of lines from a number on, given the state
  and the levels at the start of the first of them and the
  tokens from there on.
-/
def indentsFrom
    (table : RuleTable)
    (m : LanguageMeta)
    (options : IndentOptions) :
    Nat → State → List Nat → List Token → List Text.Line →
      List LineIndent
  | _, _, _, _, [] => []
  | number, state, levels, tokens, line :: lines =>
      let level := line.body.level options
      let levels' :=
        (Token.beforeBreak tokens).foldl
          (Token.applyEffect level) levels
      let after := Token.fromBreak tokens
      let indent :=
        table.suggest m state levels line.body.trimStart
      ⟨number, state, levels.length,
          (levels'.length : Int) - levels.length, indent⟩ ::
        table.indentsFrom m options (number + 1)
          (Token.endState state after.head?.toList) levels'
          after.tail lines

/- The indentation of every line of a text. -/
def lineIndents
    (table : RuleTable)
    (m : LanguageMeta)
    (text : Text)
    (state : State)
    (options : IndentOptions) : List LineIndent :=
  table.indentsFrom m options 0 state []
    (table.scan text state) text.lines

end RuleTable

end Highlighter

import Highlighter.Proofs.Indent.Closers
import Highlighter.Proofs.Indent.OpenBrackets
import Highlighter.Proofs.Qhantoom.Brackets
import Highlighter.Proofs.Text.Columns
import Highlighter.Qhantoom

/-
  The columns suggested for Qhantoom. A line is meant to
  stand one unit deeper than the line with the innermost
  bracket that is still open after the closing brackets it
  starts with.

  Key definitions include:
    * `Qhantoom.leadingClosers`

  Main statements:
    * `Qhantoom.closers_eq`: the brackets that a line starts
      with are found by the rules that dedent.
    * `Qhantoom.suggested_from_open_brackets`
-/

namespace Highlighter

namespace Qhantoom

open RuleTable

/-
  The number of closing brackets that a line starts with,
  after its leading blanks. Inside of a string or a comment
  there are none.
-/
def leadingClosers (state : State) (line : Text) : Nat :=
  if state = State.start then
    (line.trimStart.takeWhile fun c =>
      decide (c ∈ bracketsOf Effect.dedent)).length
  else
    0

/- One rule of the start state dedents. -/
theorem dedents_start :
    compiledStart.filter (·.dedents) =
      [bracketRule closingBrackets false true] := by
  decide +kernel

/- No rule of another state does. -/
theorem dedents_of_ne_start
    {state : State}
    (hState : state ≠ State.start) :
    (table.rules state).filter (·.dedents) = [] := by
  rw [rules_of_ne_start hState]
  rfl

/- The rules that dedent find the brackets a line starts with. -/
theorem closers_start (line : Text) :
    table.closers compiledStart line =
      (line.takeWhile fun c =>
        decide (c ∈ bracketsOf Effect.dedent)).length := by
  induction line with
  | nil =>
      apply closers_of_no_hit
      rw [dedents_start]
      rfl
  | cons c line ih =>
      by_cases hc : c ∈ bracketsOf Effect.dedent
      · have hHit :
            firstHit (c :: line)
                (compiledStart.filter (·.dedents)) =
              some (bracketRule closingBrackets false true,
                ⟨1, [⟨none, [c]⟩]⟩) := by
          rw [dedents_start, firstHit, apply_bracketRule,
            if_pos (contains_closingBrackets.mpr hc)]
        have hRest : table.closers compiledStart (c :: line) =
            table.closers compiledStart line + 1 :=
          closers_of_firstHit hHit
        rw [hRest, ih, List.takeWhile_cons,
          if_pos (decide_eq_true hc), List.length_cons]
      · have hNone :
            firstHit (c :: line)
              (compiledStart.filter (·.dedents)) = none := by
          rw [dedents_start, firstHit, apply_bracketRule,
            if_neg (mt contains_closingBrackets.mp hc)]
          rfl
        rw [closers_of_no_hit hNone, List.takeWhile_cons,
          if_neg (by simpa using hc)]
        rfl

theorem closers_eq (state : State) (line : Text) :
    table.closers (table.rules state) line.trimStart =
      leadingClosers state line := by
  unfold leadingClosers
  split
  · rename_i hState
    rw [hState, rules_start, closers_start]
  · rename_i hState
    apply closers_of_no_hit
    rw [dedents_of_ne_start hState]
    rfl

/- An open bracket is a token that is one of three texts. -/
theorem text_of_mem_openBy
    {text : Text}
    {state : State}
    {offset : Nat}
    {t : Token}
    (h : t ∈ Token.openBy (table.scan text state) offset) :
    ∃ c ∈ bracketsOf Effect.indent, t.text = [c] := by
  rcases Token.mem_openBy h with ⟨hMem, hEffect⟩
  have hIndents : Effect.indent ≠ Effect.none := by decide
  have hKind := isBracket_or_isPlain ⟨0, state⟩ text t hMem
  exact ((effect_eq_iff hKind hIndents).mp hEffect).2

/-
  The column suggested for a line of a text, whatever state
  the text is scanned from and whatever the settings. A line
  has none just if it starts in a comment. Otherwise the
  closing brackets it starts with close as many of the
  brackets that are open before it; if that leaves none open
  the line stands at the margin, and else one unit deeper
  than the line with the innermost one left. A sum that goes
  past the last column starts over; where none does the
  column is the plain sum.
-/
theorem suggested_from_open_brackets
    (text : Text)
    (state : State)
    (options : IndentOptions)
    {i : Nat}
    {line : Text.Line}
    (hLine : text.lines[i]? = some line) :
    let lines := text.lines
    let stack := Token.openBy (table.scan text state)
      (Text.lineOffset lines i)
    let depth := stack.length
    ∃ f, (table.lineIndents info text state options)[i]? =
        some f ∧
      (table.lineStates text state)[i]? =
        some f.startState ∧
      let closed := leadingClosers f.startState line.body
      (f.indent = none ↔ f.startState = State.comment) ∧
      (f.startState ≠ State.comment → depth ≤ closed →
        f.indent = some 0) ∧
      (f.startState ≠ State.comment → closed < depth →
        ∃ bracket number opener,
          stack.reverse[depth - closed - 1]? =
              some bracket ∧
            (∃ c ∈ bracketsOf Effect.indent,
              bracket.text = [c]) ∧
            Text.LiesOn lines bracket.start number ∧
            lines[number]? = some opener ∧
            f.indent =
              some (Column.wrap
                (opener.body.indentation options.tabSize +
                  options.indentUnit)) ∧
            ∀ width,
              opener.body.indentation? options.tabSize =
                some width →
              width + options.indentUnit ≤ Column.last →
                f.indent =
                  some (width + options.indentUnit)) := by
  intro lines stack depth
  rcases table.indent_of_openBy info text state options hLine
    with ⟨f, hIndent, hState, hNone, hSome⟩
  rw [closers_eq] at hSome
  refine ⟨f, hIndent, hState, ?_⟩
  intro closed
  have hIndents : info.indentsIn f.startState = true ↔
      f.startState ≠ State.comment := by
    cases f.startState <;> decide
  refine ⟨?_, ?_, ?_⟩
  · rw [hNone, ← Bool.not_eq_true, hIndents, not_not]
  · intro hComment hLe
    have hEnd : stack[closed]? = none :=
      List.getElem?_eq_none hLe
    exact (hSome (hIndents.mpr hComment)).1 hEnd
  · intro hComment hLt
    have hBracket : stack[closed]? = some stack[closed] :=
      List.getElem?_eq_getElem hLt
    rcases (hSome (hIndents.mpr hComment)).2 _ hBracket with
      ⟨number, opener, hOn, hOpener, hColumn⟩
    refine ⟨stack[closed], number, opener, ?_,
      text_of_mem_openBy (List.getElem_mem hLt), hOn, hOpener,
      hColumn, ?_⟩
    · -- counted from the oldest one on it is that bracket
      have hPlace : depth - closed - 1 < stack.length := by
        change depth - closed - 1 < depth
        omega
      rw [List.getElem?_reverse hPlace, ← hBracket]
      congr 1
      change depth - 1 - (depth - closed - 1) = closed
      omega
    · intro width hWidth hUnit
      rw [hColumn, Text.level_of_indentation? hWidth hUnit]

/- A line that closes one of two brackets is in the other. -/
theorem suggested_after_closer :
    let text : Text := "(\n [\n] x".toList
    let stack := Token.openBy (table.scan text State.start)
      (Text.lineOffset (Text.lines text) 2)
    (Text.lines text)[2]? = some ⟨"] x".toList, []⟩ ∧
      stack.length = 2 ∧
      ∃ f bracket number opener,
        (table.lineIndents info text State.start
            ⟨2, 2, true⟩)[2]? = some f ∧
          stack.reverse[0]? = some bracket ∧
          Text.LiesOn (Text.lines text) bracket.start number ∧
          (Text.lines text)[number]? = some opener ∧
          f.indent =
            some (opener.body.level ⟨2, 2, true⟩) := by
  intro text stack
  have hLine : (Text.lines text)[2]? =
      some ⟨"] x".toList, []⟩ := by decide
  have hDepth : stack.length = 2 := by
    change (Token.openBy (table.scan text _) _).length = 2
    rw [table_eq_compiled]
    decide +kernel
  have hStart : (table.lineStates text State.start)[2]? =
      some State.start := by
    rw [table_eq_compiled]
    decide +kernel
  rcases suggested_from_open_brackets text State.start
    ⟨2, 2, true⟩ hLine with
    ⟨f, hIndent, hState, -, -, hOpen⟩
  have hIs : f.startState = State.start :=
    Option.some.inj (hState.symm.trans hStart)
  have hClosed :
      leadingClosers f.startState "] x".toList = 1 := by
    rw [hIs]
    decide
  have hComment : f.startState ≠ State.comment := by
    rw [hIs]
    decide
  rw [hClosed] at hOpen
  rcases hOpen hComment (by rw [hDepth]; decide) with
    ⟨bracket, number, opener, hBracket, -, hOn, hOpener,
      hColumn, -⟩
  rw [hDepth] at hBracket
  exact ⟨hLine, hDepth, f, bracket, number, opener, hIndent,
    hBracket, hOn, hOpener, hColumn⟩

end Qhantoom

end Highlighter

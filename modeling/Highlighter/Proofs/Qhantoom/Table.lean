import Highlighter.Proofs.Regex.Loops
import Highlighter.Proofs.RuleTable
import Highlighter.Qhantoom.Rules

/-
  The compiled rules of the Qhantoom language. Inside of
  strings and comments there are two for each state: one
  that leaves the state and one that goes on in it.

  Key definitions include:
    * `Qhantoom.closing`
    * `Qhantoom.filling`
    * `Qhantoom.labelIn`

  Main statements:
    * `Qhantoom.compile_entries`
    * `Qhantoom.rules_of_ne_start`
-/

namespace Highlighter

namespace Qhantoom

------------------------------------------------------------
-- Compilation
------------------------------------------------------------

theorem isSome_compile_entries :
    (RuleTable.compile entries).toOption.isSome = true := by
  decide +kernel

/- The entries compile to the table. -/
theorem compile_entries :
    RuleTable.compile entries = Except.ok table := by
  have hSome := isSome_compile_entries
  unfold table
  cases h : RuleTable.compile entries with
  | ok t => rfl
  | error e =>
      rw [h] at hSome
      cases hSome

/- Each state has its rules, compiled. -/
theorem rulesFor?_table (state : State) :
    table.rulesFor? state =
      (RuleTable.compileRules Regex.ofSource? state 0
        (rulesOf state)).toOption := by
  have hLast :
      RuleTable.lastEntryOf? entries state =
        some ⟨state, rulesOf state⟩ := by
    cases state <;> rfl
  rw [RuleTable.rulesFor?_compile compile_entries, hLast]
  rfl

theorem rules_table
    {state : State}
    {rules : List (Rule Pattern)}
    (h : (RuleTable.compileRules Regex.ofSource? state 0
        (rulesOf state)).toOption = some rules) :
    table.rules state = rules := by
  rw [RuleTable.rules, rulesFor?_table, h]
  rfl

------------------------------------------------------------
-- Expressions
------------------------------------------------------------

open Regex

/- A quote. -/
def quote : Regex := char '"'

/- A quote and at least one hash. -/
def hashedQuote : Regex :=
  cat quote (times 1 none true (char '#'))

/- Any text and the end of a comment, as soon as may be. -/
def commentEnd : Regex :=
  cat
    (group none (times 0 none false (set CharSet.notNewline)))
    (cat (char '*') (char '/'))

/- A character that needs no escape in a string. -/
def plainChar : CharSet :=
  CharSet.compl
    (CharSet.union (CharSet.single '\\') (CharSet.single '"'))

/- A plain character, or an escape, also of a line end. -/
def stringChar : Regex :=
  alt (set plainChar)
    (cat (char '\\')
      (group none
        (alt (set CharSet.notNewline)
          (assert Assertion.textEnd))))

/- Any number of those. -/
def stringText : Regex := many (group none stringChar)

/- Any text without a quote. -/
def rawText : Regex :=
  many (set (CharSet.compl (CharSet.single '"')))

/- Any text in a line. -/
def lineText : Regex := many (set CharSet.notNewline)

------------------------------------------------------------
-- Rules inside of strings and comments
------------------------------------------------------------

/- The pattern that leaves a state. -/
def closing : State → Pattern
  | State.start => Pattern.upTo []
  | State.string => Pattern.regex (anchored quote)
  | State.rawString => Pattern.regex (anchored quote)
  | State.hashString => Pattern.regex (anchored hashedQuote)
  | State.comment => Pattern.regex (anchored commentEnd)

/- The pattern that goes on in a state. -/
def filling : State → Pattern
  | State.start => Pattern.upTo []
  | State.string => Pattern.regex (anchored stringText)
  | State.rawString => Pattern.regex (anchored rawText)
  | State.hashString => Pattern.upTo ['"', '#']
  | State.comment => Pattern.regex (anchored lineText)

/- The label of the text in a state. -/
def labelIn : State → Option Label
  | State.start => none
  | State.comment => some Label.comment
  | _ => some Label.string

/- A rule of a state, which may leave it. -/
def ruleIn
    (state : State)
    (pattern : Pattern)
    (next : Option State) : Rule Pattern where
  pattern := pattern
  labelling := Labelling.whole (labelIn state)
  next := next

/- Outside of the start state there are two rules. -/
theorem rules_of_ne_start
    {state : State}
    (h : state ≠ State.start) :
    table.rules state =
      [ruleIn state (closing state) (some State.start),
       ruleIn state (filling state) none] := by
  apply rules_table
  cases state with
  | start => exact absurd rfl h
  | string => decide +kernel
  | rawString => decide +kernel
  | hashString => decide +kernel
  | comment => decide +kernel

end Qhantoom

end Highlighter

import Highlighter.Proofs.Fold
import Highlighter.Proofs.Reindent

/-
  Leading blanks carry no structure: texts whose lines are
  the same but for their leading blanks have the same states
  at line starts, the same levels, the same brackets, and
  folds over the same lines.

  Key definitions include:
    * `RuleTable.SameStructure`

  Main statements:
    * `RuleTable.PassesBlanks.sameStructure`
    * `Qhantoom.blanks_carry_no_structure`
-/

namespace Highlighter

namespace RuleTable

/-
  Two texts scanned from a state have the same structure:
  their lines start in the same states, they end in the same
  state, and as many levels are open before each line and
  change across it, whatever the settings; the same tokens
  in the same order open and close levels; and the folds
  start and end on the same lines.
-/
structure SameStructure
    (table : RuleTable)
    (m : LanguageMeta)
    (state : State)
    (s t : Text) : Prop where
  lineStates_eq :
    table.lineStates s state = table.lineStates t state
  endState_eq :
    (table.highlight s state).endState =
      (table.highlight t state).endState
  depths_eq : ∀ options : IndentOptions,
    (table.lineIndents m s state options).map
        (fun line => (line.line, line.depth, line.delta)) =
      (table.lineIndents m t state options).map
        (fun line => (line.line, line.depth, line.delta))
  effects_eq :
    ((table.scan s state).filter Token.hasEffect).map
        Token.unplaced =
      ((table.scan t state).filter Token.hasEffect).map
        Token.unplaced
  spans_eq :
    (FoldRange.ofTokens (table.scan s state)).map
        FoldRange.span =
      (FoldRange.ofTokens (table.scan t state)).map
        FoldRange.span

/-
  Under a table that passes blanks over, lines that differ
  in leading blanks only have the same structure.
-/
theorem PassesBlanks.sameStructure
    {table : RuleTable}
    (h : table.PassesBlanks)
    (m : LanguageMeta)
    (state : State)
    {s t : Text}
    (hSame : Text.SameBodies s t) :
    table.SameStructure m state s t := by
  have hTrace := h.sameTrace hSame state
  have hOutline := hTrace.outline_eq
  constructor
  · rw [lineStates, ← Token.statesAfterBreaks_outline,
      hOutline, Token.statesAfterBreaks_outline]
    rfl
  · exact hTrace.stateAfter_eq
  · intro options
    rw [lineIndents_eq, lineIndents_eq, List.map_map,
      List.map_map, h.frames_eq m hSame state]
    rfl
  · rw [← Token.filter_hasEffect_outline, hOutline,
      Token.filter_hasEffect_outline]
  · exact FoldRange.spans_ofTokens
      (table.scanFrom_tiles ⟨0, state⟩ s)
      (table.scanFrom_tiles ⟨0, state⟩ t) hOutline

end RuleTable

namespace Qhantoom

/-
  Two texts with as many lines as each other, line by line
  the same terminators and the same but for leading blanks,
  have the same structure for Qhantoom in every state. The
  text of a document and that text indented anew are two
  such texts.
-/
theorem blanks_carry_no_structure :
    (∀ (state : State) (s t : Text), Text.SameBodies s t →
      table.SameStructure info state s t) ∧
    (∀ d : Document, Text.SameBodies d.text d.reindented) ∧
    (∀ d : Document, d.mode = mode →
      d.mode.rules.SameStructure d.mode.info d.startState
        d.text d.reindented) := by
  refine ⟨fun state s t => passesBlanks.sameStructure info
    state, Document.sameBodies_reindented, ?_⟩
  intro d hMode
  have hBlanks := Document.passesBlanks_of_mode hMode
  exact hBlanks.sameStructure d.mode.info d.startState
    d.sameBodies_reindented

theorem blanks_carry_no_structure_block :
    let d := Document.ofText "\x7b\n\x7d".toList
    Text.SameBodies "\x7b\n\x7d".toList
        " \x7b\n\t\x7d".toList ∧
      table.SameStructure info State.start
        "\x7b\n\x7d".toList " \x7b\n\t\x7d".toList ∧
      d.mode = mode ∧
      d.mode.rules.SameStructure d.mode.info d.startState
        d.text d.reindented := by
  intro d
  have hSame : Text.SameBodies "\x7b\n\x7d".toList
      " \x7b\n\t\x7d".toList := by
    unfold Text.SameBodies
    decide
  have hMode : d.mode = mode := Document.mode_ofText _
  rcases blanks_carry_no_structure with
    ⟨hTexts, -, hDocuments⟩
  exact ⟨hSame, hTexts State.start _ _ hSame, hMode,
    hDocuments d hMode⟩

end Qhantoom

end Highlighter

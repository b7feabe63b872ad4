import Highlighter.Fold
import Highlighter.Proofs.Qhantoom.WordRules
import Highlighter.Proofs.Scan.Agreement

/-
  The rule of the start state for functions never fires: the
  rule for definitions stands before it and takes the same
  from every line that it fires on. So the table may do
  without it.

  Key definitions include:
    * `Qhantoom.definitionPlace`
    * `Qhantoom.functionPlace`

  Main statements:
    * `Qhantoom.apply_definitionExpr_of_function`: what the
      one rule takes the other one takes.
    * `Qhantoom.function_rule_dead`
-/

namespace Highlighter

namespace Qhantoom

open RuleTable

/- The place of the rule for definitions. -/
def definitionPlace : Nat := 6

/- The place of the rule for functions. -/
def functionPlace : Nat := 10

theorem definitionRule_getElem? :
    (table.rules State.start)[definitionPlace]? =
      some (definingRule definitionExpr) := by
  rw [rules_start]
  rfl

theorem functionRule_getElem? :
    (table.rules State.start)[functionPlace]? =
      some (definingRule functionExpr) := by
  rw [rules_start]
  rfl

/- A function is one of the definitions. -/
theorem definition?_of_function
    {line : Text}
    {d : Definition}
    (h : functionDefinition? line = some d) :
    definition? line.leadingWord
        (line.drop line.leadingWord.length) = some d := by
  have hMem : "fun".toList ∈ texts definingWords := by decide
  have hNot : "fun".toList ≠ "val".toList := by decide
  rw [functionDefinition?] at h
  split at h
  · rename_i hWord
    rw [← hWord, definition?, if_neg hNot, if_pos hMem, h]
    rfl
  · cases h

/-
  The rule for definitions takes the same pieces from a line
  that the rule for functions would take.
-/
theorem apply_definitionExpr_of_function
    {line : Text}
    {hit : Hit}
    (h : (definingRule functionExpr).apply line = some hit) :
    (definingRule definitionExpr).apply line = some hit := by
  rw [apply_functionExpr, Option.map_eq_some_iff] at h
  rcases h with ⟨d, hd, rfl⟩
  rw [apply_definitionExpr, definition?_of_function hd]
  rfl

theorem definition_shadows_function :
    (definingRule definitionExpr).Shadows
      (definingRule functionExpr) := by
  intro line hNone
  cases hFunction : (definingRule functionExpr).apply line with
  | none => rfl
  | some hit =>
      rw [apply_definitionExpr_of_function hFunction] at hNone
      cases hNone

/-
  The rule for functions is dead. The table compiles without
  it, and then it scans every text from every state into the
  same tokens, with the same states of lines and at the end,
  the same indentation and the same folds. For on every line
  that the rule would fire on, the rule for definitions
  fires before it, takes the same and does not take nothing.
-/
theorem function_rule_dead :
    startRules[functionPlace]? =
        some (defining functionSource) ∧
      startRules[definitionPlace]? =
        some (defining definitionSource) ∧
      ∃ shorter : RuleTable,
        RuleTable.compile
            (dropRule State.start functionPlace entries) =
          Except.ok shorter ∧
        (∀ (text : Text) (state : State),
          shorter.scan text state = table.scan text state ∧
          shorter.highlight text state =
            table.highlight text state ∧
          shorter.lineStates text state =
            table.lineStates text state ∧
          (∀ (m : LanguageMeta) (options : IndentOptions),
            shorter.lineIndents m text state options =
              table.lineIndents m text state options) ∧
          FoldRange.ofTokens (shorter.scan text state) =
            FoldRange.ofTokens (table.scan text state)) ∧
        ∃ earlier dead : Rule Pattern,
          (table.rules State.start)[definitionPlace]? =
            some earlier ∧
          (table.rules State.start)[functionPlace]? =
            some dead ∧
          ∀ (line : Text) (hit : Hit),
            dead.apply line = some hit →
              earlier.apply line = some hit ∧
                0 < hit.length := by
  have hMore : 1 < (table.rules State.start).length := by
    rw [rules_start, compiledStart, List.length_zipWith]
    decide
  have hAlike := firesAlike_withoutRule
    definitionRule_getElem? functionRule_getElem? (by decide)
    definition_shadows_function rfl
  refine ⟨rfl, rfl, table.withoutRule State.start
    functionPlace,
    compileWith_dropRule compile_entries hMore functionPlace,
    ?_,
    definingRule definitionExpr, definingRule functionExpr,
    definitionRule_getElem?, functionRule_getElem?, ?_⟩
  · intro text state
    have hScan := hAlike.scan_eq text state
    refine ⟨hScan, ?_, ?_, ?_, ?_⟩
    · simp only [highlight, hScan]
    · simp only [lineStates, hScan]
    · intro m options
      exact hAlike.lineIndents_eq m text state options
    · rw [hScan]
  · intro line hit hDead
    have hEarlier := apply_definitionExpr_of_function hDead
    exact ⟨hEarlier, Rule.apply_length_pos hDead⟩

/- The rule would fire on the definition of a function. -/
theorem function_rule_dead_fun :
    let hit : Hit :=
      ⟨5, [⟨some Label.keyword, "fun".toList⟩,
        ⟨none, " ".toList⟩,
        ⟨some Label.definition, "f".toList⟩]⟩
    ∃ earlier dead : Rule Pattern,
      (table.rules State.start)[definitionPlace]? =
        some earlier ∧
      (table.rules State.start)[functionPlace]? =
        some dead ∧
      dead.apply "fun f".toList = some hit ∧
      earlier.apply "fun f".toList = some hit ∧
      0 < hit.length := by
  intro hit
  rcases function_rule_dead with
    ⟨-, -, shorter, -, -, earlier, dead, hEarlier, hDead,
      hShadows⟩
  have hHit : dead.apply "fun f".toList = some hit := by
    rw [functionRule_getElem?] at hDead
    cases hDead
    rw [apply_functionExpr]
    decide
  exact ⟨earlier, dead, hEarlier, hDead, hHit,
    hShadows _ hit hHit⟩

end Qhantoom

end Highlighter

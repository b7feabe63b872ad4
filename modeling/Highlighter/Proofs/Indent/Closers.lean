import Highlighter.Indent
import Highlighter.Proofs.Scan.Step

/-
  The closing brackets at the start of a line, as they are
  found for indentation: by the rules that dedent, tried one
  after the other on what is left of the line.

  Key definitions include:
    * `RuleTable.rulesAfter`

  Main statements:
    * `RuleTable.closers_of_firstHit`: one round of the
      search.
    * `RuleTable.closers_eq_zero_iff`
    * `RuleTable.closers_congr`: only the rules that dedent
      matter.
-/

namespace Highlighter

namespace RuleTable

/-
  The rules to go on with after a rule fired among some
  others: those of its next state, if it has one.
-/
def rulesAfter
    (table : RuleTable)
    (rules : List (Rule Pattern))
    (r : Rule Pattern) : List (Rule Pattern) :=
  match r.next with
  | none => rules
  | some state => table.rules state

/- Among the rules of a state they are those of the next. -/
theorem rulesAfter_rules
    (table : RuleTable)
    (state : State)
    (r : Rule Pattern) :
    table.rulesAfter (table.rules state) r =
      table.rules (r.stateAfter state) := by
  unfold rulesAfter Rule.stateAfter
  cases r.next with
  | none => rfl
  | some next => rfl

/- A line that no rule dedents begins with no closer. -/
theorem closers_of_no_hit
    {table : RuleTable}
    {rules : List (Rule Pattern)}
    {line : Text}
    (h : firstHit line (rules.filter (·.dedents)) = none) :
    table.closers rules line = 0 := by
  rw [closers]
  split
  · rfl
  · rename_i r hit hSome
    cases h.symm.trans hSome

/- A rule that fires counts, and the search goes on. -/
theorem closers_of_firstHit
    {table : RuleTable}
    {rules : List (Rule Pattern)}
    {line : Text}
    {r : Rule Pattern}
    {hit : Hit}
    (h :
      firstHit line (rules.filter (·.dedents)) =
        some (r, hit)) :
    table.closers rules line =
      table.closers (table.rulesAfter rules r)
        (line.drop hit.length) + 1 := by
  rw [closers]
  split
  · rename_i hNone
    cases h.symm.trans hNone
  · rename_i r' hit' hSome
    cases h.symm.trans hSome
    rfl

/- A line has no closer just if no rule that dedents fires. -/
theorem closers_eq_zero_iff
    {table : RuleTable}
    {rules : List (Rule Pattern)}
    {line : Text} :
    table.closers rules line = 0 ↔
      ∀ r ∈ rules, r.dedents = true →
        r.apply line = none := by
  have hFilter :
      firstHit line (rules.filter (·.dedents)) = none ↔
        ∀ r ∈ rules, r.dedents = true →
          r.apply line = none := by
    rw [firstHit_eq_none_iff]
    simp only [List.mem_filter, and_imp]
  rw [← hFilter]
  constructor
  · intro hZero
    cases hHit : firstHit line (rules.filter (·.dedents)) with
    | none => rfl
    | some found =>
        rw [closers_of_firstHit hHit] at hZero
        cases hZero
  · exact closers_of_no_hit

/-
  Two tables with the same rules that dedent in every state
  find as many closers, whatever other rules they have.
-/
theorem closers_congr
    {a b : RuleTable}
    (h : ∀ state,
      (a.rules state).filter (·.dedents) =
        (b.rules state).filter (·.dedents))
    {rules rules' : List (Rule Pattern)}
    (hRules :
      rules.filter (·.dedents) = rules'.filter (·.dedents))
    (line : Text) :
    a.closers rules line = b.closers rules' line := by
  cases hHit : firstHit line (rules.filter (·.dedents)) with
  | none =>
      rw [closers_of_no_hit hHit]
      rw [hRules] at hHit
      rw [closers_of_no_hit hHit]
  | some found =>
      rcases found with ⟨r, hit⟩
      have hAfter :
          (a.rulesAfter rules r).filter (·.dedents) =
            (b.rulesAfter rules' r).filter (·.dedents) := by
        unfold rulesAfter
        cases r.next with
        | none => exact hRules
        | some state => exact h state
      have hFires := firstHit_apply hHit
      have hPos := Rule.apply_length_pos hFires
      have hLe := Rule.apply_length_le hFires
      have hShorter :
          (line.drop hit.length).length < line.length := by
        rw [List.length_drop]
        omega
      rw [closers_of_firstHit hHit]
      rw [hRules] at hHit
      rw [closers_of_firstHit hHit,
        closers_congr h hAfter (line.drop hit.length)]
termination_by line.length

end RuleTable

end Highlighter

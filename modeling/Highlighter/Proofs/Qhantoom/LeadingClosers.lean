import Highlighter.Proofs.Indent.LeadingDedents
import Highlighter.Proofs.Qhantoom.Suggestions

/-
  The closing brackets that a line of Qhantoom starts with
  are those a scan of the line reports first: no rule hides
  them.

  Main statements:
    * `Qhantoom.hides_no_dedent`
    * `Qhantoom.leading_closers_scanned`
-/

namespace Highlighter

namespace Qhantoom

open RuleTable

/-
  A rule of the start state that reads a closing bracket
  first is the one that dedents.
-/
theorem startRules_closing :
    ∀ r ∈ compiledStart, ∀ c ∈ bracketsOf Effect.dedent,
      r.dedents = true ∨ r.pattern.readsFirst c = false := by
  have hAll :
      compiledStart.all (fun r =>
        (bracketsOf Effect.dedent).all fun c =>
          r.dedents || !r.pattern.readsFirst c) = true := by
    decide +kernel
  intro r hr c hc
  have hRule := List.all_eq_true.mp hAll r hr
  simpa using List.all_eq_true.mp hRule c hc

/- So no other rule fires before it. -/
theorem hides_no_dedent (state : State) (line : Text) :
    ¬ table.HidesDedent state line := by
  rintro ⟨⟨r, hit, hHit, hNot⟩, r', hr', hDedents, hFires⟩
  have hMem := List.mem_filter.mpr ⟨hr', hDedents⟩
  by_cases hState : state = State.start
  · rw [hState, rules_start] at hHit hMem
    rw [dedents_start, List.mem_singleton] at hMem
    cases line with
    | nil =>
        have hCovers := Rule.apply_covers (firstHit_apply hHit)
        exact absurd rfl hCovers.line_ne_nil
    | cons c line =>
        rw [hMem, apply_bracketRule] at hFires
        split at hFires
        · rename_i hc
          have hClosing := contains_closingBrackets.mp hc
          rcases startRules_closing r (firstHit_mem hHit) c
            hClosing with hIs | hRead
          · rw [hNot] at hIs
            cases hIs
          · have hApply := firstHit_apply hHit
            rw [Rule.apply_eq_none hRead] at hApply
            cases hApply
        · cases hFires
  · rw [dedents_of_ne_start hState] at hMem
    cases hMem

/-
  A scan of a line, after its leading blanks, begins with a
  step that dedents for each closing bracket that the line
  starts with.
-/
theorem leading_closers_scanned
    (state : State)
    {line : Text}
    (hFree : line.BreakFree) :
    (table.dedentRun ⟨0, state⟩ line.trimStart).count =
      leadingClosers state line := by
  have hBody : line.trimStart.BreakFree := hFree.trimStart
  have hSound : ∀ state, ∀ r ∈ table.rules state,
      table.Sound r :=
    fun _ _ hr => sound_of_compile compile_entries hr
  have hLeft :=
    (closers_eq_zero_iff_not_hides hSound
      (breakFree_dedentRun ⟨0, state⟩ _ hBody)
      (stepOn_dedentRun ⟨0, state⟩ _)).mpr
      (hides_no_dedent _ _)
  have hSum : table.closers (table.rules state)
      line.trimStart = _ :=
    closers_eq_dedentRun ⟨0, state⟩ _ hBody
  rw [← closers_eq, hSum, hLeft, Nat.add_zero]

end Qhantoom

end Highlighter

import Highlighter.Proofs.Indent.Closers
import Highlighter.Proofs.RuleTable

/-
  Tables that fire alike: on every line the same rule fires
  first, and the rules that dedent are the same. Neither a
  scan nor indentation can tell such tables apart. So a rule
  that fires only where an earlier one does may be left out
  of a table.

  Key definitions include:
    * `RuleTable.FiresAlike`
    * `Rule.Shadows`
    * `RuleTable.dropRule`
    * `RuleTable.withoutRule`

  Main statements:
    * `RuleTable.FiresAlike.scanFrom_eq`
    * `RuleTable.FiresAlike.lineIndents_eq`
    * `RuleTable.firesAlike_withoutRule`: a table fires alike
      without a rule that is shadowed.
    * `RuleTable.compileWith_dropRule`: a table that compiles
      does so without one of its rules.
-/

namespace Highlighter

------------------------------------------------------------
-- Tables that fire alike
------------------------------------------------------------

namespace RuleTable

/-
  On every line, in every state, the same rule of two tables
  fires first and does the same, and their rules that dedent
  are the same.
-/
structure FiresAlike (a b : RuleTable) : Prop where
  firstHit_eq : ∀ state line,
    firstHit line (a.rules state) =
      firstHit line (b.rules state)
  dedents_eq : ∀ state,
    (a.rules state).filter (·.dedents) =
      (b.rules state).filter (·.dedents)

namespace FiresAlike

variable {a b : RuleTable}

/- They make the same steps. -/
theorem stepOn_eq
    (h : a.FiresAlike b)
    (cursor : Cursor)
    (text : Text) :
    a.stepOn cursor text = b.stepOn cursor text := by
  cases text with
  | nil => rfl
  | cons c rest => simp only [stepOn, h.firstHit_eq]

/- And so the same tokens. -/
theorem scanFrom_eq
    (h : a.FiresAlike b)
    (cursor : Cursor)
    (text : Text) :
    a.scanFrom cursor text = b.scanFrom cursor text := by
  induction cursor, text using scan_induction a with
  | hEnd cursor => rw [scanFrom_nil, scanFrom_nil]
  | hStep cursor text s consumed hStep hConsumes ih =>
      rw [scanFrom_of_stepOn hStep, ih]
      rw [h.stepOn_eq] at hStep
      rw [scanFrom_of_stepOn hStep]

theorem scan_eq
    (h : a.FiresAlike b)
    (text : Text)
    (state : State) : a.scan text state = b.scan text state :=
  h.scanFrom_eq ⟨0, state⟩ text

/- They suggest the same columns. -/
theorem suggest_eq
    (h : a.FiresAlike b)
    (m : LanguageMeta)
    (state : State)
    (levels : List Nat)
    (body : Text) :
    a.suggest m state levels body =
      b.suggest m state levels body := by
  unfold suggest
  rw [closers_congr h.dedents_eq (h.dedents_eq state)]

theorem indentsFrom_eq
    (h : a.FiresAlike b)
    (m : LanguageMeta)
    (options : IndentOptions)
    (number : Nat)
    (state : State)
    (levels : List Nat)
    (tokens : List Token)
    (lines : List Text.Line) :
    a.indentsFrom m options number state levels tokens
        lines =
      b.indentsFrom m options number state levels tokens
        lines := by
  induction lines generalizing number state levels tokens with
  | nil => rfl
  | cons line lines ih =>
      simp only [indentsFrom, h.suggest_eq, ih]

/- The indentation of lines is the same. -/
theorem lineIndents_eq
    (h : a.FiresAlike b)
    (m : LanguageMeta)
    (text : Text)
    (state : State)
    (options : IndentOptions) :
    a.lineIndents m text state options =
      b.lineIndents m text state options := by
  unfold lineIndents
  rw [h.scan_eq, h.indentsFrom_eq]

end FiresAlike

end RuleTable

------------------------------------------------------------
-- Shadowed rules
------------------------------------------------------------

/-
  A rule shadows another one when it fires on every line
  that the other one fires on.
-/
def Rule.Shadows (r s : Rule Pattern) : Prop :=
  ∀ line, r.apply line = none → s.apply line = none

namespace RuleTable

/- A rule that does not fire may be left out. -/
theorem firstHit_eraseIdx
    {rules : List (Rule Pattern)}
    {index : Nat}
    {s : Rule Pattern}
    (hs : rules[index]? = some s)
    {line : Text}
    (h : s.apply line = none) :
    firstHit line (rules.eraseIdx index) =
      firstHit line rules := by
  induction rules generalizing index with
  | nil => rfl
  | cons r rules ih =>
      cases index with
      | zero =>
          cases hs
          rw [List.eraseIdx_cons_zero, firstHit, h]
      | succ index =>
          rw [List.eraseIdx_cons_succ, firstHit, firstHit,
            ih hs]

/- One after a rule that shadows it is never tried. -/
theorem firstHit_eraseIdx_of_shadows
    {rules : List (Rule Pattern)}
    {i j : Nat}
    {r s : Rule Pattern}
    (hr : rules[i]? = some r)
    (hs : rules[j]? = some s)
    (hLt : i < j)
    (h : r.Shadows s)
    (line : Text) :
    firstHit line (rules.eraseIdx j) =
      firstHit line rules := by
  cases hApply : r.apply line with
  | none => exact firstHit_eraseIdx hs (h line hApply)
  | some hit =>
      clear hs
      induction rules generalizing i j with
      | nil => cases hr
      | cons first rules ih =>
          cases j with
          | zero => cases hLt
          | succ j =>
              rw [List.eraseIdx_cons_succ, firstHit, firstHit]
              cases i with
              | zero =>
                  cases hr
                  rw [hApply]
              | succ i =>
                  rw [ih hr (Nat.lt_of_succ_lt_succ hLt)]

theorem filter_dedents_eraseIdx
    {rules : List (Rule Pattern)}
    {index : Nat}
    {s : Rule Pattern}
    (hs : rules[index]? = some s)
    (h : s.dedents = false) :
    (rules.eraseIdx index).filter (·.dedents) =
      rules.filter (·.dedents) := by
  induction rules generalizing index with
  | nil => rfl
  | cons r rules ih =>
      cases index with
      | zero =>
          cases hs
          rw [List.eraseIdx_cons_zero,
            List.filter_cons_of_neg (by simp [h])]
      | succ index =>
          rw [List.eraseIdx_cons_succ, List.filter_cons,
            List.filter_cons, ih hs]

------------------------------------------------------------
-- Leaving a rule out
------------------------------------------------------------

/- A table without the rule at a place among a state's. -/
def withoutRule (table : RuleTable) (state : State)
    (index : Nat) : RuleTable :=
  ⟨fun s =>
    if s = state then
      (table.rulesFor? s).map (·.eraseIdx index)
    else table.rulesFor? s⟩

/- The same for a table in written form. -/
def dropRule (state : State) (index : Nat)
    (entries : List Entry) : List Entry :=
  entries.map fun e =>
    if e.state = state then
      { e with rules := e.rules.eraseIdx index }
    else e

theorem rulesFor?_withoutRule
    (table : RuleTable)
    (state : State)
    (index : Nat)
    (other : State) :
    (table.withoutRule state index).rulesFor? other =
      if other = state then
        (table.rulesFor? other).map (·.eraseIdx index)
      else table.rulesFor? other := rfl

theorem rules_withoutRule
    (table : RuleTable)
    (state : State)
    (index : Nat)
    (other : State) :
    (table.withoutRule state index).rules other =
      if other = state then
        (table.rules other).eraseIdx index
      else table.rules other := by
  unfold rules
  rw [rulesFor?_withoutRule]
  split
  · cases table.rulesFor? other <;> rfl
  · rfl

/- The same states have an entry. -/
theorem defines_withoutRule
    (table : RuleTable)
    (state : State)
    (index : Nat)
    (other : State) :
    (table.withoutRule state index).defines other =
      table.defines other := by
  unfold defines
  rw [rulesFor?_withoutRule]
  split
  · rw [Option.isSome_map]
  · rfl

/- A table fires alike without a rule that is shadowed. -/
theorem firesAlike_withoutRule
    {table : RuleTable}
    {state : State}
    {i j : Nat}
    {r s : Rule Pattern}
    (hr : (table.rules state)[i]? = some r)
    (hs : (table.rules state)[j]? = some s)
    (hLt : i < j)
    (hShadows : r.Shadows s)
    (hDedents : s.dedents = false) :
    (table.withoutRule state j).FiresAlike table := by
  constructor
  · intro other line
    rw [rules_withoutRule]
    split
    · rename_i hState
      subst hState
      exact firstHit_eraseIdx_of_shadows hr hs hLt hShadows
        line
    · rfl
  · intro other
    rw [rules_withoutRule]
    split
    · rename_i hState
      subst hState
      exact filter_dedents_eraseIdx hs hDedents
    · rfl

theorem forall₂_eraseIdx
    {read : Regex.Reader}
    {sources : List (Rule Pattern.Source)}
    {rules : List (Rule Pattern)}
    (h : List.Forall₂ (CompilesTo read) sources rules)
    (index : Nat) :
    List.Forall₂ (CompilesTo read) (sources.eraseIdx index)
      (rules.eraseIdx index) := by
  induction h generalizing index with
  | nil => exact List.Forall₂.nil
  | cons hFirst hRest ih =>
      cases index with
      | zero => exact hRest
      | succ index => exact List.Forall₂.cons hFirst (ih index)

/- What is put on top of a table without a rule lacks it. -/
theorem insert_withoutRule
    (table : RuleTable)
    (state : State)
    (index : Nat)
    (other : State)
    (rules : List (Rule Pattern)) :
    (table.insert other rules).withoutRule state index =
      (table.withoutRule state index).insert other
        (if other = state then rules.eraseIdx index
          else rules) := by
  apply eq_of_rulesFor?_eq
  intro s
  rw [rulesFor?_withoutRule, rulesFor?_insert,
    rulesFor?_insert, rulesFor?_withoutRule]
  by_cases hOther : s = other
  · subst hOther
    by_cases hState : s = state <;> simp [hState]
  · simp [hOther]

theorem compileEntries_dropRule
    {read : Regex.Reader}
    {entries : List Entry}
    {base table : RuleTable}
    (h : compileEntries read entries base = Except.ok table)
    (state : State)
    (index : Nat) :
    compileEntries read (dropRule state index entries)
        (base.withoutRule state index) =
      Except.ok (table.withoutRule state index) := by
  induction entries generalizing base with
  | nil =>
      cases h
      rfl
  | cons e entries ih =>
      simp only [compileEntries] at h
      split at h
      · cases h
      · rename_i rules hRules
        have hCompiled := forall₂_compilesTo hRules
        have hRest := ih h
        rw [insert_withoutRule] at hRest
        rw [dropRule, List.map_cons, compileEntries]
        by_cases hState : e.state = state
        · rw [if_pos hState] at hRest ⊢
          have hErased := compileRules_of_forall₂
            (forall₂_eraseIdx hCompiled index) e.state 0
          simp only [hErased]
          exact hRest
        · rw [if_neg hState] at hRest ⊢
          simp only [hRules]
          exact hRest

/- Nothing is wrong with a table for having one rule less. -/
theorem fault?_withoutRule
    {table : RuleTable}
    (h : table.fault? = none)
    {state : State}
    (hMore : 1 < (table.rules state).length)
    (index : Nat) :
    (table.withoutRule state index).fault? = none := by
  rcases fault?_eq_none_iff.mp h with ⟨hStart, hRules⟩
  rw [fault?_eq_none_iff, defines_withoutRule]
  refine ⟨hStart, ?_⟩
  have hSound : ∀ r, table.Sound r →
      (table.withoutRule state index).Sound r := by
    intro r hr
    refine ⟨?_, hr.one_effect, hr.whole_literal⟩
    intro next hNext
    rw [defines_withoutRule]
    exact hr.defines_next next hNext
  intro other rules hFor
  rw [rulesFor?_withoutRule] at hFor
  split at hFor
  · rename_i hState
    subst hState
    rcases Option.map_eq_some_iff.mp hFor with
      ⟨all, hAll, rfl⟩
    rw [RuleTable.rules, hAll, Option.getD_some] at hMore
    constructor
    · apply List.ne_nil_of_length_pos
      have hLength := List.le_length_eraseIdx all index
      omega
    · intro r hr
      exact hSound r ((hRules other all hAll).2 r
        (List.mem_of_mem_eraseIdx hr))
  · rcases hRules other rules hFor with ⟨hSome, hAll⟩
    exact ⟨hSome, fun r hr => hSound r (hAll r hr)⟩

/-
  A table that compiles does so without a rule, unless it is
  the only one of its state.
-/
theorem compileWith_dropRule
    {read : Regex.Reader}
    {entries : List Entry}
    {table : RuleTable}
    (h : compileWith read entries = Except.ok table)
    {state : State}
    (hMore : 1 < (table.rules state).length)
    (index : Nat) :
    compileWith read (dropRule state index entries) =
      Except.ok (table.withoutRule state index) := by
  have hEmpty : empty.withoutRule state index = empty := by
    apply eq_of_rulesFor?_eq
    intro other
    rw [rulesFor?_withoutRule]
    split <;> rfl
  rcases compileWith_eq_ok_iff.mp h with ⟨hEntries, hFault⟩
  have hDropped :=
    compileEntries_dropRule hEntries state index
  rw [hEmpty] at hDropped
  exact compileWith_eq_ok_iff.mpr
    ⟨hDropped, fault?_withoutRule hFault hMore index⟩

end RuleTable

end Highlighter

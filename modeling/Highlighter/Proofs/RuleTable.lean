import Highlighter.RuleTable
import Mathlib.Data.List.Forall2

/-
  What a table that compiled has in it, whatever reader its
  expressions were read by.

  Key definitions include:
    * `RuleTable.lastEntryOf?`
    * `RuleTable.Sound`
    * `RuleTable.CompilesTo`

  Main statements:
    * `RuleTable.rulesFor?_compile`: the rules of a state are
      those of its last entry, compiled.
    * `RuleTable.fault?_eq_none_iff`: nothing is wrong with a
      table of sound rules.
    * `RuleTable.forall₂_compilesTo`: rules are compiled one
      by one.
-/

namespace Highlighter

namespace RuleTable

variable {read : Regex.Reader}

/- Tables with the same rules for all states are the same. -/
theorem eq_of_rulesFor?_eq
    {a b : RuleTable}
    (h : ∀ state, a.rulesFor? state = b.rulesFor? state) :
    a = b := by
  rcases a with ⟨f⟩
  rcases b with ⟨g⟩
  exact congrArg RuleTable.mk (funext h)

/- The last entry of a state. -/
def lastEntryOf? (entries : List Entry) (state : State) :
    Option Entry :=
  entries.reverse.find? fun e => e.state == state

/- An entry counts where no later one does. -/
theorem lastEntryOf?_cons
    (e : Entry)
    (entries : List Entry)
    (state : State) :
    lastEntryOf? (e :: entries) state =
      (lastEntryOf? entries state).or
        (if e.state = state then some e else none) := by
  unfold lastEntryOf?
  rw [List.reverse_cons, List.find?_append]
  by_cases hState : e.state = state <;> simp [hState]

theorem rulesFor?_insert
    (table : RuleTable)
    (state other : State)
    (rules : List (Rule Pattern)) :
    (table.insert state rules).rulesFor? other =
      if other = state then some rules
      else table.rulesFor? other := rfl

/- Entries that compile are put on top of a table. -/
theorem rulesFor?_compileEntries
    {entries : List Entry}
    {base table : RuleTable}
    (h : compileEntries read entries base = Except.ok table)
    (state : State) :
    table.rulesFor? state =
      match lastEntryOf? entries state with
      | some e => (compileRules read e.state 0 e.rules).toOption
      | none => base.rulesFor? state := by
  induction entries generalizing base with
  | nil =>
      cases h
      rfl
  | cons e entries ih =>
      simp only [compileEntries] at h
      split at h
      · cases h
      · rename_i rules hRules
        rw [ih h, lastEntryOf?_cons]
        cases lastEntryOf? entries state with
        | some last => rfl
        | none =>
            rw [Option.none_or, rulesFor?_insert]
            by_cases hState : e.state = state
            · rw [if_pos hState, if_pos hState.symm]
              simp only [hRules]
              rfl
            · rw [if_neg hState,
                if_neg fun hEq => hState hEq.symm]

/-
  A table compiles where its entries do and nothing is wrong
  with it.
-/
theorem compileWith_eq_ok_iff
    {entries : List Entry}
    {table : RuleTable} :
    compileWith read entries = Except.ok table ↔
      compileEntries read entries empty = Except.ok table ∧
        table.fault? = none := by
  unfold compileWith
  cases compileEntries read entries empty with
  | error e => simp only [reduceCtorEq, false_and]
  | ok compiled =>
      simp only [Except.ok.injEq]
      constructor
      · intro h
        split at h
        · cases h
        · rename_i hFault
          cases h
          exact ⟨rfl, hFault⟩
      · rintro ⟨rfl, hFault⟩
        simp only [hFault]

/-
  A table that compiles has for each state the rules of the
  last entry of the state.
-/
theorem rulesFor?_compile
    {entries : List Entry}
    {table : RuleTable}
    (h : compileWith read entries = Except.ok table)
    (state : State) :
    table.rulesFor? state =
      (lastEntryOf? entries state).bind fun e =>
        (compileRules read e.state 0 e.rules).toOption := by
  rw [rulesFor?_compileEntries (compileWith_eq_ok_iff.mp h).1]
  cases lastEntryOf? entries state <;> rfl

------------------------------------------------------------
-- Faults
------------------------------------------------------------

/-
  A rule is sound in a table when its next state has an
  entry, it does not both indent and dedent, and it does not
  split the captures of a literal.
-/
structure Sound (table : RuleTable) (r : Rule Pattern) :
    Prop where
  defines_next : ∀ next, r.next = some next →
    table.defines next = true
  one_effect : (r.indents && r.dedents) = false
  whole_literal : splitsLiteral r = false

theorem ruleFault?_eq_none_iff
    {table : RuleTable}
    {state : State}
    {index : Nat}
    {r : Rule Pattern} :
    table.ruleFault? state index r = none ↔
      table.Sound r := by
  have hNext :
      r.next.filter (fun next => !table.defines next) =
          none ↔
        ∀ next, r.next = some next →
          table.defines next = true := by
    simp [Option.filter_eq_none_iff]
  unfold ruleFault?
  constructor
  · intro h
    split at h
    · cases h
    · rename_i hNone
      split at h
      · cases h
      · rename_i hEffects
        split at h
        · cases h
        · rename_i hSplits
          exact ⟨hNext.mp hNone, by simpa using hEffects,
            by simpa using hSplits⟩
  · intro h
    rw [hNext.mpr h.defines_next]
    simp [h.one_effect, h.whole_literal]

theorem entryFault?_eq_none_iff
    {table : RuleTable}
    {state : State} :
    table.entryFault? state = none ↔
      ∀ rules, table.rulesFor? state = some rules →
        rules ≠ [] ∧ ∀ r ∈ rules, table.Sound r := by
  unfold entryFault?
  cases table.rulesFor? state with
  | none => simp
  | some rules =>
      cases rules with
      | nil => simp
      | cons r rules =>
          -- the places of the rules do not matter
          have hRules : ∀ s ∈ r :: rules,
              ∃ index, (s, index) ∈ (r :: rules).zipIdx := by
            intro s hs
            rw [← List.zipIdx_map_fst 0 (r :: rules)] at hs
            rcases List.mem_map.mp hs with ⟨⟨s, i⟩, hi, rfl⟩
            exact ⟨i, hi⟩
          simp only [List.findSome?_eq_none_iff,
            ruleFault?_eq_none_iff, Option.some.injEq,
            forall_eq', ne_eq, List.cons_ne_nil,
            not_false_eq_true, true_and]
          constructor
          · intro h s hs
            rcases hRules s hs with ⟨index, hMem⟩
            exact h (s, index) hMem
          · rintro h ⟨s, index⟩ hMem
            exact h s (List.fst_mem_of_mem_zipIdx hMem)

/-
  Nothing is wrong with a table just if the start state has
  an entry, and each entry has rules, all of them sound.
-/
theorem fault?_eq_none_iff {table : RuleTable} :
    table.fault? = none ↔
      table.defines State.start = true ∧
        ∀ state rules, table.rulesFor? state = some rules →
          rules ≠ [] ∧ ∀ r ∈ rules, table.Sound r := by
  have hAll : ∀ state, state ∈ State.all := by
    intro state
    cases state <;> decide
  unfold fault?
  split
  · rename_i hStart
    simp only [List.findSome?_eq_none_iff,
      entryFault?_eq_none_iff, hAll, forall_const, hStart,
      true_and]
  · rename_i hStart
    simp [hStart]

/- Nothing is wrong with a table that compiled. -/
theorem fault?_of_compile
    {entries : List Entry}
    {table : RuleTable}
    (h : compileWith read entries = Except.ok table) :
    table.fault? = none :=
  (compileWith_eq_ok_iff.mp h).2

/- The rules of a table that compiled are sound. -/
theorem sound_of_compile
    {entries : List Entry}
    {table : RuleTable}
    (h : compileWith read entries = Except.ok table)
    {state : State}
    {r : Rule Pattern}
    (hr : r ∈ table.rules state) : table.Sound r := by
  have hSound := (fault?_eq_none_iff.mp (fault?_of_compile h)).2
  unfold rules at hr
  cases hRules : table.rulesFor? state with
  | none =>
      rw [hRules] at hr
      cases hr
  | some rules =>
      rw [hRules] at hr
      exact (hSound state rules hRules).2 r hr

------------------------------------------------------------
-- Compiled rules
------------------------------------------------------------

/- A rule in written form and the rule it stands for. -/
def CompilesTo (read : Regex.Reader)
    (r : Rule Pattern.Source) (r' : Rule Pattern) : Prop :=
  ∃ pattern, Pattern.compileWith? read r.pattern = some pattern ∧
    r' = r.withPattern pattern

/- Rules that compile do so one by one. -/
theorem forall₂_compilesTo
    {state : State}
    {start : Nat}
    {sources : List (Rule Pattern.Source)}
    {rules : List (Rule Pattern)}
    (h : compileRules read state start sources = Except.ok rules) :
    List.Forall₂ (CompilesTo read) sources rules := by
  induction sources generalizing start rules with
  | nil =>
      cases h
      exact List.Forall₂.nil
  | cons r sources ih =>
      simp only [compileRules] at h
      split at h
      · cases h
      · rename_i pattern hPattern
        split at h
        · cases h
        · rename_i compiled hRest
          cases h
          exact List.Forall₂.cons ⟨pattern, hPattern, rfl⟩
            (ih hRest)

/- Their numbers are for complaints only. -/
theorem compileRules_of_forall₂
    {sources : List (Rule Pattern.Source)}
    {rules : List (Rule Pattern)}
    (h : List.Forall₂ (CompilesTo read) sources rules)
    (state : State)
    (start : Nat) :
    compileRules read state start sources = Except.ok rules := by
  induction h generalizing start with
  | nil => rfl
  | cons hFirst hRest ih =>
      rcases hFirst with ⟨pattern, hPattern, rfl⟩
      simp only [compileRules, hPattern, ih]

end RuleTable

end Highlighter

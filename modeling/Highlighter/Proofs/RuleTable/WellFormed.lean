import Highlighter.Proofs.RuleTable

/-
  Which tables in written form compile, whatever reader there
  is of expressions. The first expression that the reader
  rejects decides, also in an entry that a later one takes
  the place of; otherwise it is decided by what the last
  entry of each state says.

  Key definitions include:
    * `Rule.Rejected`
    * `RuleTable.RejectsFirst`
    * `RuleTable.SoundSource`
    * `RuleTable.WellFormed`
    * `RuleTable.HasFault`

  Main statements:
    * `RuleTable.exists_compileEntries`: what compiling does
      before the table is checked.
    * `RuleTable.fault?_eq_none_iff_wellFormed`
    * `RuleTable.hasFault_of_fault?`: the fault that is told
      is one that the entries have.
    * `RuleTable.compile_decides`
-/

namespace Highlighter

------------------------------------------------------------
-- Rejected expressions
------------------------------------------------------------

/- The pattern of a rule is an expression the reader rejects. -/
def Rule.Rejected (read : Regex.Reader)
    (r : Rule Pattern.Source) : Prop :=
  ∃ source, r.pattern = Pattern.Source.regex source ∧
    read (Pattern.anchoredSource source) = none

/- Nothing else keeps a pattern from compiling. -/
theorem Rule.rejected_iff
    {read : Regex.Reader}
    {r : Rule Pattern.Source} :
    r.Rejected read ↔
      Pattern.compileWith? read r.pattern = none := by
  unfold Rule.Rejected
  cases r.pattern with
  | regex source => simp [Pattern.compileWith?]
  | upTo literal => simp [Pattern.compileWith?]

namespace RuleTable

variable {read : Regex.Reader}

/- Rules of which none is rejected. -/
def NoneRejected (read : Regex.Reader)
    (rules : List (Rule Pattern.Source)) : Prop :=
  ∀ r ∈ rules, ¬ r.Rejected read

theorem noneRejected_nil :
    NoneRejected read [] :=
  fun _ hr => absurd hr List.not_mem_nil

/-
  The first rejected rule of some entries is the one at an
  index among the rules of an entry for a state.
-/
def RejectsFirst (read : Regex.Reader)
    (entries : List Entry) (state : State)
    (index : Nat) : Prop :=
  ∃ earlier e later rules r more,
    entries = earlier ++ e :: later ∧ e.state = state ∧
      e.rules = rules ++ r :: more ∧ rules.length = index ∧
      r.Rejected read ∧ NoneRejected read rules ∧
      ∀ e' ∈ earlier, NoneRejected read e'.rules

/- It stays the first one behind an entry that has none. -/
theorem RejectsFirst.cons
    {entries : List Entry}
    {state : State}
    {index : Nat}
    (h : RejectsFirst read entries state index)
    {e : Entry}
    (he : NoneRejected read e.rules) :
    RejectsFirst read (e :: entries) state index := by
  rcases h with ⟨earlier, e', later, rules, r, more, rfl,
    hState, hRules, hIndex, hr, hBefore, hEarlier⟩
  exact ⟨e :: earlier, e', later, rules, r, more, rfl, hState,
    hRules, hIndex, hr, hBefore,
    List.forall_mem_cons.mpr ⟨he, hEarlier⟩⟩

/- Rules compile just if none of them is rejected. -/
theorem exists_compileRules
    {sources : List (Rule Pattern.Source)}
    (h : NoneRejected read sources)
    (state : State)
    (start : Nat) :
    ∃ rules, compileRules read state start sources =
      Except.ok rules := by
  induction sources generalizing start with
  | nil => exact ⟨[], rfl⟩
  | cons r sources ih =>
      rw [NoneRejected, List.forall_mem_cons] at h
      rcases ih h.2 (start + 1) with ⟨rules, hRules⟩
      cases hPattern : Pattern.compileWith? read r.pattern with
      | none => exact absurd (Rule.rejected_iff.mpr hPattern) h.1
      | some pattern =>
          simp only [compileRules, hPattern, hRules]
          exact ⟨_, rfl⟩

/- The first one that is rejected is told by its index. -/
theorem compileRules_of_rejected
    {rules : List (Rule Pattern.Source)}
    (hRules : NoneRejected read rules)
    {r : Rule Pattern.Source}
    (hr : r.Rejected read)
    (more : List (Rule Pattern.Source))
    (state : State)
    (start : Nat) :
    compileRules read state start (rules ++ r :: more) =
      Except.error
        (CompileError.badPattern state
          (start + rules.length)) := by
  induction rules generalizing start with
  | nil =>
      rw [Rule.rejected_iff] at hr
      simp only [List.nil_append, compileRules, hr,
        List.length_nil, Nat.add_zero]
  | cons r' rules ih =>
      rw [NoneRejected, List.forall_mem_cons] at hRules
      cases hPattern : Pattern.compileWith? read r'.pattern with
      | none =>
          exact absurd (Rule.rejected_iff.mpr hPattern)
            hRules.1
      | some pattern =>
          have hLength :
              start + (r' :: rules).length =
                start + 1 + rules.length := by
            rw [List.length_cons]
            omega
          simp only [List.cons_append, compileRules, hPattern,
            ih hRules.2, hLength]

/- Of some rules with a rejected one there is a first. -/
theorem exists_first_rejected
    {sources : List (Rule Pattern.Source)}
    (h : ¬ NoneRejected read sources) :
    ∃ rules r more, sources = rules ++ r :: more ∧
      NoneRejected read rules ∧ r.Rejected read := by
  induction sources with
  | nil => exact absurd noneRejected_nil h
  | cons r sources ih =>
      by_cases hr : r.Rejected read
      · exact ⟨[], r, sources, rfl, noneRejected_nil, hr⟩
      · have hLater : ¬ NoneRejected read sources := by
          intro hNone
          exact h (List.forall_mem_cons.mpr ⟨hr, hNone⟩)
        rcases ih hLater with
          ⟨rules, r', more, rfl, hRules, hr'⟩
        exact ⟨r :: rules, r', more, rfl,
          List.forall_mem_cons.mpr ⟨hr, hRules⟩, hr'⟩

/-
  Entries compile to a table, or the first rejected rule is
  complained about.
-/
theorem exists_compileEntries
    (entries : List Entry)
    (base : RuleTable) :
    ((∀ e ∈ entries, NoneRejected read e.rules) ∧
      ∃ table, compileEntries read entries base =
        Except.ok table) ∨
    ∃ state index, RejectsFirst read entries state index ∧
      compileEntries read entries base =
        Except.error
          (CompileError.badPattern state index) := by
  induction entries generalizing base with
  | nil =>
      left
      refine ⟨?_, base, rfl⟩
      intro e he
      cases he
  | cons e entries ih =>
      by_cases hRules : NoneRejected read e.rules
      · rcases exists_compileRules hRules e.state 0 with
          ⟨rules, hCompiled⟩
        have hEntry : compileEntries read (e :: entries) base =
            compileEntries read entries
              (base.insert e.state rules) := by
          simp only [compileEntries, hCompiled]
        rw [hEntry]
        rcases ih (base.insert e.state rules) with
          ⟨hLater, hTable⟩ | ⟨state, index, hFirst, hError⟩
        · exact Or.inl
            ⟨List.forall_mem_cons.mpr ⟨hRules, hLater⟩, hTable⟩
        · exact Or.inr
            ⟨state, index, hFirst.cons hRules, hError⟩
      · rcases exists_first_rejected hRules with
          ⟨rules, r, more, hSplit, hBefore, hr⟩
        refine Or.inr ⟨e.state, rules.length,
          ⟨[], e, entries, rules, r, more, rfl, rfl, hSplit,
            rfl, hr, hBefore, ?_⟩, ?_⟩
        · intro e' he'
          cases he'
        simp only [compileEntries, hSplit,
          compileRules_of_rejected hBefore hr, Nat.zero_add]

------------------------------------------------------------
-- Well-formed entries
------------------------------------------------------------

/- A rule in written form splits the captures of a literal. -/
def SplitsLiteral (r : Rule Pattern.Source) : Prop :=
  (∃ literal, r.pattern = Pattern.Source.upTo literal) ∧
    ∃ groups, r.labelling = Labelling.captures groups

/-
  A rule in written form is sound among some entries when
  its next state has one of them, it does not both indent
  and dedent, and it does not split the captures of a
  literal.
-/
structure SoundSource (entries : List Entry)
    (r : Rule Pattern.Source) : Prop where
  next_entry : ∀ next, r.next = some next →
    ∃ e ∈ entries, e.state = next
  one_effect : ¬ (r.indents = true ∧ r.dedents = true)
  whole_literal : ¬ SplitsLiteral r

/-
  Entries are well formed when one is for the start state,
  and the last one of each state has rules, all of them
  sound.
-/
structure WellFormed (entries : List Entry) : Prop where
  start_entry : ∃ e ∈ entries, e.state = State.start
  rules_ne_nil : ∀ state e,
    lastEntryOf? entries state = some e → e.rules ≠ []
  rules_sound : ∀ state e,
    lastEntryOf? entries state = some e →
      ∀ r ∈ e.rules, SoundSource entries r

/-
  Entries have a fault: it names what the start state lacks,
  or the state, or the rule in the last entry of a state,
  that something is wrong with.
-/
def HasFault (entries : List Entry) : Invalid → Prop
  | Invalid.missingStart =>
      ∀ e ∈ entries, e.state ≠ State.start
  | Invalid.noRules state =>
      ∃ e, lastEntryOf? entries state = some e ∧ e.rules = []
  | Invalid.undefinedNext state index next =>
      ∃ e r, lastEntryOf? entries state = some e ∧
        e.rules[index]? = some r ∧ r.next = some next ∧
        ∀ e' ∈ entries, e'.state ≠ next
  | Invalid.bothEffects state index =>
      ∃ e r, lastEntryOf? entries state = some e ∧
        e.rules[index]? = some r ∧
        r.indents = true ∧ r.dedents = true
  | Invalid.splitLiteral state index =>
      ∃ e r, lastEntryOf? entries state = some e ∧
        e.rules[index]? = some r ∧ SplitsLiteral r

/- A state has a last entry just if it has one. -/
theorem isSome_lastEntryOf?_iff
    {entries : List Entry}
    {state : State} :
    (lastEntryOf? entries state).isSome = true ↔
      ∃ e ∈ entries, e.state = state := by
  simp [lastEntryOf?]

------------------------------------------------------------
-- Compiled entries
------------------------------------------------------------

section

variable {entries : List Entry}
variable {table : RuleTable}

/- Entries that compile have no rejected rule. -/
theorem noneRejected_of_compileEntries
    {base : RuleTable}
    (h : compileEntries read entries base = Except.ok table) :
    ∀ e ∈ entries, NoneRejected read e.rules := by
  rcases exists_compileEntries entries base with
    ⟨hNone, -⟩ | ⟨state, index, -, hError⟩
  · exact hNone
  · rw [h] at hError
    cases hError

/- The rules of a state are those of its last entry. -/
theorem rulesFor?_of_lastEntryOf?
    (h : compileEntries read entries empty = Except.ok table)
    {state : State}
    {e : Entry}
    (he : lastEntryOf? entries state = some e) :
    ∃ rules, table.rulesFor? state = some rules ∧
      List.Forall₂ (CompilesTo read) e.rules rules := by
  have hMem : e ∈ entries :=
    List.mem_reverse.mp (List.mem_of_find?_eq_some he)
  rcases exists_compileRules
      (noneRejected_of_compileEntries h e hMem) e.state 0 with
    ⟨rules, hRules⟩
  refine ⟨rules, ?_, forall₂_compilesTo hRules⟩
  rw [rulesFor?_compileEntries h, he]
  simp only [hRules]
  rfl

/- A state without an entry has none. -/
theorem rulesFor?_of_lastEntryOf?_none
    (h : compileEntries read entries empty = Except.ok table)
    {state : State}
    (hNone : lastEntryOf? entries state = none) :
    table.rulesFor? state = none := by
  rw [rulesFor?_compileEntries h, hNone]
  rfl

/- The rules of a state come from its last entry. -/
theorem exists_lastEntryOf?
    (h : compileEntries read entries empty = Except.ok table)
    {state : State}
    {rules : List (Rule Pattern)}
    (hRules : table.rulesFor? state = some rules) :
    ∃ e, lastEntryOf? entries state = some e ∧
      List.Forall₂ (CompilesTo read) e.rules rules := by
  cases he : lastEntryOf? entries state with
  | none =>
      rw [rulesFor?_of_lastEntryOf?_none h he] at hRules
      cases hRules
  | some e =>
      rcases rulesFor?_of_lastEntryOf? h he with
        ⟨rules', hRules', hCompiled⟩
      cases hRules.symm.trans hRules'
      exact ⟨e, rfl, hCompiled⟩

/- The table defines the states that have an entry. -/
theorem defines_iff
    (h : compileEntries read entries empty = Except.ok table)
    (state : State) :
    table.defines state = true ↔
      ∃ e ∈ entries, e.state = state := by
  rw [← isSome_lastEntryOf?_iff, defines]
  cases he : lastEntryOf? entries state with
  | none => simp [rulesFor?_of_lastEntryOf?_none h he]
  | some e =>
      rcases rulesFor?_of_lastEntryOf? h he with
        ⟨rules, hRules, -⟩
      rw [hRules]
      simp

theorem splitsLiteral_iff
    {r : Rule Pattern.Source}
    {r' : Rule Pattern}
    (h : CompilesTo read r r') :
    splitsLiteral r' = true ↔ SplitsLiteral r := by
  rcases h with ⟨pattern, hPattern, rfl⟩
  unfold SplitsLiteral splitsLiteral Rule.withPattern
  cases hSource : r.pattern with
  | regex source =>
      rw [hSource, Pattern.compileWith?,
        Option.map_eq_some_iff] at hPattern
      rcases hPattern with ⟨a, -, rfl⟩
      simp
  | upTo literal =>
      rw [hSource] at hPattern
      cases hPattern
      cases r.labelling <;> simp

/- A compiled rule is sound just if the written one is. -/
theorem sound_iff
    (h : compileEntries read entries empty = Except.ok table)
    {r : Rule Pattern.Source}
    {r' : Rule Pattern}
    (hr : CompilesTo read r r') :
    table.Sound r' ↔ SoundSource entries r := by
  have hSplits := splitsLiteral_iff hr
  rcases hr with ⟨pattern, hPattern, rfl⟩
  constructor
  · intro hSound
    refine ⟨fun next hNext => (defines_iff h next).mp
      (hSound.defines_next next hNext), ?_, ?_⟩
    · rintro ⟨hIndents, hDedents⟩
      have hOne : (r.indents && r.dedents) = false :=
        hSound.one_effect
      rw [hIndents, hDedents] at hOne
      cases hOne
    · rw [← hSplits, hSound.whole_literal]
      exact Bool.false_ne_true
  · intro hSound
    refine ⟨fun next hNext => (defines_iff h next).mpr
      (hSound.next_entry next hNext), ?_, ?_⟩
    · exact Bool.eq_false_iff.mpr fun hBoth =>
        hSound.one_effect (Bool.and_eq_true_iff.mp hBoth)
    · exact Bool.eq_false_iff.mpr fun hIs =>
        hSound.whole_literal (hSplits.mp hIs)

/- What holds of rules one by one holds of all or not. -/
theorem forall_mem_iff_of_forall₂
    {α β : Type}
    {R : α → β → Prop}
    {P : α → Prop}
    {Q : β → Prop}
    (hIff : ∀ a b, R a b → (Q b ↔ P a))
    {xs : List α}
    {ys : List β}
    (h : List.Forall₂ R xs ys) :
    (∀ y ∈ ys, Q y) ↔ ∀ x ∈ xs, P x := by
  induction h with
  | nil => simp
  | @cons a b xs ys hFirst hRest ih =>
      rw [List.forall_mem_cons, List.forall_mem_cons, ih,
        hIff a b hFirst]

/-
  Nothing is wrong with the table just if its entries are
  well formed.
-/
theorem fault?_eq_none_iff_wellFormed
    (h : compileEntries read entries empty = Except.ok table) :
    table.fault? = none ↔ WellFormed entries := by
  have hSound : ∀ a b, CompilesTo read a b →
      (table.Sound b ↔ SoundSource entries a) :=
    fun a b hr => sound_iff h hr
  rw [fault?_eq_none_iff, defines_iff h]
  constructor
  · rintro ⟨hStart, hEntries⟩
    refine ⟨hStart, ?_, ?_⟩
    · intro state e he hNil
      rcases rulesFor?_of_lastEntryOf? h he with
        ⟨rules, hRules, hCompiled⟩
      rw [hNil, List.forall₂_nil_left_iff] at hCompiled
      exact (hEntries state rules hRules).1 hCompiled
    · intro state e he
      rcases rulesFor?_of_lastEntryOf? h he with
        ⟨rules, hRules, hCompiled⟩
      exact (forall_mem_iff_of_forall₂ hSound hCompiled).mp
        (hEntries state rules hRules).2
  · intro hWell
    refine ⟨hWell.start_entry, ?_⟩
    intro state rules hRules
    rcases exists_lastEntryOf? h hRules with
      ⟨e, he, hCompiled⟩
    constructor
    · rintro rfl
      rw [List.forall₂_nil_right_iff] at hCompiled
      exact hWell.rules_ne_nil state e he hCompiled
    · exact (forall_mem_iff_of_forall₂ hSound hCompiled).mpr
        (hWell.rules_sound state e he)

/- The rule at a place is compiled from the one there. -/
theorem exists_source_of_getElem?
    {sources : List (Rule Pattern.Source)}
    {rules : List (Rule Pattern)}
    (h : List.Forall₂ (CompilesTo read) sources rules)
    {index : Nat}
    {r' : Rule Pattern}
    (hr' : rules[index]? = some r') :
    ∃ r, sources[index]? = some r ∧ CompilesTo read r r' := by
  rcases List.getElem?_eq_some_iff.mp hr' with ⟨hLt, rfl⟩
  have hLt' : index < sources.length := by
    rw [h.length_eq]
    exact hLt
  exact ⟨sources[index], List.getElem?_eq_getElem hLt',
    h.get hLt' hLt⟩

/- A fault of a rule is one of the entry it stands in. -/
theorem hasFault_of_ruleFault?
    (h : compileEntries read entries empty = Except.ok table)
    {state : State}
    {e : Entry}
    (he : lastEntryOf? entries state = some e)
    {index : Nat}
    {r : Rule Pattern.Source}
    {r' : Rule Pattern}
    (hr : e.rules[index]? = some r)
    (hCompiled : CompilesTo read r r')
    {fault : Invalid}
    (hFault :
      table.ruleFault? state index r' = some fault) :
    HasFault entries fault := by
  have hSplits := splitsLiteral_iff hCompiled
  rcases hCompiled with ⟨pattern, -, rfl⟩
  unfold ruleFault? at hFault
  split at hFault
  · -- the next state is not defined
    rename_i next hNext
    cases hFault
    rcases Option.filter_eq_some_iff.mp hNext with
      ⟨hIs, hNot⟩
    refine ⟨e, r, he, hr, hIs, ?_⟩
    intro e' he' hState
    have hDefines := (defines_iff h next).mpr ⟨e', he', hState⟩
    rw [hDefines] at hNot
    cases hNot
  · split at hFault
    · rename_i hBoth
      cases hFault
      exact ⟨e, r, he, hr, Bool.and_eq_true_iff.mp hBoth⟩
    · split at hFault
      · rename_i hIs
        cases hFault
        exact ⟨e, r, he, hr, hSplits.mp hIs⟩
      · cases hFault

/- The fault that is found is one that the entries have. -/
theorem hasFault_of_fault?
    (h : compileEntries read entries empty = Except.ok table)
    {fault : Invalid}
    (hFault : table.fault? = some fault) :
    HasFault entries fault := by
  unfold fault? at hFault
  split at hFault
  · rcases List.exists_of_findSome?_eq_some hFault with
      ⟨state, -, hEntry⟩
    unfold entryFault? at hEntry
    split at hEntry
    · cases hEntry
    · rename_i hRules
      cases hEntry
      rcases exists_lastEntryOf? h hRules with
        ⟨e, he, hCompiled⟩
      exact ⟨e, he, List.forall₂_nil_right_iff.mp hCompiled⟩
    · rename_i rules hSome hRules
      rcases List.exists_of_findSome?_eq_some hEntry with
        ⟨⟨r', index⟩, hMem, hRule⟩
      rcases exists_lastEntryOf? h hRules with
        ⟨e, he, hCompiled⟩
      rcases exists_source_of_getElem? hCompiled
          (List.mem_zipIdx_iff_getElem?.mp hMem) with
        ⟨r, hr, hThis⟩
      exact hasFault_of_ruleFault? h he hr hThis hRule
  · rename_i hStart
    cases hFault
    intro e he hState
    exact hStart ((defines_iff h State.start).mpr
      ⟨e, he, hState⟩)

end

------------------------------------------------------------
-- Compiling
------------------------------------------------------------

/-
  For every reader and every list of entries: if the reader
  rejects an expression, compiling complains about the first
  such rule, whatever else is wrong. Otherwise it makes a
  table just if the entries are well formed, and else
  complains about a fault that they have. The table has for
  each state the rules of its last entry, compiled, and no
  others.
-/
theorem compile_decides
    (read : Regex.Reader)
    (entries : List Entry) :
    ((∃ e ∈ entries, ¬ NoneRejected read e.rules) →
      ∃ state index, RejectsFirst read entries state index ∧
        compileWith read entries =
          Except.error
            (CompileError.badPattern state index)) ∧
    ((∀ e ∈ entries, NoneRejected read e.rules) →
      ((∃ table, compileWith read entries = Except.ok table) ↔
        WellFormed entries) ∧
      (¬ WellFormed entries →
        ∃ fault, HasFault entries fault ∧
          compileWith read entries =
            Except.error (CompileError.invalid fault))) ∧
    ∀ table, compileWith read entries = Except.ok table →
      ∀ state,
        (∀ e, lastEntryOf? entries state = some e →
          ∃ rules, table.rulesFor? state = some rules ∧
            List.Forall₂ (CompilesTo read) e.rules rules) ∧
        (lastEntryOf? entries state = none →
          table.rules state = []) := by
  rcases exists_compileEntries entries empty with
    ⟨hNone, table, hTable⟩ |
      ⟨state, index, hFirst, hError⟩
  · -- no expression is rejected
    have hWell := fault?_eq_none_iff_wellFormed hTable
    refine ⟨?_, fun _ => ⟨?_, ?_⟩, ?_⟩
    · rintro ⟨e, he, hRejected⟩
      exact absurd (hNone e he) hRejected
    · rw [← hWell]
      constructor
      · rintro ⟨other, hOther⟩
        rcases compileWith_eq_ok_iff.mp hOther with
          ⟨hIs, hFault⟩
        rw [hTable] at hIs
        cases hIs
        exact hFault
      · intro hFault
        exact ⟨table,
          compileWith_eq_ok_iff.mpr ⟨hTable, hFault⟩⟩
    · intro hNot
      rw [← hWell] at hNot
      rcases Option.ne_none_iff_exists'.mp hNot with
        ⟨fault, hFault⟩
      refine ⟨fault, hasFault_of_fault? hTable hFault, ?_⟩
      rw [compileWith, hTable]
      simp only [hFault]
    · intro other hOther state
      have hIs := (compileWith_eq_ok_iff.mp hOther).1
      refine ⟨fun e he => rulesFor?_of_lastEntryOf? hIs he,
        ?_⟩
      intro hLast
      rw [rules, rulesFor?_of_lastEntryOf?_none hIs hLast]
      rfl
  · have hCompile : compileWith read entries =
        Except.error
          (CompileError.badPattern state index) := by
      rw [compileWith, hError]
    refine ⟨fun _ => ⟨state, index, hFirst, hCompile⟩, ?_, ?_⟩
    · intro hNone
      rcases hFirst with ⟨earlier, e, later, rules, r, more,
        rfl, -, hRules, -, hr, -⟩
      have hMem : r ∈ e.rules := by
        rw [hRules]
        simp
      exact absurd hr (hNone e (by simp) r hMem)
    · intro table hTable
      rw [hCompile] at hTable
      cases hTable

end RuleTable

end Highlighter

import Highlighter.Proofs.Highlight
import Highlighter.Proofs.RuleTable
import Highlighter.Proofs.Scan.Step

/-
  The states that a scan comes to: a kind of state that no
  rule leads out of is never left. So a scan with a table
  that compiled goes on in states that have rules, and one
  in a state without rules stays there.

  Key definitions include:
    * `RuleTable.KeepsTo`
    * `Highlight.StaysIn`
    * `Token.lone`

  Main statements:
    * `RuleTable.KeepsTo.stepOn` and
      `RuleTable.KeepsTo.scanFrom`
    * `RuleTable.states_have_rules`: the states that have
      rules are kept to by a table that compiled.
    * `RuleTable.states_closed`
-/

namespace Highlighter

/- All states that highlighting comes to are of a kind. -/
structure Highlight.StaysIn (P : State → Prop)
    (h : Highlight) : Prop where
  stateAfter : ∀ t ∈ h.tokens, P t.stateAfter
  lineStates : ∀ state ∈ h.lineStates, P state
  endState : P h.endState

/- A character by itself as a token that changes nothing. -/
def Token.lone (state : State) (offset : Nat) (c : Char) :
    Token :=
  ⟨none, [c], offset, state, Effect.none⟩

namespace RuleTable

------------------------------------------------------------
-- Kinds of states
------------------------------------------------------------

/-
  A table keeps to a kind of state when every rule of such a
  state moves to one again.
-/
def KeepsTo (table : RuleTable) (P : State → Prop) : Prop :=
  ∀ state, P state → ∀ r ∈ table.rules state,
    P (r.stateAfter state)

section

variable {table : RuleTable}
variable {P : State → Prop}

/- A step does not lead out of the kind. -/
theorem KeepsTo.stepOn
    (h : table.KeepsTo P)
    {cursor : Cursor}
    (hState : P cursor.state)
    {text : Text}
    {s : Step}
    (hStep : table.stepOn cursor text = some s) :
    P s.cursor.state := by
  rcases stepOn_cases hStep with
    ⟨-, rfl⟩ | ⟨-, -, r, hit, hHit, rfl⟩ | ⟨-, rfl⟩
  · exact hState
  · exact h cursor.state hState r (firstHit_mem hHit)
  · exact hState

/- Nor does a scan. -/
theorem KeepsTo.scanFrom
    (h : table.KeepsTo P)
    (cursor : Cursor)
    (hState : P cursor.state)
    (text : Text) :
    ∀ t ∈ table.scanFrom cursor text, P t.stateAfter := by
  induction cursor, text using scan_induction table with
  | hEnd cursor =>
      intro t ht
      rw [scanFrom_nil] at ht
      cases ht
  | hStep cursor text s consumed hStep hConsumes ih =>
      have hNext : P s.cursor.state := h.stepOn hState hStep
      intro t ht
      rw [scanFrom_of_stepOn hStep] at ht
      rcases List.mem_append.mp ht with hHere | hLater
      · rw [hConsumes.state_eq t hHere]
        exact hNext
      · exact ih hNext t hLater

/- So all that is noted about a text is of the kind. -/
theorem KeepsTo.staysIn
    (h : table.KeepsTo P)
    {state : State}
    (hState : P state)
    (text : Text) :
    (table.highlight text state).StaysIn P := by
  have hTokens : ∀ t ∈ table.scan text state,
      P t.stateAfter :=
    h.scanFrom ⟨0, state⟩ hState text
  refine ⟨hTokens, ?_, ?_⟩
  · intro other hOther
    rcases List.mem_cons.mp hOther with rfl | hBreak
    · exact hState
    · rcases List.mem_map.mp hBreak with ⟨t, ht, rfl⟩
      exact hTokens t (List.mem_of_mem_filter ht)
  · rw [highlight, Token.endState]
    cases hLast : (table.scan text state).getLast? with
    | none => exact hState
    | some t =>
        exact hTokens t (List.mem_of_getLast? hLast)

end

------------------------------------------------------------
-- States with rules
------------------------------------------------------------

/- In a table that compiled an entry is one with rules. -/
theorem rules_ne_nil_of_defines
    {read : Regex.Reader}
    {entries : List Entry}
    {table : RuleTable}
    (h : compileWith read entries = Except.ok table)
    {state : State}
    (hDefines : table.defines state = true) :
    table.rules state ≠ [] := by
  rcases Option.isSome_iff_exists.mp hDefines with
    ⟨rules, hRules⟩
  have hFault := fault?_eq_none_iff.mp (fault?_of_compile h)
  rw [RuleTable.rules, hRules]
  exact (hFault.2 state rules hRules).1

theorem defines_of_rules_ne_nil
    {table : RuleTable}
    {state : State}
    (h : table.rules state ≠ []) :
    table.defines state = true := by
  unfold rules at h
  unfold defines
  cases hRules : table.rulesFor? state with
  | none =>
      rw [hRules] at h
      exact absurd rfl h
  | some rules => rfl

/-
  A table that compiled keeps to the states that have rules:
  it was checked that the next state of each rule has an
  entry, and that each entry has rules.
-/
theorem states_have_rules
    {read : Regex.Reader}
    {entries : List Entry}
    {table : RuleTable}
    (h : compileWith read entries = Except.ok table) :
    table.KeepsTo fun state => table.rules state ≠ [] := by
  intro state hState r hr
  have hSound := sound_of_compile h hr
  apply rules_ne_nil_of_defines h
  unfold Rule.stateAfter
  cases hNext : r.next with
  | none => exact defines_of_rules_ne_nil hState
  | some next => exact hSound.defines_next next hNext

------------------------------------------------------------
-- States without rules
------------------------------------------------------------

/- A state without rules is kept to, there being none. -/
theorem keepsTo_of_no_rules
    {table : RuleTable}
    {state : State}
    (h : table.rules state = []) :
    table.KeepsTo fun other => other = state := by
  rintro other rfl r hr
  rw [h] at hr
  cases hr

/-
  In a state without rules a step is over a line break or
  over a single character.
-/
theorem stepOn_of_no_rules
    {table : RuleTable}
    {cursor : Cursor}
    (h : table.rules cursor.state = [])
    {text : Text}
    {s : Step}
    (hStep : table.stepOn cursor text = some s) :
    ∃ t, s.tokens = [t] ∧
      (t.isLineBreak = true ∨
        ∃ c, t = Token.lone cursor.state cursor.offset c) := by
  rcases stepOn_cases hStep with
    ⟨hBreak, rfl⟩ | ⟨-, -, r, hit, hHit, -⟩ |
      ⟨⟨hText, -⟩, rfl⟩
  · exact ⟨_, rfl,
      Or.inl (Text.isLineBreak_take_breakLength hBreak)⟩
  · rw [h] at hHit
    cases hHit
  · cases text with
    | nil => exact absurd rfl hText
    | cons c rest => exact ⟨_, rfl, Or.inr ⟨c, rfl⟩⟩

/- And so is every token of a scan. -/
theorem scanFrom_of_no_rules
    {table : RuleTable}
    (cursor : Cursor)
    (h : table.rules cursor.state = [])
    (text : Text) :
    ∀ t ∈ table.scanFrom cursor text,
      t.isLineBreak = true ∨
        ∃ c, t = Token.lone cursor.state t.start c := by
  induction cursor, text using scan_induction table with
  | hEnd cursor =>
      intro t ht
      rw [scanFrom_nil] at ht
      cases ht
  | hStep cursor text s consumed hStep hConsumes ih =>
      have hSame : s.cursor.state = cursor.state :=
        (keepsTo_of_no_rules h).stepOn rfl hStep
      rw [hSame] at ih
      intro t ht
      rw [scanFrom_of_stepOn hStep] at ht
      rcases List.mem_append.mp ht with hHere | hLater
      · rcases stepOn_of_no_rules h hStep with
          ⟨u, hTokens, hKind⟩
        rw [hTokens] at hHere
        rcases List.mem_singleton.mp hHere with rfl
        refine hKind.imp_right ?_
        rintro ⟨c, rfl⟩
        exact ⟨c, rfl⟩
      · exact ih h t hLater

/-
  Every character of the text that is not of a line break is
  one of these tokens.
-/
theorem lone_mem_scan_of_no_rules
    {table : RuleTable}
    {state : State}
    (h : table.rules state = [])
    {text before after : Text}
    {c : Char}
    (hText : text = before ++ c :: after)
    (hc : Text.isBreakChar c = false) :
    Token.lone state before.size c ∈
      table.scan text state := by
  have hTiles := table.scanFrom_tiles ⟨0, state⟩ text
  rcases hTiles.exists_over hText with
    ⟨t, ht, u, v, hSplit, hStart⟩
  rcases scanFrom_of_no_rules ⟨0, state⟩ h text t ht
    with hBreak | ⟨d, hLone⟩
  · -- a line break has no such character
    have hMem : c ∈ t.text := by
      rw [hSplit]
      simp
    rw [Text.isBreakChar_of_mem hBreak hMem] at hc
    cases hc
  · have hOne : [d] = u ++ c :: v := by
      rw [← hSplit, hLone]
      rfl
    cases u with
    | nil =>
        cases hOne
        rw [Text.size_nil, Nat.add_zero, Nat.zero_add]
          at hStart
        rw [hLone, hStart] at ht
        exact ht
    | cons x u => simp at hOne

------------------------------------------------------------
-- All scans
------------------------------------------------------------

/-
  For every table, text and state: if the table compiled
  with any reader, its start state has rules, and a scan
  from a state with an entry comes only to states that have
  rules; and from a state without an entry the scan never
  leaves that state, and its tokens are the line breaks and,
  each by itself, the other characters of the text.
-/
theorem states_closed
    (table : RuleTable)
    (text : Text)
    (state : State) :
    ((∃ read entries,
        compileWith read entries = Except.ok table) →
      table.defines State.start = true ∧
        (table.defines state = true →
          (table.highlight text state).StaysIn
            fun s => table.rules s ≠ [])) ∧
    (table.defines state = false →
      (table.highlight text state).StaysIn (· = state) ∧
        (∀ (before : Text) c after,
          text = before ++ c :: after →
          Text.isBreakChar c = false →
            Token.lone state before.size c ∈
              table.scan text state) ∧
        ∀ t ∈ table.scan text state,
          t.isLineBreak = true ∨
            ∃ c, t = Token.lone state t.start c) := by
  constructor
  · rintro ⟨read, entries, hCompile⟩
    have hFault := fault?_of_compile hCompile
    refine ⟨(fault?_eq_none_iff.mp hFault).1, ?_⟩
    intro hDefines
    exact (states_have_rules hCompile).staysIn
      (rules_ne_nil_of_defines hCompile hDefines) text
  · intro hNone
    have hRules : table.rules state = [] := by
      by_contra hSome
      rw [defines_of_rules_ne_nil hSome] at hNone
      cases hNone
    refine ⟨(keepsTo_of_no_rules hRules).staysIn rfl text,
      ?_, ?_⟩
    · intro before c after hText hc
      exact lone_mem_scan_of_no_rules hRules hText hc
    · exact scanFrom_of_no_rules ⟨0, state⟩ hRules text

end RuleTable

end Highlighter

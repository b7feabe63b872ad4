import Highlighter.Proofs.Qhantoom.StartRules
import Highlighter.Proofs.Qhantoom.States
import Highlighter.Proofs.Regex.Alphabet

/-
  Brackets under the Qhantoom table. Those outside of
  literals, comments and attributes are tokens by themselves
  that open and close levels of indentation, and no other
  tokens do.

  Key definitions include:
    * `Qhantoom.bracketsOf`
    * `Qhantoom.literalLabels`
    * `Qhantoom.IsBracket`
    * `Qhantoom.IsPlain`

  Main statements:
    * `Qhantoom.stepKind`: what tokens a single step makes.
    * `Qhantoom.brackets_accounted`
-/

namespace Highlighter

namespace Qhantoom

open Regex RuleTable

------------------------------------------------------------
-- Brackets
------------------------------------------------------------

/- The brackets that have an effect on the levels. -/
def bracketsOf : Effect → List Char
  | Effect.none => []
  | Effect.indent => [Char.ofNat 0x7b, '[', '(']
  | Effect.dedent => [Char.ofNat 0x7d, ']', ')']

/- All brackets. -/
def brackets : List Char :=
  bracketsOf Effect.indent ++ bracketsOf Effect.dedent

/- The labels of literals, comments and attributes. -/
def literalLabels : List Label :=
  [Label.string, Label.string2, Label.comment,
    Label.metadata]

/- A token is a bracket with its effect, and no more. -/
def IsBracket (t : Token) : Prop :=
  t.label = none ∧ ∃ c ∈ bracketsOf t.effect, t.text = [c]

/- Is a token part of a literal, comment or attribute? -/
def IsLiteral (t : Token) : Prop :=
  ∃ label ∈ literalLabels, t.label = some label

/-
  A token has no effect. It is part of a literal, comment or
  attribute, or there is no bracket in it.
-/
structure IsPlain (t : Token) : Prop where
  effect_eq : t.effect = Effect.none
  free : IsLiteral t ∨ ∀ c ∈ brackets, c ∉ t.text

theorem mem_brackets {effect : Effect} {c : Char}
    (h : c ∈ bracketsOf effect) : c ∈ brackets := by
  cases effect with
  | none => cases h
  | indent => exact List.mem_append_left _ h
  | dedent => exact List.mem_append_right _ h

/- No bracket has two effects. -/
theorem effect_unique
    {effect effect' : Effect}
    {c : Char}
    (h : c ∈ bracketsOf effect)
    (h' : c ∈ bracketsOf effect') : effect = effect' := by
  have hDisjoint : ∀ c ∈ bracketsOf Effect.indent,
      c ∉ bracketsOf Effect.dedent := by
    intro c hc
    simp only [bracketsOf, List.mem_cons, List.not_mem_nil,
      or_false] at hc
    rcases hc with rfl | rfl | rfl
    · decide
    · decide
    · decide
  cases effect with
  | none => cases h
  | indent =>
      cases effect' with
      | none => cases h'
      | indent => rfl
      | dedent => exact absurd h' (hDisjoint c h)
  | dedent =>
      cases effect' with
      | none => cases h'
      | indent => exact absurd h (hDisjoint c h')
      | dedent => rfl

/-
  A token that is a bracket or plain has the effect of a
  bracket just if it is unlabelled and that bracket.
-/
theorem effect_eq_iff
    {t : Token}
    (h : IsBracket t ∨ IsPlain t)
    {effect : Effect}
    (hEffect : effect ≠ Effect.none) :
    t.effect = effect ↔
      t.label = none ∧
        ∃ c ∈ bracketsOf effect, t.text = [c] := by
  constructor
  · rintro rfl
    rcases h with hBracket | hPlain
    · exact hBracket
    · exact absurd hPlain.effect_eq hEffect
  · rintro ⟨hLabel, c, hc, hText⟩
    rcases h with ⟨-, d, hd, hText'⟩ | hPlain
    · cases hText.symm.trans hText'
      exact effect_unique hd hc
    · rcases hPlain.free with ⟨label, -, hSome⟩ | hFree
      · rw [hLabel] at hSome
        cases hSome
      · exfalso
        apply hFree c (mem_brackets hc)
        rw [hText]
        exact List.mem_singleton_self c

------------------------------------------------------------
-- Rules
------------------------------------------------------------

/- The rule of the brackets that have an effect. -/
def bracketRule (chars : CharSet) (indents dedents : Bool) :
    Rule Pattern where
  pattern := Pattern.regex (anchored (set chars))
  labelling := Labelling.whole none
  indents := indents
  dedents := dedents

/-
  A rule of the start state reads no bracket or labels what
  it reads as a literal, a comment or an attribute; or it is
  one of the two rules for brackets.
-/
theorem startRules_cases :
    ∀ r ∈ compiledStart,
      (r.effect = Effect.none ∧
        ((∃ label ∈ literalLabels,
            r.labelling = Labelling.whole (some label)) ∨
          ∀ c ∈ brackets, r.pattern.mayRead c = false)) ∨
      r = bracketRule openers true false ∨
      r = bracketRule closingBrackets false true := by
  have hAll :
      ∀ r ∈ compiledStart,
        (r.effect = Effect.none ∧
          ((∃ label ∈ literalLabels,
              r.labelling = Labelling.whole (some label)) ∨
            brackets.all (fun c => !r.pattern.mayRead c) =
              true)) ∨
        r = bracketRule openers true false ∨
        r = bracketRule closingBrackets false true := by
    decide +kernel
  intro r hr
  rcases hAll r hr with
    ⟨hEffect, hLabel | hFree⟩ | hBracket
  · exact Or.inl ⟨hEffect, Or.inl hLabel⟩
  · left
    refine ⟨hEffect, Or.inr fun c hc => ?_⟩
    simpa using List.all_eq_true.mp hFree c hc
  · exact Or.inr hBracket

theorem bracketRules_mem :
    bracketRule openers true false ∈ compiledStart ∧
      bracketRule closingBrackets false true ∈
        compiledStart := by
  decide +kernel

/- A rule for brackets takes the one it is tried at. -/
theorem apply_bracketRule
    (chars : CharSet)
    (indents dedents : Bool)
    (c : Char)
    (line : Text) :
    (bracketRule chars indents dedents).apply (c :: line) =
      if chars.contains c then
        some ⟨1, [⟨none, [c]⟩]⟩
      else none := by
  have hWhole :
      (bracketRule chars indents dedents).labelling =
        Labelling.whole none := rfl
  rw [Rule.apply_whole hWhole]
  simp only [bracketRule, matchLength_set]
  cases chars.contains c <;> rfl

theorem contains_openers {c : Char} :
    openers.contains c = true ↔
      c ∈ bracketsOf Effect.indent := by
  simp only [openers, CharSet.unions, CharSet.contains,
    CharSet.contains_single, bracketsOf, Bool.or_eq_true,
    beq_iff_eq, List.mem_cons, List.not_mem_nil, or_false,
    eq_comm (a := c)]

theorem contains_closingBrackets {c : Char} :
    closingBrackets.contains c = true ↔
      c ∈ bracketsOf Effect.dedent := by
  simp only [closingBrackets, CharSet.unions,
    CharSet.contains, CharSet.contains_single, bracketsOf,
    Bool.or_eq_true, beq_iff_eq, List.mem_cons,
    List.not_mem_nil, or_false, eq_comm (a := c)]

/- No recovery is made at a bracket. -/
theorem not_mem_brackets_of_no_hit
    {c : Char}
    {line : Text}
    (h : firstHit (c :: line) compiledStart = none) :
    c ∉ brackets := by
  have hNone := firstHit_eq_none_iff.mp h
  intro hc
  rcases List.mem_append.mp hc with hc | hc
  · have hOpen := hNone _ bracketRules_mem.1
    rw [apply_bracketRule,
      if_pos (contains_openers.mpr hc)] at hOpen
    cases hOpen
  · have hClose := hNone _ bracketRules_mem.2
    rw [apply_bracketRule,
      if_pos (contains_closingBrackets.mpr hc)] at hClose
    cases hClose

------------------------------------------------------------
-- Steps
------------------------------------------------------------

/- A piece is part of a literal or has no bracket in it. -/
def IsFree (piece : Piece) : Prop :=
  (∃ label ∈ literalLabels, piece.label = some label) ∨
    ∀ c ∈ brackets, c ∉ piece.text

/- Such pieces become plain tokens without effect. -/
theorem isPlain_of_mem_layOut
    {stateAfter : State}
    {n : Nat}
    {pieces : List Piece}
    (h : ∀ piece ∈ pieces, IsFree piece)
    {t : Token}
    (ht : t ∈
      Token.layOut stateAfter Effect.none n pieces) :
    IsPlain t := by
  induction pieces generalizing n with
  | nil => cases ht
  | cons piece pieces ih =>
      rcases List.mem_cons.mp ht with rfl | ht
      · exact ⟨rfl, h piece (List.mem_cons_self ..)⟩
      · exact ih (fun p hp => h p (List.mem_cons_of_mem _ hp))
          ht

/-
  A step makes one token that is a bracket, in the start
  state, which it stays in, or it makes plain tokens.
-/
inductive StepKind (state : State) (s : Step) : Prop
  | bracket
      (t : Token)
      (hTokens : s.tokens = [t])
      (hBracket : IsBracket t)
      (hState : state = State.start)
      (hAfter : t.stateAfter = State.start)
  | plain
      (hPlain : ∀ t ∈ s.tokens, IsPlain t)

/- A step over a text without brackets is plain. -/
theorem stepKind_plainStep
    {cursor : Cursor}
    {rest : Text}
    {n : Nat}
    (h : ∀ c ∈ brackets, c ∉ rest.take n) :
    StepKind cursor.state (plainStep cursor rest n) := by
  apply StepKind.plain
  intro t ht
  refine isPlain_of_mem_layOut ?_ ht
  intro piece hPiece
  cases List.mem_singleton.mp hPiece
  exact Or.inr h

/- There is no bracket in a line break. -/
theorem not_mem_lineBreak
    {text : Text}
    (h : Text.isLineBreak text = true) :
    ∀ c ∈ brackets, c ∉ text := by
  have hAll : brackets.all (fun c => !Text.isBreakChar c) =
      true := by
    decide
  intro c hc hIn
  have hNot : Text.isBreakChar c = false := by
    simpa using List.all_eq_true.mp hAll c hc
  rw [Text.isBreakChar_of_mem h hIn] at hNot
  cases hNot

/- A step over pieces without brackets is plain. -/
theorem stepKind_stepOver
    {cursor : Cursor}
    {rest : Text}
    {n : Nat}
    {pieces : List Piece}
    {stateAfter : State}
    (h : ∀ piece ∈ pieces, IsFree piece) :
    StepKind cursor.state
      (stepOver cursor rest n pieces stateAfter
        Effect.none) :=
  StepKind.plain fun _ ht => isPlain_of_mem_layOut h ht

/- A rule for brackets makes a bracket. -/
theorem stepKind_bracketRule
    {cursor : Cursor}
    {rest line : Text}
    {hit : Hit}
    {chars : CharSet}
    {indents dedents : Bool}
    (hState : cursor.state = State.start)
    (hLine : line ≠ [])
    (hApply :
      (bracketRule chars indents dedents).apply line =
        some hit)
    (hChars : ∀ c, chars.contains c = true →
      c ∈ bracketsOf
        (bracketRule chars indents dedents).effect) :
    StepKind cursor.state
      (stepOver cursor rest hit.length hit.pieces
        ((bracketRule chars indents dedents).stateAfter
          cursor.state)
        (bracketRule chars indents dedents).effect) := by
  rcases List.exists_cons_of_ne_nil hLine with
    ⟨c, line, rfl⟩
  rw [apply_bracketRule] at hApply
  split at hApply
  · rename_i hc
    cases hApply
    exact StepKind.bracket _ rfl ⟨rfl, c, hChars c hc, rfl⟩
      hState hState
  · cases hApply

/- What a rule of the start state does. -/
theorem stepKind_start
    {cursor : Cursor}
    {rest : Text}
    {r : Rule Pattern}
    {hit : Hit}
    (hState : cursor.state = State.start)
    (hRest : rest ≠ [])
    (hBreak : Text.breakLength rest = 0)
    (hMem : r ∈ compiledStart)
    (hApply : r.apply rest.currentLine = some hit) :
    StepKind cursor.state
      (stepOver cursor rest hit.length hit.pieces
        (r.stateAfter cursor.state) r.effect) := by
  have hLine := Text.currentLine_ne_nil hRest hBreak
  rcases startRules_cases r hMem with
    ⟨hEffect, hFree⟩ | hOpen | hClose
  · rw [hEffect]
    apply stepKind_stepOver
    intro piece hPiece
    rcases hFree with ⟨label, hLabel, hWhole⟩ | hRead
    · left
      rw [Rule.apply_whole hWhole,
        Option.bind_eq_some_iff] at hApply
      rcases hApply with ⟨n, -, hHit⟩
      split at hHit
      · cases hHit
      · cases hHit
        cases List.mem_singleton.mp hPiece
        exact ⟨label, hLabel, rfl⟩
    · right
      intro c hc hIn
      have hMay := Rule.mayRead_of_mem hApply hPiece hIn
      rw [hRead c hc] at hMay
      cases hMay
  · subst hOpen
    exact stepKind_bracketRule hState hLine hApply
      fun c hc => contains_openers.mp hc
  · subst hClose
    exact stepKind_bracketRule hState hLine hApply
      fun c hc => contains_closingBrackets.mp hc

/- Outside of the start state all tokens belong to it. -/
theorem belongs_of_stepOn
    {cursor : Cursor}
    {rest : Text}
    {s : Step}
    (hState : cursor.state ≠ State.start)
    (h : table.stepOn cursor rest = some s) :
    ∀ t ∈ s.tokens, Belongs cursor.state t := by
  rcases cursor with ⟨offset, state⟩
  have hRest : rest ≠ [] := by
    rintro rfl
    cases h
  -- where the step is made does not matter
  have hReady := ready_nil state rest.currentLine
  rcases stateStep hState hRest hReady with
    ⟨u, hFirst, -, hKind⟩
  have hShift := stepOn_shift table 0 offset state rest
  rw [Nat.zero_add, h, show table.stepOn ⟨0, state⟩ rest =
    some u from hFirst] at hShift
  cases hShift
  intro t ht
  rcases List.mem_map.mp ht with ⟨t, hMem, rfl⟩
  cases hKind with
  | stay n first hRest hCursor hTokens hAfter hBelongs =>
      rw [hTokens] at hMem
      cases List.mem_singleton.mp hMem
      exact hBelongs
  | leave i closer first hRest hCursor hTokens hAfter
      hBelongs =>
      rw [hTokens] at hMem
      cases List.mem_singleton.mp hMem
      exact hBelongs

/- Such tokens are plain. -/
theorem Belongs.isPlain
    {state : State}
    {t : Token}
    (hState : state ≠ State.start)
    (h : Belongs state t) : IsPlain t := by
  refine ⟨h.2, ?_⟩
  rcases h.1 with hBreak | hLabel
  · exact Or.inr (not_mem_lineBreak hBreak)
  · left
    cases state with
    | start => exact absurd rfl hState
    | comment => exact ⟨Label.comment, by decide, hLabel⟩
    | string => exact ⟨Label.string, by decide, hLabel⟩
    | rawString => exact ⟨Label.string, by decide, hLabel⟩
    | hashString => exact ⟨Label.string, by decide, hLabel⟩

/- What tokens a single step makes. -/
theorem stepKind
    {cursor : Cursor}
    {rest : Text}
    {s : Step}
    (h : table.stepOn cursor rest = some s) :
    StepKind cursor.state s := by
  by_cases hState : cursor.state = State.start
  · rcases stepOn_cases h with
      ⟨hBreak, rfl⟩ | ⟨hRest, hBreak, r, hit, hHit, rfl⟩ |
        ⟨⟨hRest, hBreak, hNone⟩, rfl⟩
    · exact stepKind_plainStep (not_mem_lineBreak
        (Text.isLineBreak_take_breakLength hBreak))
    · rw [hState, rules_start] at hHit
      exact stepKind_start hState hRest hBreak
        (firstHit_mem hHit) (firstHit_apply hHit)
    · rw [hState, rules_start] at hNone
      cases rest with
      | nil => exact absurd rfl hRest
      | cons c rest =>
          rw [Text.currentLine_cons hBreak] at hNone
          apply stepKind_plainStep
          intro d hd hIn
          cases List.mem_singleton.mp hIn
          exact not_mem_brackets_of_no_hit hNone hd
  · exact StepKind.plain fun t ht =>
      (belongs_of_stepOn hState h t ht).isPlain hState

------------------------------------------------------------
-- Scans
------------------------------------------------------------

/- A scan makes no other tokens than those. -/
theorem isBracket_or_isPlain
    (cursor : Cursor)
    (text : Text) :
    ∀ t ∈ table.scanFrom cursor text,
      IsBracket t ∨ IsPlain t := by
  induction cursor, text using scan_induction table with
  | hEnd cursor =>
      intro t ht
      rw [scanFrom_nil] at ht
      cases ht
  | hStep cursor text s consumed hStep hConsumes ih =>
      intro t ht
      rw [scanFrom_of_stepOn hStep] at ht
      rcases List.mem_append.mp ht with ht | ht
      · cases stepKind hStep with
        | bracket u hTokens hBracket hState hAfter =>
            rw [hTokens] at ht
            cases List.mem_singleton.mp ht
            exact Or.inl hBracket
        | plain hPlain => exact Or.inr (hPlain t ht)
      · exact ih t ht

/- Brackets are met in the start state and stay in it. -/
theorem states_of_effect
    {cursor : Cursor}
    {text : Text}
    {before after : List Token}
    {t : Token}
    (hScan :
      table.scanFrom cursor text = before ++ t :: after)
    (hEffect : t.effect ≠ Effect.none) :
    Token.endState cursor.state before = State.start ∧
      t.stateAfter = State.start := by
  induction cursor, text using scan_induction table
    generalizing before with
  | hEnd cursor =>
      rw [scanFrom_nil] at hScan
      exact absurd hScan.symm (by simp)
  | hStep cursor text s consumed hStep hConsumes ih =>
      rw [scanFrom_of_stepOn hStep] at hScan
      rcases List.append_eq_append_iff.mp hScan with
        ⟨later, hBefore, hLater⟩ | ⟨later, hTokens, hAfter⟩
      · -- the token comes after the step
        rw [hBefore, Token.endState_append,
          hConsumes.endState_eq]
        exact ih hLater
      · cases later with
        | nil =>
            rw [List.append_nil] at hTokens
            rw [← hTokens, hConsumes.endState_eq]
            have hLater :
                table.scanFrom s.cursor s.rest =
                  [] ++ t :: after := hAfter.symm
            exact ih hLater
        | cons u later =>
            -- it is one of the step
            cases hAfter
            cases stepKind hStep with
            | bracket u hOne hBracket hState hAfter =>
                rw [hOne] at hTokens
                cases before with
                | nil =>
                    cases hTokens
                    exact ⟨hState, hAfter⟩
                | cons x before => simp at hTokens
            | plain hPlain =>
                have hMem : t ∈ s.tokens := by
                  rw [hTokens]
                  simp
                exact absurd (hPlain t hMem).effect_eq hEffect

/-
  Every bracket is accounted for. The tokens that open a
  level are the unlabelled ones that are an opening bracket,
  and those that close one the unlabelled ones that are a
  closing bracket; all of them are met in the start state
  and stay in it. Over each bracket of the text there is
  just one token, which is such a one or is part of a
  literal, a comment or an attribute.
-/
theorem brackets_accounted (text : Text) (state : State) :
    let tokens := table.scan text state
    (∀ t ∈ tokens, ∀ effect, effect ≠ Effect.none →
      (t.effect = effect ↔
        t.label = none ∧
          ∃ c ∈ bracketsOf effect, t.text = [c])) ∧
    (∀ before t after, tokens = before ++ t :: after →
      t.effect ≠ Effect.none →
        Token.endState state before = State.start ∧
          t.stateAfter = State.start) ∧
    (∀ (before after : Text) (c : Char),
      text = before ++ c :: after → c ∈ brackets →
        ∃ t, (∀ u, u ∈ tokens ∧ u.Over before.size ↔ u = t) ∧
          ((IsBracket t ∧ t.text = [c] ∧
              t.start = before.size) ∨
            IsLiteral t)) := by
  intro tokens
  have hKinds := isBracket_or_isPlain ⟨0, state⟩ text
  have hTiles : Token.Tiles 0 tokens text :=
    table.scanFrom_tiles ⟨0, state⟩ text
  refine ⟨fun t ht effect hEffect =>
    effect_eq_iff (hKinds t ht) hEffect,
    fun before t after hScan hEffect =>
      states_of_effect hScan hEffect, ?_⟩
  intro before after c hText hc
  rcases hTiles.exists_over hText with
    ⟨t, ht, u, v, hSplit, hStart⟩
  rw [Nat.zero_add] at hStart
  have hOver : t.Over before.size := by
    constructor
    · omega
    · rw [Token.stop, hSplit, Text.size_append, Text.size_cons]
      have hPos := Char.utf8Size_pos c
      omega
  refine ⟨t, ?_, ?_⟩
  · intro w
    constructor
    · rintro ⟨hw, hOver'⟩
      exact hTiles.over_unique hw ht hOver' hOver
    · rintro rfl
      exact ⟨ht, hOver⟩
  · rcases hKinds t ht with hBracket | hPlain
    · left
      rcases hBracket.2 with ⟨d, -, hOne⟩
      have hEq := hSplit.symm.trans hOne
      cases u with
      | nil =>
          cases hEq
          refine ⟨hBracket, hOne, ?_⟩
          simpa using hStart
      | cons x u => simp at hEq
    · rcases hPlain.free with hLiteral | hFree
      · exact Or.inr hLiteral
      · exfalso
        apply hFree c hc
        rw [hSplit]
        simp

end Qhantoom

end Highlighter

import Highlighter.Proofs.Highlight
import Highlighter.Proofs.Scan.Step

/-
  Scanning texts that are put together at a line break: the
  scan of the whole is the scan of the first text and, from
  the state at its end, the scan of the second.

  Key definitions include:
    * `Text.LineBoundary`
    * `RuleTable.Step.shift`

  Main statements:
    * `RuleTable.scanFrom_shift`
    * `RuleTable.scanFrom_append`
    * `RuleTable.filter_scan_append`
    * `RuleTable.highlight_append`
-/

namespace Highlighter

namespace RuleTable

------------------------------------------------------------
-- Shifted scans
------------------------------------------------------------

/- The same step further on in a text. -/
def Step.shift (n : Nat) (s : Step) : Step :=
  ⟨s.tokens.map (Token.shift n),
    ⟨s.cursor.offset + n, s.cursor.state⟩, s.rest⟩

theorem stepOver_shift
    (offset n : Nat)
    (state : State)
    (text : Text)
    (m : Nat)
    (pieces : List Piece)
    (stateAfter : State)
    (effect : Effect) :
    stepOver ⟨offset + n, state⟩ text m pieces stateAfter
        effect =
      (stepOver ⟨offset, state⟩ text m pieces stateAfter
        effect).shift n := by
  simp only [stepOver, Step.shift, Step.mk.injEq,
    Cursor.mk.injEq, and_true]
  exact ⟨Token.layOut_shift .., Nat.add_right_comm ..⟩

/- A step does not depend on the offset. -/
theorem stepOn_shift
    (table : RuleTable)
    (offset n : Nat)
    (state : State)
    (text : Text) :
    table.stepOn ⟨offset + n, state⟩ text =
      (table.stepOn ⟨offset, state⟩ text).map
        (Step.shift n) := by
  cases text with
  | nil => rfl
  | cons c rest =>
      simp only [stepOn, plainStep]
      split
      · split
        · rw [Option.map_some, stepOver_shift]
        · rw [Option.map_some, stepOver_shift]
      · rw [Option.map_some, stepOver_shift]

/- Nor does a scan. -/
theorem scanFrom_shift
    (table : RuleTable)
    (n : Nat)
    (cursor : Cursor)
    (text : Text) :
    table.scanFrom ⟨cursor.offset + n, cursor.state⟩ text =
      (table.scanFrom cursor text).map (Token.shift n) := by
  induction cursor, text using scan_induction table with
  | hEnd cursor =>
      rw [scanFrom_nil, scanFrom_nil]
      rfl
  | hStep cursor text s consumed hs hConsumes ih =>
      have hShifted :
          table.stepOn ⟨cursor.offset + n, cursor.state⟩
              text = some (s.shift n) := by
        rw [stepOn_shift]
        exact congrArg (Option.map (Step.shift n)) hs
      rw [scanFrom_of_stepOn hs, scanFrom_of_stepOn hShifted,
        List.map_append, ← ih]
      rfl

/- A scan from an offset is the scan from zero, shifted. -/
theorem scanFrom_eq_scan
    (table : RuleTable)
    (cursor : Cursor)
    (text : Text) :
    table.scanFrom cursor text =
      (table.scan text cursor.state).map
        (Token.shift cursor.offset) := by
  have hShift :=
    table.scanFrom_shift cursor.offset ⟨0, cursor.state⟩ text
  rw [Nat.zero_add] at hShift
  exact hShift

------------------------------------------------------------
-- Steps with more text after them
------------------------------------------------------------

/- A step over a first text leaves the second one. -/
theorem stepOver_append
    {a : Text}
    {n : Nat}
    (hn : n ≤ a.length)
    (b : Text)
    (cursor : Cursor)
    (pieces : List Piece)
    (stateAfter : State)
    (effect : Effect) :
    stepOver cursor (a ++ b) n pieces stateAfter effect =
      { stepOver cursor a n pieces stateAfter effect with
        rest := a.drop n ++ b } := by
  unfold stepOver
  rw [List.take_append_of_le_length hn,
    List.drop_append_of_le_length hn]

theorem plainStep_append
    {a : Text}
    {n : Nat}
    (hn : n ≤ a.length)
    (b : Text)
    (cursor : Cursor) :
    plainStep cursor (a ++ b) n =
      { plainStep cursor a n with rest := a.drop n ++ b } := by
  unfold plainStep
  rw [stepOver_append hn, List.take_append_of_le_length hn]

/-
  A step does not see past a cut at a line break: it makes
  the same tokens and leaves the second text.
-/
theorem stepOn_append
    {table : RuleTable}
    {cursor : Cursor}
    {a b : Text}
    {s : Step}
    (hMeets : Text.Meets a b)
    (h : table.stepOn cursor a = some s) :
    table.stepOn cursor (a ++ b) =
      some { s with rest := s.rest ++ b } := by
  have ha : a ≠ [] := by
    rintro rfl
    cases h
  have hBreak := hMeets.breakLength_append ha
  have hLine := hMeets.currentLine_append ha
  have hLength := Text.breakLength_le a
  cases a with
  | nil => exact absurd rfl ha
  | cons c a =>
      simp only [List.cons_append] at hBreak hLine ⊢
      simp only [stepOn, hBreak, hLine] at h ⊢
      split at h
      · rename_i hZero
        rw [if_pos hZero]
        split at h
        · rename_i r hit hFirst
          cases h
          have hHit : hit.length ≤ (c :: a).length := by
            have hFree := (Rule.apply_covers
              (firstHit_apply hFirst)).length_le
            have hPrefix := (List.takeWhile_prefix (l := c :: a)
              fun c => !Text.isBreakChar c).length_le
            exact Nat.le_trans hFree hPrefix
          have hStep := stepOver_append hHit b cursor
            hit.pieces (r.stateAfter cursor.state) r.effect
          rw [List.cons_append] at hStep
          rw [hStep]
          rfl
        · cases h
          have hStep := plainStep_append
            (a := c :: a) (n := 1) (by simp) b cursor
          rw [List.cons_append] at hStep
          rw [hStep]
          rfl
      · rename_i hNotZero
        cases h
        rw [if_neg hNotZero]
        have hStep := plainStep_append hLength b cursor
        rw [List.cons_append] at hStep
        rw [hStep]
        rfl

------------------------------------------------------------
-- Scans of two texts
------------------------------------------------------------

/- The tokens of a step end in the state after it. -/
theorem Step.Consumes.endState_eq
    {cursor : Cursor}
    {text consumed : Text}
    {s : Step}
    (h : s.Consumes cursor text consumed)
    (state : State) :
    Token.endState state s.tokens = s.cursor.state :=
  Token.endState_of_forall h.tokens_ne_nil h.state_eq

/-
  A scan of two texts that meet at a line break is a scan of
  the first one and, from the state at its end, a scan of
  the second.
-/
theorem scanFrom_append
    (table : RuleTable)
    (cursor : Cursor)
    {a b : Text}
    (h : Text.Meets a b) :
    table.scanFrom cursor (a ++ b) =
      table.scanFrom cursor a ++
        table.scanFrom
          ⟨cursor.offset + a.size,
            Token.endState cursor.state
              (table.scanFrom cursor a)⟩ b := by
  induction cursor, a using scan_induction table with
  | hEnd cursor =>
      rw [scanFrom_nil]
      rfl
  | hStep cursor a s consumed hs hConsumes ih =>
      have hText := hConsumes.text_eq
      have hRest : Text.Meets s.rest b := by
        rw [hText] at h
        exact h.of_append
      have hOffset :
          s.cursor.offset + s.rest.size =
            cursor.offset + a.size := by
        rw [hConsumes.offset_eq, hText, Text.size_append]
        omega
      rw [scanFrom_of_stepOn (stepOn_append h hs),
        scanFrom_of_stepOn hs, Token.endState_append,
        hConsumes.endState_eq, List.append_assoc]
      simp only
      rw [ih hRest, hOffset]

/- The same for scans from the start. -/
theorem scan_append
    (table : RuleTable)
    (state : State)
    {a b : Text}
    (h : Text.Meets a b) :
    table.scan (a ++ b) state =
      table.scan a state ++
        (table.scan b
          (Token.endState state (table.scan a state))).map
            (Token.shift a.size) := by
  have hAppend := table.scanFrom_append ⟨0, state⟩ h
  rw [Nat.zero_add, scanFrom_eq_scan table ⟨a.size, _⟩]
    at hAppend
  exact hAppend

/-
  The tokens up to a line end are those of the text up to
  there, whatever comes after it.
-/
theorem filter_scan_append
    (table : RuleTable)
    (state : State)
    {a b : Text}
    (h : Text.Meets a b) :
    (table.scan (a ++ b) state).filter
        (fun t => t.stop ≤ a.size) =
      table.scan a state := by
  have hFirst : Token.Tiles 0 (table.scan a state) a :=
    table.scanFrom_tiles ⟨0, state⟩ a
  have hSecond := table.scanFrom_tiles
    ⟨0 + a.size,
      Token.endState state (table.scan a state)⟩ b
  have hWhole :
      table.scan (a ++ b) state =
        table.scan a state ++
          table.scanFrom
            ⟨0 + a.size,
              Token.endState state (table.scan a state)⟩ b :=
    table.scanFrom_append ⟨0, state⟩ h
  have hFilter := hFirst.filter_stop_le hSecond
  rw [← hWhole, Nat.zero_add] at hFilter
  exact hFilter

end RuleTable

------------------------------------------------------------
-- Whole lines in front
------------------------------------------------------------

/-
  Between two texts a line ends and the next one begins: the
  first text is empty or ends in a line break character, and
  the cut does not split a `\r\n`.
-/
structure Text.LineBoundary (a b : Text) : Prop where
  ends :
    ∀ c, a.getLast? = some c → Text.isBreakChar c = true
  whole : ¬ (a.getLast? = some '\r' ∧ b.head? = some '\n')

theorem Text.LineBoundary.meets
    {a b : Text}
    (h : Text.LineBoundary a b) : Text.Meets a b :=
  ⟨Or.inl h.ends, h.whole⟩

namespace RuleTable

/-
  The tokens of a text that ends in a break end in a break.
-/
theorem scan_closed
    (table : RuleTable)
    (state : State)
    {a b : Text}
    (h : Text.LineBoundary a b) :
    Token.Closed (table.scan a state) := by
  intro t ht
  have hMem : t ∈ table.scan a state :=
    List.mem_of_getLast? ht
  have hTiles : Token.Tiles 0 (table.scan a state) a :=
    table.scanFrom_tiles ⟨0, state⟩ a
  rcases table.scanFrom_kind ⟨0, state⟩ a t hMem with
    hBreak | hFree
  · exact hBreak
  · -- the text ends in the last character of its last token
    rcases List.getLast?_eq_some_iff.mp ht with ⟨init, hInit⟩
    have hText := hTiles.flatMap_text
    rw [hInit, List.flatMap_append, List.flatMap_singleton]
      at hText
    have hSome := hTiles.text_ne_nil t hMem
    have hLast : a.getLast? = some (t.text.getLast hSome) := by
      rw [← hText, List.getLast?_append,
        List.getLast?_eq_some_getLast hSome]
      rfl
    have hTrue := h.ends _ hLast
    rw [hFree _ (List.getLast_mem hSome)] at hTrue
    cases hTrue

/-
  Highlighting a text of whole lines followed by another
  text is to highlight the first and then, from the state at
  its end, the second: tokens, end states, line states and
  runs are put together. Tokens up to a line end do not
  depend on what follows, and tokens after an edited text
  depend on it only by the state that it ends in and, as to
  their offsets, by its size.
-/
theorem highlight_append
    (table : RuleTable)
    (state : State)
    {a b : Text}
    (h : Text.LineBoundary a b) :
    let first := table.highlight a state
    let second := table.highlight b first.endState
    let both := table.highlight (a ++ b) state
    both.tokens =
      first.tokens ++
        second.tokens.map (Token.shift a.size) ∧
    both.endState = second.endState ∧
    both.lineStates =
      first.lineStates.dropLast ++ second.lineStates ∧
    table.lineStates (a ++ b) state =
      (table.lineStates a state).dropLast ++
        table.lineStates b first.endState ∧
    both.runs =
      first.runs ++ second.runs.map (Run.shift a.size) ∧
    (∀ u v, Text.Meets u v →
      (table.scan (u ++ v) state).filter
          (fun t => t.stop ≤ u.size) =
        table.scan u state) ∧
    (∀ a' state', Text.LineBoundary a' b →
      (table.highlight a' state').endState = first.endState →
      ∃ later : List Token,
        table.scan (a ++ b) state =
          table.scan a state ++
            later.map (Token.shift a.size) ∧
        table.scan (a' ++ b) state' =
          table.scan a' state' ++
            later.map (Token.shift a'.size)) := by
  intro first second both
  have hTokens := table.scan_append state h.meets
  have hClosed := table.scan_closed state h
  have hStates :
      table.lineStates (a ++ b) state =
        (table.lineStates a state).dropLast ++
          table.lineStates b first.endState := by
    unfold lineStates
    rw [hTokens, Token.statesAfterBreaks_append,
      Token.statesAfterBreaks_shift, ← List.cons_append,
      Token.statesAfterBreaks_closed hClosed state,
      List.append_assoc, List.dropLast_concat]
    rfl
  refine ⟨hTokens, ?_, hStates, hStates, ?_,
    fun u v hMeets => table.filter_scan_append state hMeets,
    ?_⟩
  · show Token.endState state (table.scan (a ++ b) state) = _
    rw [hTokens, Token.endState_append, Token.endState_shift]
    rfl
  · show Run.ofTokens (table.scan (a ++ b) state) = _
    rw [hTokens, Run.ofTokens_append hClosed,
      Run.ofTokens_shift]
    rfl
  · intro a' state' hBoundary hState
    refine ⟨table.scan b first.endState, hTokens, ?_⟩
    rw [← hState]
    exact table.scan_append state' hBoundary.meets

/-
  A comment over two lines, the second of which is one more
  run after those of the first.
-/
theorem highlight_append_comment :
    let table := empty.insert State.comment
      [⟨Pattern.upTo ['*', '/'],
        Labelling.whole (some Label.comment), none, false,
        false⟩]
    let text := ['a', '\r', '\n']
    Text.LineBoundary text ['b'] ∧
      (table.highlight (text ++ ['b']) State.comment).runs =
        (table.highlight text State.comment).runs ++
          [⟨some Label.comment, 3, 4⟩] := by
  intro table text
  have hBoundary : Text.LineBoundary text ['b'] := by
    constructor
    · intro c hc
      cases hc
      rfl
    · rintro ⟨hLast, -⟩
      cases hLast
  have hSecond :
      (table.highlight ['b']
          (table.highlight text State.comment).endState).runs.map
            (Run.shift (Text.size text)) =
        [⟨some Label.comment, 3, 4⟩] := by
    decide +kernel
  rcases highlight_append table State.comment hBoundary with
    ⟨-, -, -, -, hRuns, -⟩
  rw [hSecond] at hRuns
  exact ⟨hBoundary, hRuns⟩

end RuleTable

end Highlighter

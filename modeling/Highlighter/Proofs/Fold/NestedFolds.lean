import Highlighter.Proofs.Fold.Exact
import Highlighter.Proofs.Fold.LevelPairs
import Highlighter.Proofs.Indent.Depths
import Highlighter.Proofs.Qhantoom.StartRules
import Highlighter.Qhantoom

/-
  Folding and indentation where brackets are properly
  nested: the folds are pairs of the stack that indentation
  keeps, so each lies within another or apart from it, and
  the lines of a fold are deeper than its opening bracket.

  Main statements:
    * `LevelPair.OpensAt.depth_lt`: while a pair is open the
      lines are deeper than before it.
    * `RuleTable.nested_folds`
-/

namespace Highlighter

------------------------------------------------------------
-- Lines within a pair
------------------------------------------------------------

namespace Token

/-
  First tokens that end in a line break, which is later than
  some of the tokens and no later than others that follow.
-/
theorem exists_take_of_breakCount
    {first inside after xs ys : List Token}
    (hTokens : first ++ (inside ++ after) = xs ++ ys)
    (hFrom : breakCount first < breakCount xs)
    (hTo : breakCount xs ≤ breakCount (first ++ inside))
    (hLast : ∀ t ∈ xs.getLast?, t.isLineBreak = true) :
    ∃ n, xs = first ++ inside.take n := by
  rcases List.append_eq_append_iff.mp hTokens with
    ⟨zs, hxs, hRest⟩ | ⟨zs, hFirst, -⟩
  · rcases List.append_eq_append_iff.mp hRest with
      ⟨ws, hzs, -⟩ | ⟨ws, hInside, -⟩
    · -- a break after what is inside would be one too many
      have hNil : ws = [] := by
        by_contra hSome
        have hEnd := List.getLast?_eq_some_getLast hSome
        have hBreak := hLast (ws.getLast hSome) (by
          rw [hxs, hzs, ← List.append_assoc,
            List.getLast?_append_of_ne_nil _ hSome, hEnd]
          rfl)
        have hPos : 0 < breakCount ws :=
          List.countP_pos_iff.mpr
            ⟨_, List.getLast_mem hSome, hBreak⟩
        have hCount : breakCount xs =
            breakCount (first ++ inside) + breakCount ws := by
          rw [hxs, hzs, ← List.append_assoc]
          exact List.countP_append ..
        omega
      refine ⟨inside.length, ?_⟩
      rw [hxs, hzs, hNil, List.append_nil, List.take_length]
    · refine ⟨zs.length, ?_⟩
      rw [hxs, hInside, List.take_left]
  · have hCount : breakCount first =
        breakCount xs + breakCount zs := by
      rw [hFirst]
      exact List.countP_append ..
    omega

/- The tokens that end where a token starts come before it. -/
theorem Tiles.depthBy_start_of_mem
    {n : Nat}
    {s : Text}
    {before after : List Token}
    {t : Token}
    (h : Tiles n (before ++ t :: after) s)
    (depth : Nat) :
    depthBy depth (before ++ t :: after) t.start =
      depthAfter depth before := by
  have hEnds : EndToEnd (before ++ t :: after) := h.isChain
  rcases List.pairwise_append.mp hEnds.pairwise with
    ⟨-, hLater, hBefore⟩
  have hAfter : ∀ u ∈ t :: after, t.start < u.stop := by
    intro u hu
    have hText := h.text_ne_nil u (List.mem_append_right _ hu)
    have hLt := start_lt_stop hText
    rcases List.mem_cons.mp hu with rfl | hu
    · exact hLt
    · have hLe := (List.pairwise_cons.mp hLater).1 u hu
      have hFirst : t.start ≤ t.stop := Nat.le_add_right _ _
      omega
  have hFirst :
      before.filter (fun u => u.stop ≤ t.start) = before := by
    apply List.filter_eq_self.mpr
    intro u hu
    exact decide_eq_true
      (hBefore u hu t (List.mem_cons_self ..))
  have hRest :
      (t :: after).filter (fun u => u.stop ≤ t.start) = [] := by
    apply List.filter_eq_nil_iff.mpr
    intro u hu
    have hLt := hAfter u hu
    simp only [decide_eq_true_eq]
    omega
  rw [depthBy, List.filter_append, hFirst, hRest,
    List.append_nil]

end Token

namespace LevelPair

/-
  A line that starts while a pair is open is deeper than the
  opening bracket.
-/
theorem OpensAt.depth_lt
    {tokens : List Token}
    {lines : List Text.Line}
    (hAligned : Token.Aligned 0 tokens lines)
    {p : LevelPair}
    {before inside after : List Token}
    (h : OpensAt 0 0 tokens p before inside after)
    {kind : Bracket}
    (hOpens : kind.opens p.opener = true)
    {i : Nat}
    (hi : i < lines.length)
    (hFrom : p.startLine < i)
    (hTo : i ≤ p.endLine) :
    Token.depthBy 0 tokens (p.range.opener - 1) <
      Token.depthBy 0 tokens (Text.lineOffset lines i) := by
  rcases hAligned.exists_before hi with
    ⟨xs, ys, hTokens, hDepth, hCount, hLast⟩
  have hBreak := Bracket.not_isLineBreak_of_opens hOpens
  have hFirst : Token.breakCount (before ++ [p.opener]) =
      Token.breakCount before := by
    simp [Token.breakCount, hBreak]
  have hSplit :
      (before ++ [p.opener]) ++ (inside ++ p.closer :: after) =
        xs ++ ys := by
    rw [← hTokens, h.tokens_eq, List.append_assoc,
      List.singleton_append]
  have hStart := h.startLine_eq
  have hEnd := h.endLine_eq
  have hTake : ∃ n,
      xs = (before ++ [p.opener]) ++ inside.take n := by
    apply Token.exists_take_of_breakCount hSplit _ _ hLast
    · omega
    · rw [List.append_assoc, List.singleton_append]
      omega
  rcases hTake with ⟨n, hxs⟩
  simp only [Bracket.opens, Bool.and_eq_true,
    beq_iff_eq] at hOpens
  -- the opening bracket is one byte long
  have hSize : p.range.opener - 1 = p.opener.start := by
    have hText : p.opener.text.size = 1 := by
      rw [hOpens.2]
      cases kind <;> rfl
    change p.opener.start + p.opener.text.size - 1 = _
    omega
  have hOuter : Token.depthBy 0 tokens p.opener.start =
      Token.depthAfter 0 before := by
    have hTiles := hAligned.tiles
    rw [h.tokens_eq] at hTiles ⊢
    exact hTiles.depthBy_start_of_mem 0
  have hInner := hDepth 0
  rw [Nat.zero_add] at hInner
  rw [hSize, hOuter, hInner, hxs]
  have hKeeps := h.keepsOpen n
  simpa only [Token.depthAfter, List.foldl_append,
    List.foldl_cons, List.foldl_nil, Token.depthStep,
    hOpens.1] using hKeeps

/- So is one within a pair of the stack that folds. -/
theorem depth_lt_of_folds
    {tokens : List Token}
    {lines : List Text.Line}
    (hAligned : Token.Aligned 0 tokens lines)
    {p : LevelPair}
    (hPair : p ∈ ofTokens tokens)
    (hFolds : p.folds = true)
    {i : Nat}
    (hi : i < lines.length)
    (hFrom : p.startLine < i)
    (hTo : i ≤ p.endLine) :
    Token.depthBy 0 tokens (p.range.opener - 1) <
      Token.depthBy 0 tokens (Text.lineOffset lines i) := by
  simp only [folds, Bool.and_eq_true] at hFolds
  rcases Option.isSome_iff_exists.mp hFolds.1 with
    ⟨kind, hKind⟩
  have hOpens := FoldRange.openedBy_eq_some_iff.mp hKind
  rcases closesAt_or_opensAt hPair with
    ⟨below, inside, after, hCloses⟩ |
    ⟨before, inside, after, hOpensAt⟩
  · -- no bracket is open before all tokens
    rcases hCloses.stack_eq with ⟨above, hStack⟩
    simp at hStack
  · exact hOpensAt.depth_lt hAligned hOpens hi hFrom hTo

end LevelPair

------------------------------------------------------------
-- Folds and lines
------------------------------------------------------------

namespace RuleTable

/- Each line has a number and the depth that goes with it. -/
theorem depth_of_mem_lineIndents
    (table : RuleTable)
    (m : LanguageMeta)
    (options : IndentOptions)
    {text : Text}
    {state : State}
    {f : LineIndent}
    (h : f ∈ table.lineIndents m text state options) :
    f.line < text.lines.length ∧
      f.depth =
        Token.depthBy 0 (table.scan text state)
          (Text.lineOffset text.lines f.line) := by
  rcases List.mem_iff_getElem?.mp h with ⟨i, hf⟩
  have hAligned := table.scanFrom_aligned ⟨0, state⟩ text
  rcases depth_indentsFrom table m options hAligned 0 state []
    hf with ⟨hLine, hDepth, -⟩
  rw [Nat.zero_add] at hLine hDepth
  have hLength : (table.lineIndents m text state
      options).length = text.lines.length := by
    rcases table.lineStates_agree m options text state with
      ⟨-, hStates, hLength⟩
    rw [← hLength, ← hStates, List.length_map]
  rw [hLine, ← hLength]
  exact ⟨(List.getElem?_eq_some_iff.mp hf).1, hDepth⟩

/-
  Where the tokens that indent and dedent are properly
  nested, the folds of a text are the pairs of braces and of
  square brackets on the one stack of indentation that reach
  over a line break. So of any two folds one is within the
  other or they are apart, whatever their kinds. The changes
  of all lines add up to nothing. And a line that starts
  within a fold has more levels open before it than are open
  before the opening bracket.
-/
theorem nested_folds
    (table : RuleTable)
    (m : LanguageMeta)
    (options : IndentOptions)
    {text : Text}
    {state : State}
    (hNested : Token.Nested (table.scan text state)) :
    let tokens := table.scan text state
    let folds := FoldRange.ofTokens tokens
    let indents := table.lineIndents m text state options
    folds.Perm
        (((LevelPair.ofTokens tokens).filter
          LevelPair.folds).map LevelPair.range) ∧
      folds.Pairwise FoldRange.ApartOrWithin ∧
      (indents.map LineIndent.delta).sum = 0 ∧
      ∀ r ∈ folds, ∀ f ∈ indents,
        r.startLine < f.line → f.line ≤ r.endLine →
          Token.depthBy 0 tokens (r.opener - 1) < f.depth := by
  intro tokens folds indents
  have hAligned : Token.Aligned 0 tokens text.lines :=
    table.scanFrom_aligned ⟨0, state⟩ text
  have hPerm := FoldRange.ofTokens_perm_of_nested hNested
    hAligned.effect_of_isLineBreak
  refine ⟨hPerm, ?_, ?_, ?_⟩
  · have hAhead : (OpenBracket.tokens [] ++ tokens).Pairwise
        Token.Ahead := hAligned.tiles.pairwise_ahead
    have hPairs : (LevelPair.ofTokens tokens).Pairwise
        (fun p q => p.range.ApartOrWithin q.range) :=
      LevelPair.pairwise_apartOrWithin hAhead
    apply (hPerm.pairwise_iff FoldRange.ApartOrWithin.symm).mpr
    exact List.pairwise_map.mpr (hPairs.filter _)
  · have hSum := sum_delta_indentsFrom table m options
      hAligned 0 state []
    rw [List.length_nil, hNested.depthAfter_eq] at hSum
    exact hSum
  · intro r hr f hf hFrom hTo
    rcases List.mem_map.mp (hPerm.mem_iff.mp hr) with
      ⟨p, hp, rfl⟩
    rcases List.mem_filter.mp hp with ⟨hPair, hFolds⟩
    rcases table.depth_of_mem_lineIndents m options hf with
      ⟨hLine, hDepth⟩
    rw [hDepth]
    exact LevelPair.depth_lt_of_folds hAligned hPair hFolds
      hLine hFrom hTo

/- Lines in braces are deeper than the parenthesis around. -/
theorem nested_folds_in_parentheses :
    let text : Text := "(\x7b\n\x7d)".toList
    let tokens := Qhantoom.table.scan text State.start
    let indents := Qhantoom.table.lineIndents Qhantoom.info
      text State.start ⟨2, 2, true⟩
    Token.Nested tokens ∧
      (FoldRange.ofTokens tokens).Perm [⟨2, 3, 0, 1⟩] ∧
      (indents.map LineIndent.delta).sum = 0 ∧
      ∀ f ∈ indents, f.line = 1 → 1 < f.depth := by
  intro text tokens indents
  let outer : Token :=
    ⟨none, ['('], 0, State.start, Effect.indent⟩
  let brace : Token :=
    ⟨none, ['{'], 1, State.start, Effect.indent⟩
  let brk : Token :=
    ⟨none, ['\n'], 2, State.start, Effect.none⟩
  let close : Token :=
    ⟨none, ['}'], 3, State.start, Effect.dedent⟩
  let last : Token :=
    ⟨none, [')'], 4, State.start, Effect.dedent⟩
  have hTokens : tokens = [outer, brace, brk, close, last] := by
    change Qhantoom.table.scan text State.start = _
    rw [Qhantoom.table_eq_compiled]
    decide +kernel
  have hBreak : Token.Nested [brk] :=
    Token.Nested.plain rfl Token.Nested.nil
  have hBraces : Token.Mates brace close :=
    ⟨rfl, rfl, by decide⟩
  have hParentheses : Token.Mates outer last :=
    ⟨rfl, rfl, by decide⟩
  have hInner : Token.Nested [brace, brk, close] := by
    have hPair := Token.Nested.pair hBraces hBreak
      Token.Nested.nil
    exact hPair
  have hNested : Token.Nested tokens := by
    have hPair := Token.Nested.pair hParentheses hInner
      Token.Nested.nil
    rw [hTokens]
    exact hPair
  rcases nested_folds Qhantoom.table Qhantoom.info
    ⟨2, 2, true⟩ hNested with ⟨hPerm, -, hSum, hDeeper⟩
  have hPairs :
      ((LevelPair.ofTokens tokens).filter
        LevelPair.folds).map LevelPair.range =
          [⟨2, 3, 0, 1⟩] := by
    rw [hTokens]
    decide
  have hDepth : Token.depthBy 0 tokens (2 - 1) = 1 := by
    rw [hTokens]
    decide
  change (FoldRange.ofTokens tokens).Perm
    (((LevelPair.ofTokens tokens).filter
      LevelPair.folds).map LevelPair.range) at hPerm
  rw [hPairs] at hPerm
  refine ⟨hNested, hPerm, hSum, ?_⟩
  intro f hf hLine
  rw [← hDepth]
  apply hDeeper ⟨2, 3, 0, 1⟩ _ f hf
  · rw [hLine]
    exact Nat.one_pos
  · exact Nat.le_of_eq hLine
  · exact hPerm.mem_iff.mpr (List.mem_singleton_self _)

end RuleTable

end Highlighter

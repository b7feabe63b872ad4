import Highlighter.Proofs.Fold.Exact

/-
  The fold that is answered for a line: of those that start
  on the line it is the one that opens first. It encloses
  all the others that do not cross it. Only folds of the
  other kind of bracket can do that, so it is the outermost
  one whenever there is an outermost one.

  Key definitions include:
    * `FoldRange.Encloses`
    * `FoldRange.Crosses`
    * `FoldRange.IsOf`

  Main statements:
    * `BracketPair.endLine_le_startLine`: a pair that closes
      before another one opens ends on its line at most.
    * `FoldRange.outermost_unless_crossed`
-/

namespace Highlighter

------------------------------------------------------------
-- Lines of pairs
------------------------------------------------------------

namespace BracketPair

theorem endLine_eq
    {b : Bracket}
    {p : BracketPair}
    (h : p.Matched b) :
    p.range.endLine =
      p.range.startLine + Token.breakCount p.inside := by
  have hOpener := Bracket.not_isLineBreak_of_opens h.opens
  simp [range, Token.breakCount, hOpener]

/- A pair with a line break in it ends on a later line. -/
theorem startLine_lt_endLine
    {b : Bracket}
    {p : BracketPair}
    (h : p.Matched b)
    (hSpans : p.spansLines = true) :
    p.range.startLine < p.range.endLine := by
  rw [endLine_eq h]
  apply Nat.lt_add_of_pos_right
  exact List.countP_pos_iff.mpr (List.any_eq_true.mp hSpans)

/-
  A pair that is closed before another one is opened ends on
  the line the other starts on, or before.
-/
theorem endLine_le_startLine
    {p q : BracketPair}
    (hEnds : Token.EndToEnd p.tokens)
    (hTokens : p.tokens = q.tokens)
    (hApart : p.range.closer < q.range.opener) :
    p.range.endLine ≤ q.range.startLine := by
  have hCut := hTokens
  rw [tokens_eq, tokens] at hCut
  rcases cut_cases hCut with
    ⟨hSame, -, -⟩ | ⟨zs, hLater, -⟩ | ⟨zs, hEarlier, -⟩
  · simp only [range, hSame, le_refl]
  · simp only [range, hLater, Token.breakCount,
      List.countP_append]
    omega
  · -- else the other one opens before this one is closed
    have hMem : q.opener ∈ p.before ++ p.opener :: p.inside := by
      rw [hEarlier]
      simp
    rw [tokens_eq] at hEnds
    have hLe : q.opener.stop ≤ p.closer.start :=
      (List.pairwise_append.mp hEnds.pairwise).2.2 _ hMem _
        (List.mem_cons_self ..)
    simp only [range] at hApart
    omega

end BracketPair

------------------------------------------------------------
-- The fold that starts a line
------------------------------------------------------------

namespace FoldRange

/- One range opens no later and closes no earlier. -/
structure Encloses (r s : FoldRange) : Prop where
  opener_le : r.opener ≤ s.opener
  closer_le : s.closer ≤ r.closer

instance (r s : FoldRange) : Decidable (r.Encloses s) :=
  decidable_of_iff
    (r.opener ≤ s.opener ∧ s.closer ≤ r.closer)
    ⟨fun h => ⟨h.1, h.2⟩, fun h => ⟨h.1, h.2⟩⟩

/- One range opens first and closes within the other. -/
structure Crosses (r s : FoldRange) : Prop where
  opener_lt : r.opener < s.opener
  opener_le : s.opener ≤ r.closer
  closer_lt : r.closer < s.closer

/- Among some tokens a range lies between brackets of a kind. -/
def IsOf (b : Bracket) (tokens : List Token) (r : FoldRange) :
    Prop :=
  ∃ p : BracketPair,
    p.tokens = tokens ∧ p.Matched b ∧ p.range = r

/- The folds that start on one line are not apart. -/
theorem encloses_or_crosses
    {tokens : List Token}
    (hEnds : Token.EndToEnd tokens)
    {r s : FoldRange}
    (hr : r ∈ ofTokens tokens)
    (hs : s ∈ ofTokens tokens)
    (hLt : r.opener < s.opener)
    (hLine : r.startLine = s.startLine) :
    r.Encloses s ∨ r.Crosses s := by
  rw [ofTokens_eq_map_folded hEnds] at hr hs
  rcases List.mem_map.mp hr with ⟨p, hp, rfl⟩
  rcases List.mem_map.mp hs with ⟨q, hq, rfl⟩
  rcases mem_folded_iff.mp hp with
    ⟨hTokens, ⟨b, hMatched⟩, hSpans⟩
  rcases mem_folded_iff.mp hq with
    ⟨hTokens', -, -⟩
  have hLater :=
    BracketPair.startLine_lt_endLine hMatched hSpans
  have hWithin : q.range.opener ≤ p.range.closer := by
    by_contra hNot
    have hApart := BracketPair.endLine_le_startLine
      (hTokens ▸ hEnds) (hTokens.trans hTokens'.symm)
      (Nat.lt_of_not_ge hNot)
    omega
  rcases Nat.lt_or_ge p.range.closer q.range.closer with
    hCloses | hCloses
  · exact Or.inr ⟨hLt, hWithin, hCloses⟩
  · exact Or.inl ⟨Nat.le_of_lt hLt, hCloses⟩

/- Every fold lies between brackets of some kind. -/
theorem exists_isOf
    {tokens : List Token}
    (hEnds : Token.EndToEnd tokens)
    {r : FoldRange}
    (hr : r ∈ ofTokens tokens) : ∃ b, r.IsOf b tokens := by
  rw [ofTokens_eq_map_folded hEnds] at hr
  rcases List.mem_map.mp hr with ⟨p, hp, rfl⟩
  rcases mem_folded_iff.mp hp with
    ⟨hTokens, ⟨b, hMatched⟩, -⟩
  exact ⟨b, p, hTokens, hMatched, rfl⟩

/- Ranges that cross are not of the same kind. -/
theorem Crosses.kind_ne
    {tokens : List Token}
    (hEnds : Token.EndToEnd tokens)
    {r s : FoldRange}
    (h : r.Crosses s)
    {b other : Bracket}
    (hr : r.IsOf b tokens)
    (hs : s.IsOf other tokens) : b ≠ other := by
  rintro rfl
  rcases hr with ⟨p, hTokens, hMatched, rfl⟩
  rcases hs with ⟨q, hTokens', hMatched', rfl⟩
  have hPrecedes := BracketPair.precedes (hTokens' ▸ hEnds)
    ⟨b, hMatched⟩ ⟨b, hMatched'⟩
    (hTokens.trans hTokens'.symm) h.opener_lt
  have hWithin := h.opener_le
  have hCloses := h.closer_lt
  rcases hPrecedes.apart_or_within b hMatched hMatched' with
    hApart | hInside
  · omega
  · omega

/- No fold is answered just if none starts on the line. -/
theorem atLine_eq_none_iff
    {ranges : List FoldRange}
    {line : Nat} :
    atLine ranges line = none ↔
      ∀ s ∈ ranges, s.startLine ≠ line := by
  simp [atLine, List.find?_eq_none]

/- Of the folds on a line the first one to open is answered. -/
theorem opener_lt_of_atLine
    {ranges : List FoldRange}
    (hSorted :
      ranges.Pairwise (fun r s => r.opener < s.opener))
    {line : Nat}
    {r : FoldRange}
    (h : atLine ranges line = some r) :
    ∀ s ∈ ranges, s.startLine = line → s ≠ r →
      r.opener < s.opener := by
  intro s hs hLine hNe
  rcases List.find?_eq_some_iff_append.mp h with
    ⟨-, before, after, rfl, hBefore⟩
  rcases List.mem_append.mp hs with hEarlier | hLater
  · have hNot := hBefore s hEarlier
    simp [hLine] at hNot
  · rcases List.mem_cons.mp hLater with hIs | hAfter
    · exact absurd hIs hNe
    · exact List.rel_of_pairwise_cons
        (List.pairwise_append.mp hSorted).2.1 hAfter

/-
  The answer for a line, of the folds of tokens that lie end
  to end. There is none just if no fold starts on the line.
  Else it is one that does, and it opens before all others
  that do. It encloses them, except those that cross it, and
  they are of the other kind of bracket. So if one of the
  folds that start on the line encloses them all, it is the
  answer.
-/
theorem outermost_unless_crossed
    {tokens : List Token}
    (hEnds : Token.EndToEnd tokens)
    (line : Nat) :
    let ranges := ofTokens tokens
    (atLine ranges line = none ↔
      ∀ s ∈ ranges, s.startLine ≠ line) ∧
    ∀ r, atLine ranges line = some r →
      (r ∈ ranges ∧ r.startLine = line) ∧
      (∀ s ∈ ranges, s.startLine = line → s ≠ r →
        r.opener < s.opener ∧
          (r.Encloses s ∨
            r.Crosses s ∧ ∃ b other : Bracket,
              r.IsOf b tokens ∧ s.IsOf other tokens ∧
                b ≠ other)) ∧
      ∀ s ∈ ranges, s.startLine = line →
        (∀ u ∈ ranges, u.startLine = line → s.Encloses u) →
          s = r := by
  intro ranges
  refine ⟨atLine_eq_none_iff, fun r hr => ?_⟩
  have hSorted :
      ranges.Pairwise (fun r s => r.opener < s.opener) := by
    change (ofTokens tokens).Pairwise _
    rw [ofTokens_eq_map_folded hEnds]
    exact List.pairwise_map.mpr (pairwise_folded hEnds)
  have hMem : r ∈ ranges := List.mem_of_find?_eq_some hr
  have hLine : r.startLine = line := by
    simpa using List.find?_some hr
  have hFirst := opener_lt_of_atLine hSorted hr
  refine ⟨⟨hMem, hLine⟩, ?_, ?_⟩
  · intro s hs hStart hNe
    have hLt := hFirst s hs hStart hNe
    refine ⟨hLt, ?_⟩
    rcases encloses_or_crosses hEnds hMem hs hLt
        (hLine.trans hStart.symm) with hEncloses | hCrosses
    · exact Or.inl hEncloses
    · rcases exists_isOf hEnds hMem with ⟨b, hb⟩
      rcases exists_isOf hEnds hs with ⟨other, hOther⟩
      exact Or.inr ⟨hCrosses, b, other, hb, hOther,
        hCrosses.kind_ne hEnds hb hOther⟩
  · intro s hs hStart hAll
    by_contra hNe
    have hLt := hFirst s hs hStart hNe
    have hLe := (hAll r hMem hLine).opener_le
    omega

/- The outer one of two brackets is answered. -/
theorem outermost_of_nested :
    let tokens : List Token :=
      [⟨none, ['{'], 0, State.start, Effect.indent⟩,
        ⟨none, ['['], 1, State.start, Effect.indent⟩,
        ⟨none, ['\n'], 2, State.start, Effect.none⟩,
        ⟨none, [']'], 3, State.start, Effect.dedent⟩,
        ⟨none, ['\n'], 4, State.start, Effect.none⟩,
        ⟨none, ['}'], 5, State.start, Effect.dedent⟩]
    let outer : FoldRange := ⟨1, 5, 0, 2⟩
    let inner : FoldRange := ⟨2, 3, 0, 1⟩
    Token.EndToEnd tokens ∧
      atLine (ofTokens tokens) 0 = some outer ∧
      inner ∈ ofTokens tokens ∧
      outer.opener < inner.opener ∧
      (outer.Encloses inner ∨ outer.Crosses inner) := by
  intro tokens outer inner
  have hEnds : Token.EndToEnd tokens := by
    unfold Token.EndToEnd
    decide
  have hFolds : ofTokens tokens = [outer, inner] := by
    apply mergeSort_eq_of_perm
    · decide +kernel
    · decide
  have hAt : atLine (ofTokens tokens) 0 = some outer := by
    rw [hFolds]
    decide
  have hInner : inner ∈ ofTokens tokens := by
    rw [hFolds]
    decide
  rcases ((outermost_unless_crossed hEnds 0).2 outer hAt).2.1
    inner hInner rfl (by decide) with ⟨hLt, hHow⟩
  exact ⟨hEnds, hAt, hInner, hLt,
    hHow.imp_right fun hCrosses => hCrosses.1⟩

/-
  A brace and a square bracket that cross: the answer does
  not enclose the other fold that starts on its line.
-/
theorem crossed_not_outermost :
    let tokens : List Token :=
      [⟨none, ['{'], 0, State.start, Effect.indent⟩,
        ⟨none, [' '], 1, State.start, Effect.none⟩,
        ⟨none, ['['], 2, State.start, Effect.indent⟩,
        ⟨none, ['\n'], 3, State.start, Effect.none⟩,
        ⟨none, ['}'], 4, State.start, Effect.dedent⟩,
        ⟨none, ['\n'], 5, State.start, Effect.none⟩,
        ⟨none, [']'], 6, State.start, Effect.dedent⟩]
    let first : FoldRange := ⟨1, 4, 0, 1⟩
    let other : FoldRange := ⟨3, 6, 0, 2⟩
    Token.EndToEnd tokens ∧
      atLine (ofTokens tokens) 0 = some first ∧
      other ∈ ofTokens tokens ∧ other.startLine = 0 ∧
      ¬ first.Encloses other := by
  intro tokens first other
  have hFolds : ofTokens tokens = [first, other] := by
    apply mergeSort_eq_of_perm
    · decide +kernel
    · decide
  refine ⟨?_, ?_, ?_, rfl, ?_⟩
  · unfold Token.EndToEnd
    decide
  · rw [hFolds]
    decide
  · rw [hFolds]
    decide
  · decide

end FoldRange

end Highlighter

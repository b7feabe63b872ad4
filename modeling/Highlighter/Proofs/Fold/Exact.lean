import Highlighter.Proofs.Fold.Pairs
import Highlighter.Proofs.Token
import Mathlib.Data.List.Basic
import Mathlib.Data.List.Chain
import Mathlib.Data.List.Nodup

/-
  The folds of tokens that lie end to end are the pairs of
  brackets that belong together and have a line break in
  them.

  Key definitions include:
    * `Token.EndToEnd`
    * `BracketPair.Precedes`
    * `FoldRange.folded`

  Main statements:
    * `BracketPair.Matched.apart_or_within`: pairs of one
      kind do not overlap.
    * `FoldRange.ofTokens_eq_map_folded`
    * `FoldRange.folds_exactly`
-/

namespace Highlighter

/-
  A list cut at one place and at another: the cuts are the
  same, or one of them comes first.
-/
theorem cut_cases
    {α : Type}
    {xs xs' ys ys' : List α}
    {x y : α}
    (h : xs ++ x :: xs' = ys ++ y :: ys') :
    (xs = ys ∧ x = y ∧ xs' = ys') ∨
      (∃ zs, ys = xs ++ x :: zs ∧ xs' = zs ++ y :: ys') ∨
      (∃ zs, xs = ys ++ y :: zs ∧ ys' = zs ++ x :: xs') := by
  rcases List.append_eq_append_iff.mp h with
    ⟨zs, hys, hxs⟩ | ⟨zs, hxs, hys⟩
  · cases zs with
    | nil =>
        cases hxs
        exact Or.inl ⟨by simpa using hys.symm, rfl, rfl⟩
    | cons z zs =>
        cases hxs
        exact Or.inr (Or.inl ⟨zs, hys, rfl⟩)
  · cases zs with
    | nil =>
        cases hys
        exact Or.inl ⟨by simpa using hxs, rfl, rfl⟩
    | cons z zs =>
        cases hys
        exact Or.inr (Or.inr ⟨zs, hxs, rfl⟩)

------------------------------------------------------------
-- Tokens end to end
------------------------------------------------------------

namespace Token

/- Each of some tokens starts where the one before stops. -/
def EndToEnd (tokens : List Token) : Prop :=
  tokens.IsChain (fun t next => next.start = t.stop)

/- Then each stops before all those after it start. -/
theorem EndToEnd.pairwise
    {tokens : List Token}
    (h : EndToEnd tokens) :
    tokens.Pairwise (fun t u => t.stop ≤ u.start) := by
  let R : Token → Token → Prop := fun t u => t.stop ≤ u.start
  have : Trans R R R := by
    constructor
    intro t u v htu huv
    have hu : u.start ≤ u.stop := Nat.le_add_right _ _
    exact htu.trans (hu.trans huv)
  have hChain : tokens.IsChain R :=
    h.imp fun t u hEq => Nat.le_of_eq hEq.symm
  exact List.isChain_iff_pairwise.mp hChain

end Token

------------------------------------------------------------
-- Ranges of pairs
------------------------------------------------------------

namespace FoldRange

/- A pair has a range if it spans lines. -/
theorem pairRange_zero
    {b : Bracket}
    {p : BracketPair}
    (h : p.Matched b) :
    pairRange 0 p =
      if p.spansLines then [p.range] else [] := by
  have hOpener := Bracket.not_isLineBreak_of_opens h.opens
  have hCount :
      Token.breakCount (p.before ++ p.opener :: p.inside) =
        Token.breakCount p.before +
          p.inside.countP Token.isLineBreak := by
    rw [Token.breakCount, List.countP_append,
      List.countP_cons_of_neg (by simp [hOpener])]
    rfl
  have hSpans : p.spansLines = true ↔
      Token.breakCount p.before <
        Token.breakCount (p.before ++ p.opener :: p.inside) := by
    rw [hCount, Nat.lt_add_right_iff_pos, List.countP_pos_iff]
    exact List.any_eq_true
  simp only [pairRange, between, Nat.zero_add, hSpans,
    BracketPair.range]

/- The ranges of all are those of the pairs that do. -/
theorem ranges_eq_map_filter
    {ps : List BracketPair}
    (h : ∀ p ∈ ps, ∃ b, p.Matched b) :
    ps.flatMap (pairRange 0) =
      (ps.filter BracketPair.spansLines).map
        BracketPair.range := by
  induction ps with
  | nil => rfl
  | cons p ps ih =>
      rcases h p (List.mem_cons_self ..) with ⟨b, hMatched⟩
      have hOthers := ih fun q hq =>
        h q (List.mem_cons_of_mem p hq)
      rw [List.flatMap_cons, hOthers, pairRange_zero hMatched]
      cases hSpans : p.spansLines <;> simp [hSpans]

/- A bracket takes up some text. -/
theorem start_lt_stop_of_opens
    {b : Bracket}
    {t : Token}
    (h : b.opens t = true) : t.start < t.stop := by
  simp only [Bracket.opens, Bool.and_eq_true, beq_iff_eq] at h
  apply Token.start_lt_stop
  rw [h.2]
  cases b <;> exact List.cons_ne_nil _ _

theorem start_lt_stop_of_closes
    {b : Bracket}
    {t : Token}
    (h : b.closes t = true) : t.start < t.stop := by
  simp only [Bracket.closes, Bool.and_eq_true, beq_iff_eq] at h
  apply Token.start_lt_stop
  rw [h.2]
  cases b <;> exact List.cons_ne_nil _ _

/- Pairs are found in the order of their opening brackets. -/
theorem pairwise_pairs
    {tokens : List Token}
    (h : tokens.Pairwise (fun t u => t.stop ≤ u.start)) :
    (pairs tokens).Pairwise
      (fun p q => p.opener.stop < q.opener.stop) := by
  induction h with
  | nil => exact List.Pairwise.nil
  | @cons t tokens hFirst hRest ih =>
      rw [pairs, List.pairwise_append, List.pairwise_map]
      refine ⟨?_, ih, ?_⟩
      · cases pairAt? t tokens <;> simp
      · intro p hp q hq
        rw [Option.mem_toList, pairAt?_eq_some_iff] at hp
        rcases List.mem_map.mp hq with ⟨q', hq', rfl⟩
        rcases mem_pairs_iff.mp hq' with
          ⟨hTokens, b, hMatched⟩
        have hFirstIs : p.opener = t := by
          have hHead := hp.2.1
          rw [BracketPair.tokens, hp.1] at hHead
          exact (List.cons.inj hHead).1
        have hMem : q'.opener ∈ tokens := by
          rw [← hTokens]
          simp [BracketPair.tokens]
        have hLe := hFirst q'.opener hMem
        have hLt := start_lt_stop_of_opens hMatched.opens
        rw [hFirstIs]
        exact Nat.lt_of_le_of_lt hLe hLt

end FoldRange

namespace BracketPair

/-
  Of two pairs of one kind the second one to open begins
  after the first has been closed, or lies within it.
-/
theorem Matched.apart_or_within
    {b : Bracket}
    {p q : BracketPair}
    (hp : p.Matched b)
    (hq : q.Matched b)
    (hTokens : p.tokens = q.tokens)
    {us : List Token}
    (hAfter : q.before = p.before ++ p.opener :: us) :
    (∃ vs, us = p.inside ++ p.closer :: vs) ∨
      (∃ vs, p.inside =
        us ++ q.opener :: (q.inside ++ q.closer :: vs)) := by
  -- the two openers leave the same tokens after the first
  have hRest : p.inside ++ p.closer :: p.after =
      us ++ q.opener :: (q.inside ++ q.closer :: q.after) := by
    rw [tokens, tokens, hAfter, List.append_assoc,
      List.append_cancel_left_eq, List.cons_append] at hTokens
    exact (List.cons.inj hTokens).2
  rcases cut_cases hRest with
    ⟨-, hSame, -⟩ | ⟨vs, hApart, -⟩ | ⟨vs, hInside, hRest⟩
  · have hOpens := hq.opens
    rw [← hSame, Bracket.opens_eq_false_of_closes hp.closes]
      at hOpens
    cases hOpens
  · exact Or.inl ⟨vs, hApart⟩
  · -- what the second pair begins is closed in the first
    have hShort : ∀ ws, q.inside = vs ++ ws → False := by
      intro ws hWs
      have hBegin := hq.balanced.within vs.length
      rw [hWs, List.take_left] at hBegin
      have hBefore := hp.balanced.within us.length
      have hTotal := hp.balanced.total
      rw [hInside, List.take_left] at hBefore
      rw [hInside, List.countP_append, List.countP_append,
        List.countP_cons_of_pos hq.opens,
        List.countP_cons_of_neg (by
          rw [Bracket.closes_eq_false_of_opens hq.opens]
          exact Bool.false_ne_true)] at hTotal
      omega
    rcases cut_cases hRest with
      ⟨hSame, -, -⟩ | ⟨ws, hWithin, -⟩ | ⟨ws, hLonger, -⟩
    · exact (hShort [] (by simpa using hSame)).elim
    · right
      exact ⟨ws, by rw [hInside, hWithin]⟩
    · exact (hShort _ hLonger).elim

end BracketPair

------------------------------------------------------------
-- Folds
------------------------------------------------------------

/- In tokens one before another stops before it starts. -/
theorem Token.EndToEnd.stop_le_start
    {tokens xs ys : List Token}
    {t u : Token}
    (h : Token.EndToEnd tokens)
    (hTokens : tokens = xs ++ t :: ys)
    (hu : u ∈ ys) : t.stop ≤ u.start := by
  have hPairwise := h.pairwise
  rw [hTokens, List.pairwise_append] at hPairwise
  exact List.rel_of_pairwise_cons hPairwise.2.1 hu

namespace BracketPair

/-
  How the range of a pair goes along with that of a pair
  that opens later.
-/
structure Precedes (p q : BracketPair) : Prop where
  opener_lt : p.range.opener < q.range.opener
  closer_ne : p.range.closer ≠ q.range.closer
  apart_or_within : ∀ b, p.Matched b → q.Matched b →
    p.range.closer < q.range.opener ∨
      q.range.closer < p.range.closer

/- The tokens are cut at the closing bracket. -/
theorem tokens_eq (p : BracketPair) :
    p.tokens =
      (p.before ++ p.opener :: p.inside) ++
        p.closer :: p.after := by
  simp [tokens]

/- The closing bracket starts after the opening one. -/
theorem stop_le_closer
    {p : BracketPair}
    (h : Token.EndToEnd p.tokens) :
    p.opener.stop ≤ p.closer.start :=
  h.stop_le_start rfl (by simp)

/- Pairs of one kind do not overlap. -/
theorem closer_lt_or_lt
    {b : Bracket}
    {p q : BracketPair}
    (hEnds : Token.EndToEnd q.tokens)
    (hp : p.Matched b)
    (hq : q.Matched b)
    (hTokens : p.tokens = q.tokens)
    {us : List Token}
    (hAfter : q.before = p.before ++ p.opener :: us) :
    p.range.closer < q.range.opener ∨
      q.range.closer < p.range.closer := by
  rcases hp.apart_or_within hq hTokens hAfter with
    ⟨vs, hApart⟩ | ⟨vs, hInside⟩
  · left
    have hCut : q.tokens =
        (p.before ++ p.opener :: p.inside) ++ p.closer ::
          (vs ++ q.opener :: (q.inside ++ q.closer ::
            q.after)) := by
      simp [tokens, hAfter, hApart]
    have hLe : p.closer.stop ≤ q.opener.start :=
      hEnds.stop_le_start hCut (by simp)
    have hClosed := FoldRange.start_lt_stop_of_closes hp.closes
    have hOpen := FoldRange.start_lt_stop_of_opens hq.opens
    simp only [range]
    omega
  · right
    have hCut : p.tokens =
        (p.before ++ p.opener :: us ++ q.opener :: q.inside) ++
          q.closer :: (vs ++ p.closer :: p.after) := by
      simp [tokens, hInside]
    rw [← hTokens] at hEnds
    have hLe : q.closer.stop ≤ p.closer.start :=
      hEnds.stop_le_start hCut (by simp)
    have hClosed := FoldRange.start_lt_stop_of_closes hq.closes
    simp only [range]
    omega

/- Closing brackets of two kinds stand at two places. -/
theorem closer_ne_of_ne
    {b other : Bracket}
    {p q : BracketPair}
    (hEnds : Token.EndToEnd q.tokens)
    (hp : p.Matched b)
    (hq : q.Matched other)
    (hTokens : p.tokens = q.tokens)
    (hNe : b ≠ other) : p.range.closer ≠ q.range.closer := by
  intro hEq
  simp only [range] at hEq
  have hCut := hTokens
  rw [tokens_eq, tokens_eq] at hCut
  rcases cut_cases hCut with
    ⟨-, hSame, -⟩ | ⟨zs, -, hLater⟩ | ⟨zs, -, hLater⟩
  · have hCloses := hp.closes
    rw [hSame] at hCloses
    exact hNe (Bracket.eq_of_closes hCloses hq.closes)
  · rw [← hTokens] at hEnds
    have hLe : p.closer.stop ≤ q.closer.start :=
      hEnds.stop_le_start p.tokens_eq (by simp [hLater])
    have hClosed := FoldRange.start_lt_stop_of_closes hp.closes
    omega
  · have hLe : q.closer.stop ≤ p.closer.start :=
      hEnds.stop_le_start q.tokens_eq (by simp [hLater])
    have hClosed := FoldRange.start_lt_stop_of_closes hq.closes
    omega

/- A pair precedes another one that opens later. -/
theorem precedes
    {p q : BracketPair}
    (hEnds : Token.EndToEnd q.tokens)
    (hp : ∃ b, p.Matched b)
    (hq : ∃ b, q.Matched b)
    (hTokens : p.tokens = q.tokens)
    (hLt : p.opener.stop < q.opener.stop) : p.Precedes q := by
  rcases hp with ⟨b, hp⟩
  rcases hq with ⟨other, hq⟩
  have hAfter : ∃ us, q.before = p.before ++ p.opener :: us := by
    rcases cut_cases hTokens with
      ⟨-, hSame, -⟩ | ⟨us, hLater, -⟩ | ⟨us, -, hLater⟩
    · rw [hSame] at hLt
      exact absurd hLt (Nat.lt_irrefl _)
    · exact ⟨us, hLater⟩
    · have hLe : q.opener.stop ≤ p.opener.start :=
        hEnds.stop_le_start rfl (by simp [hLater])
      have hOpen := FoldRange.start_lt_stop_of_opens hp.opens
      omega
  rcases hAfter with ⟨us, hAfter⟩
  refine ⟨hLt, ?_, fun b hp hq =>
    closer_lt_or_lt hEnds hp hq hTokens hAfter⟩
  by_cases hKind : b = other
  · subst hKind
    have hOpen : q.range.opener ≤ q.range.closer :=
      stop_le_closer hEnds
    rcases closer_lt_or_lt hEnds hp hq hTokens hAfter with
      hApart | hWithin
    · omega
    · omega
  · exact closer_ne_of_ne hEnds hp hq hTokens hKind

end BracketPair

namespace FoldRange

/-
  A list with the elements of another one, in the order of
  their openings, is that other list sorted.
-/
theorem mergeSort_eq_of_perm
    {xs ys : List FoldRange}
    (hPerm : xs.Perm ys)
    (hSorted : ys.Pairwise (fun r s => r.opener < s.opener)) :
    xs.mergeSort (fun r s => decide (r.opener ≤ s.opener)) =
      ys := by
  have hMerged :
      (xs.mergeSort fun r s =>
        decide (r.opener ≤ s.opener)).Pairwise
          (fun r s => decide (r.opener ≤ s.opener) = true) := by
    apply List.pairwise_mergeSort
    · intro r s u hrs hsu
      simp only [decide_eq_true_eq] at hrs hsu ⊢
      exact hrs.trans hsu
    · intro r s
      simpa using Nat.le_total r.opener s.opener
  have hYs : ys.Pairwise
      (fun r s => decide (r.opener ≤ s.opener) = true) :=
    hSorted.imp fun hLt => decide_eq_true (Nat.le_of_lt hLt)
  have hBoth := (List.mergeSort_perm xs fun r s =>
    decide (r.opener ≤ s.opener)).trans hPerm
  refine hBoth.eq_of_pairwise ?_ hMerged hYs
  intro r s hr hs hrs hsr
  -- two elements of the sorted list with one opening are one
  have hInj := List.inj_on_of_nodup_map
    (f := FoldRange.opener) (l := ys)
    (List.pairwise_map.mpr (hSorted.imp Nat.ne_of_lt))
  exact hInj (hBoth.mem_iff.mp hr) hs
    (Nat.le_antisymm (of_decide_eq_true hrs)
      (of_decide_eq_true hsr))

/- The pairs of brackets with a line break between them. -/
def folded (tokens : List Token) : List BracketPair :=
  (pairs tokens).filter BracketPair.spansLines

theorem mem_folded_iff
    {tokens : List Token}
    {p : BracketPair} :
    p ∈ folded tokens ↔
      p.tokens = tokens ∧ (∃ b, p.Matched b) ∧
        p.spansLines = true := by
  rw [folded, List.mem_filter, mem_pairs_iff, and_assoc]

/- Each of them precedes those that are found after it. -/
theorem precedes_folded
    {tokens : List Token}
    (h : Token.EndToEnd tokens) :
    (folded tokens).Pairwise BracketPair.Precedes := by
  refine ((pairwise_pairs h.pairwise).filter _).imp_of_mem ?_
  intro p q hp hq hLt
  rcases mem_folded_iff.mp hp with ⟨hTokens, hMatched, -⟩
  rcases mem_folded_iff.mp hq with ⟨hTokens', hMatched', -⟩
  apply BracketPair.precedes _ hMatched hMatched' _ hLt
  · rw [hTokens']
    exact h
  · rw [hTokens, hTokens']

/- They are found in the order of their opening brackets. -/
theorem pairwise_folded
    {tokens : List Token}
    (h : Token.EndToEnd tokens) :
    (folded tokens).Pairwise
      (fun p q => p.range.opener < q.range.opener) :=
  (precedes_folded h).imp BracketPair.Precedes.opener_lt

/- The folds are their ranges. -/
theorem ofTokens_eq_map_folded
    {tokens : List Token}
    (h : Token.EndToEnd tokens) :
    ofTokens tokens =
      (folded tokens).map BracketPair.range := by
  apply mergeSort_eq_of_perm
  · have hPerm := scanFrom_perm 0 ⟨[], []⟩ tokens
    rw [ranges_eq_map_filter
      (fun p hp => (mem_pairs_iff.mp hp).2)] at hPerm
    exact hPerm
  · exact List.pairwise_map.mpr (pairwise_folded h)

/-
  The folds of tokens that lie end to end are the ranges of
  the pairs of brackets that belong together and have a line
  break between them, each of them once, in the order of
  their opening brackets. No two of them have a bracket in
  common, and those of one kind do not overlap.
-/
theorem folds_exactly
    {tokens : List Token}
    (h : Token.EndToEnd tokens) :
    ∃ folded : List BracketPair,
      ofTokens tokens = folded.map BracketPair.range ∧
      (∀ p, p ∈ folded ↔
        p.tokens = tokens ∧ (∃ b, p.Matched b) ∧
          p.spansLines = true) ∧
      folded.Pairwise BracketPair.Precedes :=
  ⟨folded tokens, ofTokens_eq_map_folded h,
    fun _ => mem_folded_iff, precedes_folded h⟩

/- Pairs of different kinds may cross. -/
theorem folds_exactly_crossing :
    let tokens : List Token :=
      [⟨none, ['{'], 0, State.start, Effect.indent⟩,
        ⟨none, ['['], 1, State.start, Effect.indent⟩,
        ⟨none, ['\n'], 2, State.start, Effect.none⟩,
        ⟨none, ['}'], 3, State.start, Effect.dedent⟩,
        ⟨none, ['\n'], 4, State.start, Effect.none⟩,
        ⟨none, [']'], 5, State.start, Effect.dedent⟩]
    Token.EndToEnd tokens ∧
      ofTokens tokens = [⟨1, 3, 0, 1⟩, ⟨2, 5, 0, 2⟩] ∧
      ∃ folded : List BracketPair,
        ofTokens tokens = folded.map BracketPair.range ∧
        (∀ p, p ∈ folded ↔
          p.tokens = tokens ∧ (∃ b, p.Matched b) ∧
            p.spansLines = true) ∧
        folded.Pairwise BracketPair.Precedes := by
  intro tokens
  have hEnds : Token.EndToEnd tokens := by
    unfold Token.EndToEnd
    decide
  have hSorted :
      ofTokens tokens = [⟨1, 3, 0, 1⟩, ⟨2, 5, 0, 2⟩] := by
    apply mergeSort_eq_of_perm
    · decide +kernel
    · decide
  exact ⟨hEnds, hSorted, folds_exactly hEnds⟩

end FoldRange

end Highlighter

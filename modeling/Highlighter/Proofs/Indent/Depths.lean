import Highlighter.Proofs.Fold.Pairs
import Highlighter.Proofs.Indent
import Mathlib.Algebra.Ring.Int.Defs

/-
  The tokens before a line, and what the changes of all
  lines add up to.

  Main statements:
    * `Token.Aligned.exists_before`: the tokens before a line
      end in a line break and have as many of them as there
      are lines before it.
    * `RuleTable.sum_delta_indentsFrom`
-/

namespace Highlighter

namespace Token

/- No line break of aligned tokens has an effect. -/
theorem Aligned.effect_of_isLineBreak
    {n : Nat}
    {tokens : List Token}
    {lines : List Text.Line}
    (h : Aligned n tokens lines) :
    ∀ t ∈ tokens, t.isLineBreak = true →
      t.effect = Effect.none := by
  have hBody : ∀ {n tokens body}, Tiles n tokens body →
      Text.BreakFree body → ∀ t ∈ tokens,
        t.isLineBreak = true → t.effect = Effect.none := by
    intro n tokens body hTiles hFree t ht hBreak
    rw [hTiles.not_isLineBreak hFree t ht] at hBreak
    cases hBreak
  induction h with
  | last hFree hTiles => exact hBody hTiles hFree
  | more hFree hTiles hStart hBreak hEffect hRest ih =>
      intro t ht hIs
      rcases List.mem_append.mp ht with hMem | hMem
      · exact hBody hTiles hFree t hMem hIs
      · rcases List.mem_cons.mp hMem with rfl | hMem
        · exact hEffect
        · exact ih t hMem hIs

/-
  The tokens that end where a line starts, or before, are
  the first ones, up to the break of the line before it.
-/
theorem Aligned.exists_before
    {n : Nat}
    {tokens : List Token}
    {lines : List Text.Line}
    (h : Aligned n tokens lines)
    {i : Nat}
    (hi : i < lines.length) :
    ∃ xs ys, tokens = xs ++ ys ∧
      (∀ depth,
        depthBy depth tokens (n + Text.lineOffset lines i) =
          depthAfter depth xs) ∧
      breakCount xs = i ∧
      ∀ t ∈ xs.getLast?, t.isLineBreak = true := by
  induction h generalizing i with
  | @last n tokens body hFree hTiles =>
      obtain rfl : i = 0 := by simpa using hi
      refine ⟨[], tokens, rfl, ?_, rfl, by simp⟩
      intro depth
      rw [Text.lineOffset_zero, Nat.add_zero,
        hTiles.depthBy_start]
      rfl
  | @more n tokens rest body brk lines hFree hTiles hStart
      hBreak hEffect hRest ih =>
      cases i with
      | zero =>
          have hAll := (Aligned.more hFree hTiles hStart
            hBreak hEffect hRest).tiles
          refine ⟨[], _, rfl, ?_, rfl, by simp⟩
          intro depth
          rw [Text.lineOffset_zero, Nat.add_zero,
            hAll.depthBy_start]
          rfl
      | succ i =>
          rcases ih (Nat.lt_of_succ_lt_succ hi) with
            ⟨xs, ys, hTokens, hDepth, hCount, hLast⟩
          refine ⟨tokens ++ brk :: xs, ys, ?_, ?_, ?_, ?_⟩
          · rw [hTokens, List.append_assoc, List.cons_append]
          · intro depth
            rw [depthBy_more hTiles hStart hBreak hEffect,
              hDepth]
            simp only [depthAfter, List.foldl_append,
              List.foldl_cons, depthStep, hEffect]
          · have hNone :=
              hTiles.not_isLineBreak hFree
            unfold breakCount at hCount ⊢
            rw [List.countP_append,
              List.countP_cons_of_pos hBreak, hCount,
              List.countP_eq_zero.mpr (by simpa using hNone)]
            omega
          · intro t ht
            rw [List.getLast?_append_of_ne_nil _
              (List.cons_ne_nil _ _)] at ht
            cases xs with
            | nil =>
                cases ht
                exact hBreak
            | cons x xs =>
                rw [List.getLast?_cons_cons] at ht
                exact hLast t ht

end Token

namespace RuleTable

variable (table : RuleTable)
variable (m : LanguageMeta)
variable (options : IndentOptions)

/- The changes of all lines are the change of all tokens. -/
theorem sum_delta_indentsFrom
    {n : Nat}
    {tokens : List Token}
    {lines : List Text.Line}
    (h : Token.Aligned n tokens lines)
    (number : Nat)
    (state : State)
    (levels : List Nat) :
    ((table.indentsFrom m options number state levels tokens
        lines).map LineIndent.delta).sum =
      (Token.depthAfter levels.length tokens : Int) -
        levels.length := by
  induction h generalizing number state levels with
  | @last n tokens body hFree hTiles =>
      rw [indentsFrom_last table m options
        (hTiles.not_isLineBreak hFree)]
      simp
  | @more n tokens rest body brk lines hFree hTiles hStart
      hBreak hEffect hRest ih =>
      rw [indentsFrom_more table m options
        (hTiles.not_isLineBreak hFree) hBreak]
      simp only [List.map_cons, List.sum_cons, ih,
        Token.length_foldl_applyEffect]
      simp only [Token.depthAfter, List.foldl_append,
        List.foldl_cons, Token.depthStep, hEffect]
      omega

end RuleTable

end Highlighter

import Highlighter.Proofs.Fold.Levels

/-
  How the pairs of the one stack lie: where they stand among
  the tokens, that of any two one is within the other or
  they are apart, and that the opening bracket of a pair
  stays on the stack up to the closing one.

  Key definitions include:
    * `Token.KeepsOpen`
    * `LevelPair.ClosesAt`
    * `LevelPair.OpensAt`
    * `FoldRange.ApartOrWithin`

  Main statements:
    * `LevelPair.closesAt_or_opensAt`
    * `LevelPair.pairwise_apartOrWithin`
-/

namespace Highlighter

------------------------------------------------------------
-- Levels that stay open
------------------------------------------------------------

namespace Token

/-
  Some tokens, before which a number of levels is open, keep
  more than `depth` of them open all along.
-/
def KeepsOpen (depth levels : Nat) (tokens : List Token) :
    Prop :=
  ∀ n, depth < depthAfter levels (tokens.take n)

theorem keepsOpen_nil
    {depth levels : Nat}
    (h : depth < levels) : KeepsOpen depth levels [] := by
  intro n
  rw [List.take_nil]
  exact h

theorem KeepsOpen.cons
    {depth levels : Nat}
    {t : Token}
    {tokens : List Token}
    (hNow : depth < levels)
    (h : KeepsOpen depth (depthStep levels t) tokens) :
    KeepsOpen depth levels (t :: tokens) := by
  intro n
  cases n with
  | zero => exact hNow
  | succ n => exact h n

end Token

------------------------------------------------------------
-- Places of pairs
------------------------------------------------------------

namespace LevelPair

/-
  A pair whose opening bracket is on the stack before some
  tokens is closed by one of them.
-/
structure ClosesAt
    (line : Nat)
    (stack : List OpenBracket)
    (tokens : List Token)
    (p : LevelPair)
    (below : List OpenBracket)
    (inside after : List Token) : Prop where
  stack_eq : ∃ above,
    stack = above ++ ⟨p.opener, p.startLine⟩ :: below
  tokens_eq : tokens = inside ++ p.closer :: after
  endLine_eq : p.endLine = line + Token.breakCount inside
  keepsOpen :
    Token.KeepsOpen below.length stack.length inside

/-
  A pair is opened and closed by some tokens, before which a
  number of levels is open.
-/
structure OpensAt
    (line depth : Nat)
    (tokens : List Token)
    (p : LevelPair)
    (before inside after : List Token) : Prop where
  tokens_eq :
    tokens = before ++ p.opener :: (inside ++ p.closer :: after)
  startLine_eq : p.startLine = line + Token.breakCount before
  endLine_eq :
    p.endLine =
      line + Token.breakCount (before ++ p.opener :: inside)
  keepsOpen :
    Token.KeepsOpen (Token.depthAfter depth before)
      (Token.depthAfter depth before + 1) inside

variable {line : Nat}
variable {stack : List OpenBracket}
variable {rest : List Token}
variable {t : Token}
variable {p : LevelPair}

/- One more token before a pair that is opened later. -/
theorem OpensAt.cons
    {depth : Nat}
    {before inside after : List Token}
    (h : OpensAt (Token.lineAfter line t)
      (Token.depthStep depth t) rest p before inside after) :
    OpensAt line depth (t :: rest) p (t :: before) inside
      after where
  tokens_eq := by rw [h.tokens_eq]; rfl
  startLine_eq := by
    rw [h.startLine_eq, Token.add_breakCount_cons]
  endLine_eq := by
    rw [h.endLine_eq, List.cons_append,
      Token.add_breakCount_cons]
  keepsOpen := h.keepsOpen

/-
  One more token before a pair that is closed later: it may
  be the one that opens the pair.
-/
theorem ClosesAt.cons
    {below : List OpenBracket}
    {inside after : List Token}
    (h : ClosesAt (Token.lineAfter line t)
      (OpenBracket.step line stack t) rest p below inside
      after) :
    ClosesAt line stack (t :: rest) p below (t :: inside)
        after ∨
      OpensAt line stack.length (t :: rest) p [] inside
        after := by
  rcases h.stack_eq with ⟨above, hStack⟩
  have hKeeps := h.keepsOpen
  rw [OpenBracket.length_step] at hKeeps
  have hEnd : p.endLine =
      line + Token.breakCount (t :: inside) := by
    rw [h.endLine_eq, Token.add_breakCount_cons]
  have hTokens : t :: rest = t :: inside ++ p.closer :: after := by
    rw [h.tokens_eq]
    rfl
  -- unless the token opens the pair it was open already
  have hEarlier : ∀ above',
      stack = above' ++ ⟨p.opener, p.startLine⟩ :: below →
        ClosesAt line stack (t :: rest) p below (t :: inside)
          after := by
    intro above' hAbove
    refine ⟨⟨above', hAbove⟩, hTokens, hEnd,
      hKeeps.cons ?_⟩
    rw [hAbove, List.length_append, List.length_cons]
    omega
  unfold OpenBracket.step at hStack
  split at hStack
  · rename_i hEffect
    cases above with
    | nil =>
        cases hStack
        right
        refine ⟨?_, rfl, hEnd, ?_⟩
        · exact hTokens
        · simp only [Token.depthStep, hEffect] at hKeeps
          exact hKeeps
    | cons newest above =>
        left
        exact hEarlier above (List.cons.inj hStack).2
  · left
    cases stack with
    | nil => simp at hStack
    | cons newest stack =>
        rw [List.tail_cons] at hStack
        exact hEarlier (newest :: above) (by rw [hStack]; rfl)
  · left
    exact hEarlier above hStack

/-
  A pair that is found either was open before the tokens or
  is opened by them.
-/
theorem closesAt_or_opensAt
    {tokens : List Token}
    (h : p ∈ scanFrom line stack tokens) :
    (∃ below inside after,
        ClosesAt line stack tokens p below inside after) ∨
      ∃ before inside after,
        OpensAt line stack.length tokens p before inside
          after := by
  induction tokens generalizing line stack with
  | nil => cases h
  | cons t rest ih =>
      rcases List.mem_append.mp h with hNow | hLater
      · left
        rw [Option.mem_toList] at hNow
        unfold closedBy at hNow
        split at hNow
        · cases stack with
          | nil => cases hNow
          | cons newest stack =>
              cases hNow
              exact ⟨stack, [], rest, ⟨[], rfl⟩, rfl, rfl,
                Token.keepsOpen_nil (by simp)⟩
        · cases hNow
      · rcases ih hLater with
          ⟨below, inside, after, hCloses⟩ |
          ⟨before, inside, after, hOpens⟩
        · rcases hCloses.cons with hCloses | hOpens
          · exact Or.inl ⟨below, _, after, hCloses⟩
          · exact Or.inr ⟨[], inside, after, hOpens⟩
        · rw [OpenBracket.length_step] at hOpens
          exact Or.inr ⟨_, inside, after, hOpens.cons⟩

/- Its brackets are among those open and the tokens. -/
theorem mem_of_mem_scanFrom
    {tokens : List Token}
    (h : p ∈ scanFrom line stack tokens) :
    (p.opener ∈ stack.map OpenBracket.token ∨
        p.opener ∈ tokens) ∧
      p.closer ∈ tokens := by
  rcases closesAt_or_opensAt h with
    ⟨below, inside, after, hCloses⟩ |
    ⟨before, inside, after, hOpens⟩
  · rcases hCloses.stack_eq with ⟨above, hStack⟩
    constructor
    · left
      rw [hStack]
      simp
    · rw [hCloses.tokens_eq]
      simp
  · rw [hOpens.tokens_eq]
    simp

end LevelPair

------------------------------------------------------------
-- Apart or within
------------------------------------------------------------

/- Two ranges are apart, or one of them is in the other. -/
inductive FoldRange.ApartOrWithin (r s : FoldRange) : Prop
  | before (hLt : r.closer < s.opener)
  | after (hLt : s.closer < r.opener)
  | within
      (hOpener : s.opener < r.opener)
      (hCloser : r.closer < s.closer)
  | around
      (hOpener : r.opener < s.opener)
      (hCloser : s.closer < r.closer)

theorem FoldRange.ApartOrWithin.symm
    {r s : FoldRange}
    (h : r.ApartOrWithin s) : s.ApartOrWithin r := by
  cases h with
  | before hLt => exact after hLt
  | after hLt => exact before hLt
  | within hOpener hCloser => exact around hOpener hCloser
  | around hOpener hCloser => exact within hOpener hCloser

/- One token starts and stops before another one does. -/
structure Token.Ahead (t u : Token) : Prop where
  start_lt : t.start < u.start
  stop_lt : t.stop < u.stop

/- The tokens of a tiling are ahead of those after them. -/
theorem Token.Tiles.pairwise_ahead
    {n : Nat}
    {tokens : List Token}
    {s : Text}
    (h : Tiles n tokens s) : tokens.Pairwise Ahead := by
  induction h with
  | nil n => exact List.Pairwise.nil
  | @cons t tokens rest hText hRest ih =>
      refine List.Pairwise.cons ?_ ih
      intro u hu
      have hStart := (hRest.bounds u hu).1
      have hFirst := start_lt_stop hText
      have hNext := start_lt_stop (hRest.text_ne_nil u hu)
      exact ⟨by omega, by omega⟩

namespace OpenBracket

/- The tokens of open brackets, oldest first. -/
def tokens (stack : List OpenBracket) : List Token :=
  (stack.map token).reverse

/- What is open after a token was so before, or is it. -/
theorem sublist_step
    (line : Nat)
    (stack : List OpenBracket)
    (t : Token)
    (rest : List Token) :
    (tokens (step line stack t) ++ rest).Sublist
      (tokens stack ++ t :: rest) := by
  have hSkip : (tokens stack ++ rest).Sublist
      (tokens stack ++ t :: rest) :=
    (List.sublist_cons_self t rest).append_left _
  unfold step
  split
  · simp [tokens]
  · refine List.Sublist.trans ?_ hSkip
    apply List.Sublist.append_right
    unfold tokens
    exact ((List.tail_sublist stack).map token).reverse
  · exact hSkip

end OpenBracket

namespace LevelPair

/-
  The newest bracket is closed before the others, and before
  any that are opened later.
-/
theorem apartOrWithin_of_newest
    {newest : OpenBracket}
    {stack : List OpenBracket}
    {t : Token}
    {rest : List Token}
    (hAhead :
      (OpenBracket.tokens (newest :: stack) ++
        t :: rest).Pairwise Token.Ahead)
    (line : Nat)
    {q : LevelPair}
    (hOpener :
      q.opener ∈ stack.map OpenBracket.token ∨
        q.opener ∈ rest)
    (hCloser : q.closer ∈ rest) :
    FoldRange.ApartOrWithin
      (range ⟨newest.token, t, newest.line, line⟩) q.range := by
  simp only [OpenBracket.tokens, List.map_cons,
    List.reverse_cons] at hAhead
  rcases List.pairwise_append.mp hAhead with
    ⟨hStack, hTokens, -⟩
  have hLater : ∀ u ∈ rest, Token.Ahead t u :=
    (List.pairwise_cons.mp hTokens).1
  rcases hOpener with hOlder | hNewer
  · have hOlder' :=
      (List.pairwise_append.mp hStack).2.2 q.opener
        (List.mem_reverse.mpr hOlder) newest.token
        (List.mem_singleton_self _)
    exact FoldRange.ApartOrWithin.within hOlder'.stop_lt
      (hLater _ hCloser).start_lt
  · apply FoldRange.ApartOrWithin.before
    have hLt := (hLater _ hNewer).start_lt
    exact Nat.lt_of_lt_of_le hLt (Nat.le_add_right _ _)

/-
  Of any two pairs of the one stack one is within the other
  or they are apart.
-/
theorem pairwise_apartOrWithin
    {line : Nat}
    {stack : List OpenBracket}
    {tokens : List Token}
    (hAhead :
      (OpenBracket.tokens stack ++ tokens).Pairwise
        Token.Ahead) :
    (scanFrom line stack tokens).Pairwise
      (fun p q => p.range.ApartOrWithin q.range) := by
  induction tokens generalizing line stack with
  | nil => exact List.Pairwise.nil
  | cons t rest ih =>
      rw [scanFrom, List.pairwise_append]
      refine ⟨?_, ?_, ?_⟩
      · cases closedBy line stack t <;> simp
      · exact ih (hAhead.sublist
          (OpenBracket.sublist_step line stack t rest))
      · intro p hp q hq
        rw [Option.mem_toList] at hp
        unfold closedBy at hp
        split at hp
        · rename_i hEffect
          cases stack with
          | nil => cases hp
          | cons newest stack =>
              cases hp
              simp only [OpenBracket.step, hEffect,
                List.tail_cons] at hq
              have hMem := mem_of_mem_scanFrom hq
              exact apartOrWithin_of_newest hAhead line
                hMem.1 hMem.2
        · cases hp

end LevelPair

end Highlighter

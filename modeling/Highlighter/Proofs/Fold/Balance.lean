import Highlighter.Fold

/-
  Balance: which tokens leave no bracket of a kind open, and
  the token that closes an open bracket.

  Key definitions include:
    * `Bracket.Balanced`
    * `Bracket.Unwinds`
    * `Bracket.pass?`
    * `Bracket.closing?`

  Main statements:
    * `Bracket.unwinds_cons_iff`: to unwind brackets is to
      pass the tokens one after the other.
    * `Bracket.closing?_eq_some_iff`: a bracket is closed
      where those inside of it have been unwound.
-/

namespace Highlighter

------------------------------------------------------------
-- Balance
------------------------------------------------------------

namespace Bracket

/-
  Tokens are balanced in brackets of a kind when they close
  as many as they open, and no beginning of them closes more
  than it opens.
-/
structure Balanced (b : Bracket) (tokens : List Token) :
    Prop where
  within : ∀ n,
    (tokens.take n).countP b.closes ≤
      (tokens.take n).countP b.opens
  total : tokens.countP b.closes = tokens.countP b.opens

/-
  Tokens unwind a number of brackets that are open before
  them when they close that many more than they open, and no
  beginning of them closes any further ones.
-/
structure Unwinds
    (b : Bracket)
    (depth : Nat)
    (tokens : List Token) : Prop where
  within : ∀ n,
    (tokens.take n).countP b.closes ≤
      (tokens.take n).countP b.opens + depth
  total :
    tokens.countP b.closes = tokens.countP b.opens + depth

theorem unwinds_zero_iff
    {b : Bracket}
    {tokens : List Token} :
    b.Unwinds 0 tokens ↔ b.Balanced tokens :=
  ⟨fun h => ⟨h.within, h.total⟩, fun h => ⟨h.within, h.total⟩⟩

/- No token both opens and closes. -/
theorem opens_eq_false_of_closes
    {b other : Bracket}
    {t : Token}
    (h : b.closes t = true) : other.opens t = false := by
  simp only [closes, Bool.and_eq_true, beq_iff_eq] at h
  simp [opens, h.1]

/- A token opens brackets of one kind only. -/
theorem eq_of_opens
    {b other : Bracket}
    {t : Token}
    (h : b.opens t = true)
    (hOther : other.opens t = true) : b = other := by
  simp only [opens, Bool.and_eq_true, beq_iff_eq] at h hOther
  have hText := h.2.symm.trans hOther.2
  cases b <;> cases other <;> first | rfl | cases hText

/- And closes brackets of one kind only. -/
theorem eq_of_closes
    {b other : Bracket}
    {t : Token}
    (h : b.closes t = true)
    (hOther : other.closes t = true) : b = other := by
  simp only [closes, Bool.and_eq_true, beq_iff_eq] at h hOther
  have hText := h.2.symm.trans hOther.2
  cases b <;> cases other <;> first | rfl | cases hText

theorem closes_eq_false_of_opens
    {b other : Bracket}
    {t : Token}
    (h : b.opens t = true) : other.closes t = false := by
  rw [← Bool.not_eq_true]
  intro hCloses
  rw [opens_eq_false_of_closes hCloses] at h
  cases h

/- No line break opens or closes. -/
theorem not_isLineBreak_of_opens
    {b : Bracket}
    {t : Token}
    (h : b.opens t = true) : t.isLineBreak = false := by
  simp only [opens, Bool.and_eq_true, beq_iff_eq] at h
  rw [Token.isLineBreak, h.2]
  cases b <;> rfl

theorem not_isLineBreak_of_closes
    {b : Bracket}
    {t : Token}
    (h : b.closes t = true) : t.isLineBreak = false := by
  simp only [closes, Bool.and_eq_true, beq_iff_eq] at h
  rw [Token.isLineBreak, h.2]
  cases b <;> rfl

/-
  How many brackets that were open before are still to be
  closed after a token, none if the token closes one further.
-/
def pass? (b : Bracket) (depth : Nat) (t : Token) :
    Option Nat :=
  if b.closes t then
    match depth with
    | 0 => none
    | depth + 1 => some depth
  else if b.opens t then
    some (depth + 1)
  else
    some depth

theorem pass?_eq_none_iff
    {b : Bracket}
    {depth : Nat}
    {t : Token} :
    b.pass? depth t = none ↔
      b.closes t = true ∧ depth = 0 := by
  unfold pass?
  cases b.closes t <;> cases b.opens t <;> cases depth <;>
    simp

theorem pass?_eq_some_iff
    {b : Bracket}
    {depth depth' : Nat}
    {t : Token} :
    b.pass? depth t = some depth' ↔
      depth' + [t].countP b.closes =
        depth + [t].countP b.opens := by
  unfold pass?
  cases hCloses : b.closes t with
  | true =>
      rw [List.countP_singleton, List.countP_singleton,
        hCloses, opens_eq_false_of_closes hCloses]
      cases depth <;> simp [eq_comm]
  | false =>
      rw [List.countP_singleton, List.countP_singleton,
        hCloses]
      cases b.opens t <;> simp [eq_comm]

/- Nothing is unwound without tokens. -/
theorem unwinds_nil_iff {b : Bracket} {depth : Nat} :
    b.Unwinds depth [] ↔ depth = 0 := by
  constructor
  · intro h
    have hTotal := h.total
    simpa using hTotal.symm
  · rintro rfl
    exact ⟨fun n => by simp, rfl⟩

/- To unwind is to pass the tokens one after the other. -/
theorem unwinds_cons_iff
    {b : Bracket}
    {depth : Nat}
    {t : Token}
    {tokens : List Token} :
    b.Unwinds depth (t :: tokens) ↔
      ∃ depth', b.pass? depth t = some depth' ∧
        b.Unwinds depth' tokens := by
  have hSplit : ∀ (p : Token → Bool) (us : List Token),
      (t :: us).countP p = [t].countP p + us.countP p := by
    intro p us
    rw [← List.countP_append, List.singleton_append]
  simp only [pass?_eq_some_iff]
  constructor
  · intro h
    have hOne := h.within 1
    rw [List.take_succ_cons, List.take_zero] at hOne
    refine ⟨depth + [t].countP b.opens -
      [t].countP b.closes, by omega, ?_, ?_⟩
    · intro n
      have hNext := h.within (n + 1)
      rw [List.take_succ_cons, hSplit, hSplit b.opens] at hNext
      omega
    · have hTotal := h.total
      rw [hSplit, hSplit b.opens] at hTotal
      omega
  · rintro ⟨depth', hPass, h⟩
    constructor
    · intro n
      cases n with
      | zero => simp
      | succ n =>
          have hNext := h.within n
          rw [List.take_succ_cons, hSplit, hSplit b.opens]
          omega
    · have hTotal := h.total
      rw [hSplit, hSplit b.opens]
      omega

------------------------------------------------------------
-- Closing brackets
------------------------------------------------------------

/-
  A closing bracket among tokens, with the tokens before it
  and after it.
-/
structure Closing where
  inside : List Token
  closer : Token
  after : List Token
deriving DecidableEq, Repr

/- The same with one more token before it. -/
def Closing.cons (t : Token) (c : Closing) : Closing :=
  { c with inside := t :: c.inside }

/-
  The token that closes the open bracket which has a number
  of others inside of it.
-/
def closing? (b : Bracket) :
    Nat → List Token → Option Closing
  | _, [] => none
  | depth, t :: tokens =>
      match b.pass? depth t with
      | none => some ⟨[], t, tokens⟩
      | some depth' =>
          (closing? b depth' tokens).map (Closing.cons t)

/- It is where the others have been unwound. -/
theorem closing?_eq_some_iff
    {b : Bracket}
    {depth : Nat}
    {tokens : List Token}
    {c : Closing} :
    b.closing? depth tokens = some c ↔
      tokens = c.inside ++ c.closer :: c.after ∧
        b.closes c.closer = true ∧
        b.Unwinds depth c.inside := by
  rcases c with ⟨inside, closer, after⟩
  induction tokens generalizing depth inside with
  | nil => simp [closing?]
  | cons t tokens ih =>
      cases hPass : b.pass? depth t with
      | none =>
          rcases pass?_eq_none_iff.mp hPass with
            ⟨hCloses, hDepth⟩
          simp only [closing?, hPass, Option.some.injEq,
            Closing.mk.injEq]
          constructor
          · rintro ⟨rfl, rfl, rfl⟩
            exact ⟨rfl, hCloses, unwinds_nil_iff.mpr hDepth⟩
          · rintro ⟨hTokens, -, hUnwinds⟩
            cases inside with
            | nil =>
                cases hTokens
                exact ⟨rfl, rfl, rfl⟩
            | cons u inside =>
                cases hTokens
                rcases unwinds_cons_iff.mp hUnwinds with
                  ⟨depth', hSome, -⟩
                rw [hPass] at hSome
                cases hSome
      | some depth' =>
          simp only [closing?, hPass, Option.map_eq_some_iff]
          constructor
          · rintro ⟨c, hClosing, hEq⟩
            cases hEq
            rcases (ih _).mp hClosing with
              ⟨hTokens, hCloses, hUnwinds⟩
            exact ⟨by rw [hTokens]; rfl, hCloses,
              unwinds_cons_iff.mpr ⟨depth', hPass, hUnwinds⟩⟩
          · rintro ⟨hTokens, hCloses, hUnwinds⟩
            cases inside with
            | nil =>
                cases hTokens
                have hDepth := unwinds_nil_iff.mp hUnwinds
                rw [pass?_eq_none_iff.mpr ⟨hCloses, hDepth⟩]
                  at hPass
                cases hPass
            | cons u inside =>
                cases hTokens
                rcases unwinds_cons_iff.mp hUnwinds with
                  ⟨depth'', hSome, hRest⟩
                cases hPass.symm.trans hSome
                exact ⟨⟨inside, closer, after⟩,
                  (ih _).mpr ⟨rfl, hCloses, hRest⟩, rfl⟩

end Bracket

end Highlighter

import Highlighter.Proofs.Fold.Pairs
import Highlighter.Proofs.Indent

/-
  One stack for brackets of all kinds. Indentation has such
  a stack: an indent puts a bracket on it and a dedent takes
  the newest one off, whatever its kind. The two belong
  together as a pair of that stack. Folding has a stack for
  each of two kinds. Where brackets are properly nested the
  stacks agree, and folding finds the pairs of the one stack
  that are of its two kinds and reach over a line break.

  Key definitions include:
    * `Token.Mates`
    * `Token.Nested`
    * `OpenBracket`
    * `LevelPair`
    * `LevelPair.ofTokens`

  Main statements:
    * `OpenBracket.map_line_step`: the stack is the one that
      indentation keeps.
    * `FoldRange.scanFrom_eq_of_nests`: a scan for folds
      finds the pairs of that stack.
-/

namespace Highlighter

------------------------------------------------------------
-- Nesting
------------------------------------------------------------

namespace Bracket

/- Only tokens that indent open a bracket. -/
theorem opens_eq_false
    {t : Token}
    (h : t.effect ≠ Effect.indent)
    (b : Bracket) : b.opens t = false := by
  simp [opens, h]

/- Only tokens that dedent close one. -/
theorem closes_eq_false
    {t : Token}
    (h : t.effect ≠ Effect.dedent)
    (b : Bracket) : b.closes t = false := by
  simp [closes, h]

/- A token that opens one of a kind opens none of another. -/
theorem opens_eq_false_of_ne
    {b other : Bracket}
    {t : Token}
    (h : b.opens t = true)
    (hNe : b ≠ other) : other.opens t = false := by
  rw [← Bool.not_eq_true]
  exact fun hOther => hNe (eq_of_opens h hOther)

end Bracket

namespace Token

/- The opening brackets and what closes each of them. -/
def mates : List (Text × Text) :=
  [(['{'], ['}']), (['['], [']']), (['('], [')'])]

/-
  Two tokens are mates when the first indents and the second
  dedents, and they are the two brackets of one kind.
-/
structure Mates (o c : Token) : Prop where
  indents : o.effect = Effect.indent
  dedents : c.effect = Effect.dedent
  texts : (o.text, c.text) ∈ mates

/-
  Tokens are properly nested when those that have an effect
  come in mates, one inside of another or after it.
-/
inductive Nested : List Token → Prop
  | nil : Nested []
  | plain
      {t : Token}
      {rest : List Token}
      (hEffect : t.effect = Effect.none)
      (hRest : Nested rest) : Nested (t :: rest)
  | pair
      {o c : Token}
      {inside rest : List Token}
      (hMates : Mates o c)
      (hInside : Nested inside)
      (hRest : Nested rest) :
      Nested (o :: (inside ++ c :: rest))

/-
  Tokens are properly nested after some brackets have been
  opened, newest first, when they close these one by one and
  all that they open themselves.
-/
inductive Nests : List Token → List Token → Prop
  | nil : Nests [] []
  | plain
      {t : Token}
      {stack rest : List Token}
      (hEffect : t.effect = Effect.none)
      (hRest : Nests stack rest) : Nests stack (t :: rest)
  | opens
      {t : Token}
      {stack rest : List Token}
      (hEffect : t.effect = Effect.indent)
      (hRest : Nests (t :: stack) rest) :
      Nests stack (t :: rest)
  | closes
      {o t : Token}
      {stack rest : List Token}
      (hMates : Mates o t)
      (hRest : Nests stack rest) :
      Nests (o :: stack) (t :: rest)

/- Nested tokens leave what is open to those after them. -/
theorem Nested.nests
    {tokens : List Token}
    (h : Nested tokens)
    {stack rest : List Token}
    (hRest : Nests stack rest) :
    Nests stack (tokens ++ rest) := by
  induction h generalizing stack rest with
  | nil => exact hRest
  | plain hEffect hTokens ih =>
      exact Nests.plain hEffect (ih hRest)
  | @pair o c inside tokens hMates hInside hTokens ihInside
      ih =>
      rw [List.cons_append, List.append_assoc,
        List.cons_append]
      apply Nests.opens hMates.indents
      exact ihInside (Nests.closes hMates (ih hRest))

/- They close all they open. -/
theorem Nested.depthAfter_eq
    {tokens : List Token}
    (h : Nested tokens)
    (depth : Nat) : depthAfter depth tokens = depth := by
  induction h generalizing depth with
  | nil => rfl
  | @plain t rest hEffect hRest ih =>
      rw [depthAfter, List.foldl_cons, ← depthAfter, ih]
      simp only [depthStep, hEffect]
  | @pair o c inside rest hMates hInside hRest ihInside ih =>
      have hOpen : depthStep depth o = depth + 1 := by
        simp only [depthStep, hMates.indents]
      have hClose : depthStep (depth + 1) c = depth := by
        simp only [depthStep, hMates.dedents,
          Nat.add_sub_cancel]
      unfold depthAfter at ihInside ih ⊢
      rw [List.foldl_cons, List.foldl_append,
        List.foldl_cons, hOpen, ihInside, hClose, ih]

/- Where one of two mates is of a kind that folds both are. -/
theorem Mates.opens_eq
    {o c : Token}
    (h : Mates o c)
    (b : Bracket) : b.opens o = b.closes c := by
  have hTexts := h.texts
  simp only [mates, List.mem_cons, Prod.mk.injEq,
    List.not_mem_nil, or_false] at hTexts
  rw [Bracket.opens, Bracket.closes, h.indents, h.dedents]
  rcases hTexts with ⟨hOpen, hClose⟩ | ⟨hOpen, hClose⟩ |
    ⟨hOpen, hClose⟩
  all_goals
    rw [hOpen, hClose]
    cases b <;> rfl

end Token

------------------------------------------------------------
-- The stack
------------------------------------------------------------

/- A bracket that is open, and the line it stands on. -/
structure OpenBracket where
  token : Token
  line : Nat
deriving DecidableEq, Repr

namespace OpenBracket

/-
  The open brackets, newest first, after a token on a line:
  an indent is one more, and a dedent closes the newest one.
-/
def step (line : Nat) (stack : List OpenBracket)
    (t : Token) : List OpenBracket :=
  match t.effect with
  | Effect.indent => ⟨t, line⟩ :: stack
  | Effect.dedent => stack.tail
  | Effect.none => stack

/-
  Their lines are those that opened the levels which
  indentation has on its stack.
-/
theorem map_line_step
    (number : Nat)
    (stack : List OpenBracket)
    (t : Token) :
    (step number stack t).map line =
      Token.applyEffect number (stack.map line) t := by
  cases hEffect : t.effect <;>
    simp [step, Token.applyEffect, hEffect]

/- So they are as many as are counted. -/
theorem length_step
    (line : Nat)
    (stack : List OpenBracket)
    (t : Token) :
    (step line stack t).length =
      Token.depthStep stack.length t := by
  have hLength :=
    congrArg List.length (map_line_step line stack t)
  rw [Token.length_applyEffect] at hLength
  simpa using hLength

end OpenBracket

/-
  An opening bracket and the token that takes it off the
  stack, with the lines they stand on.
-/
structure LevelPair where
  opener : Token
  closer : Token
  startLine : Nat
  endLine : Nat
deriving DecidableEq, Repr

namespace LevelPair

/- The pair of a token and the bracket it closes, if any. -/
def closedBy (line : Nat) (stack : List OpenBracket)
    (t : Token) : Option LevelPair :=
  if t.effect = Effect.dedent then
    stack.head?.map fun o => ⟨o.token, t, o.line, line⟩
  else
    none

/-
  The pairs that are closed by tokens from a line on, given
  the brackets that are open there.
-/
def scanFrom : Nat → List OpenBracket → List Token →
    List LevelPair
  | _, _, [] => []
  | line, stack, t :: rest =>
      (closedBy line stack t).toList ++
        scanFrom (Token.lineAfter line t)
          (OpenBracket.step line stack t) rest

/- The pairs of some tokens. -/
def ofTokens (tokens : List Token) : List LevelPair :=
  scanFrom 0 [] tokens

/- The range between the two brackets of a pair. -/
def range (p : LevelPair) : FoldRange :=
  ⟨p.opener.stop, p.closer.start, p.startLine, p.endLine⟩

/-
  Is a pair to be folded? It has to be of a kind that folds
  and to stand on two lines.
-/
def folds (p : LevelPair) : Bool :=
  (FoldRange.openedBy p.opener).isSome &&
    decide (p.startLine < p.endLine)

theorem scanFrom_of_none
    {t : Token}
    (h : t.effect = Effect.none)
    (line : Nat)
    (stack : List OpenBracket)
    (rest : List Token) :
    scanFrom line stack (t :: rest) =
      scanFrom (Token.lineAfter line t) stack rest := by
  simp [scanFrom, closedBy, OpenBracket.step, h]

theorem scanFrom_of_indent
    {t : Token}
    (h : t.effect = Effect.indent)
    (line : Nat)
    (stack : List OpenBracket)
    (rest : List Token) :
    scanFrom line stack (t :: rest) =
      scanFrom (Token.lineAfter line t) (⟨t, line⟩ :: stack)
        rest := by
  simp [scanFrom, closedBy, OpenBracket.step, h]

theorem scanFrom_of_dedent
    {t : Token}
    (h : t.effect = Effect.dedent)
    (line : Nat)
    (o : OpenBracket)
    (stack : List OpenBracket)
    (rest : List Token) :
    scanFrom line (o :: stack) (t :: rest) =
      ⟨o.token, t, o.line, line⟩ ::
        scanFrom (Token.lineAfter line t) stack rest := by
  simp [scanFrom, closedBy, OpenBracket.step, h]

end LevelPair

------------------------------------------------------------
-- One stack and two
------------------------------------------------------------

namespace FoldRange

/- An open bracket as folding has it. -/
def Opening.ofBracket (bracket : OpenBracket) : Opening :=
  ⟨bracket.token.stop, bracket.line⟩

/- The open brackets of a kind that folds. -/
def openingsOf (kind : Bracket) (stack : List OpenBracket) :
    List Opening :=
  (stack.filter fun bracket =>
    kind.opens bracket.token).map Opening.ofBracket

theorem openingsOf_cons_of_opens
    {kind : Bracket}
    {bracket : OpenBracket}
    (h : kind.opens bracket.token = true)
    (stack : List OpenBracket) :
    openingsOf kind (bracket :: stack) =
      Opening.ofBracket bracket :: openingsOf kind stack := by
  simp [openingsOf, h]

theorem openingsOf_cons_of_not_opens
    {kind : Bracket}
    {bracket : OpenBracket}
    (h : kind.opens bracket.token = false)
    (stack : List OpenBracket) :
    openingsOf kind (bracket :: stack) =
      openingsOf kind stack := by
  simp [openingsOf, h]

/-
  The stacks of folding agree with the one stack when each
  has the brackets of its kind, in the same order.
-/
def Openings.Agrees (o : Openings) (stack : List OpenBracket) :
    Prop :=
  ∀ kind, o.ofKind kind = openingsOf kind stack

/- A bracket of no kind that folds is on none of them. -/
theorem Openings.agrees_cons_iff
    {o : Openings}
    {bracket : OpenBracket}
    (h : ∀ kind : Bracket, kind.opens bracket.token = false)
    {stack : List OpenBracket} :
    o.Agrees (bracket :: stack) ↔ o.Agrees stack := by
  simp only [Agrees, openingsOf_cons_of_not_opens (h _)]

/- One of some kind is on the stack of that kind only. -/
theorem Openings.Agrees.cons
    {o : Openings}
    {stack : List OpenBracket}
    (h : o.Agrees stack)
    {kind : Bracket}
    {bracket : OpenBracket}
    (hOpens : kind.opens bracket.token = true) :
    (o.setKind (Opening.ofBracket bracket :: o.ofKind kind)
      kind).Agrees (bracket :: stack) := by
  intro other
  rw [ofKind_setKind]
  split
  · rename_i hKind
    rw [← hKind, openingsOf_cons_of_opens hOpens, h kind]
  · rename_i hKind
    rw [openingsOf_cons_of_not_opens
      (Bracket.opens_eq_false_of_ne hOpens hKind), h other]

theorem Openings.Agrees.tail
    {o : Openings}
    {stack : List OpenBracket}
    {kind : Bracket}
    {bracket : OpenBracket}
    (h : o.Agrees (bracket :: stack))
    (hOpens : kind.opens bracket.token = true) :
    (o.setKind (openingsOf kind stack) kind).Agrees stack := by
  intro other
  rw [ofKind_setKind]
  split
  · rename_i hKind
    rw [hKind]
  · rename_i hKind
    rw [h other, openingsOf_cons_of_not_opens
      (Bracket.opens_eq_false_of_ne hOpens hKind)]

/- A token that has no bracket of a kind that folds. -/
theorem scanFrom_of_other
    {t : Token}
    (hOpens : ∀ b : Bracket, b.opens t = false)
    (hCloses : ∀ b : Bracket, b.closes t = false)
    (line : Nat)
    (o : Openings)
    (rest : List Token) :
    scanFrom line o (t :: rest) =
      scanFrom (Token.lineAfter line t) o rest := by
  simp only [scanFrom, openedBy_eq_none_iff.mpr hOpens,
    closedBy_eq_none_iff.mpr hCloses, Token.lineAfter]
  split <;> rfl

theorem scanFrom_of_opens
    {kind : Bracket}
    {t : Token}
    (h : kind.opens t = true)
    (line : Nat)
    (o : Openings)
    (rest : List Token) :
    scanFrom line o (t :: rest) =
      scanFrom line
        (o.setKind (⟨t.stop, line⟩ :: o.ofKind kind) kind)
        rest := by
  simp only [scanFrom, Bracket.not_isLineBreak_of_opens h,
    openedBy_eq_some_iff.mpr h, Bool.false_eq_true, if_false]

theorem scanFrom_of_closes
    {kind : Bracket}
    {t : Token}
    (h : kind.closes t = true)
    (line : Nat)
    {o : Openings}
    {opening : Opening}
    {stack : List Opening}
    (hStack : o.ofKind kind = opening :: stack)
    (rest : List Token) :
    scanFrom line o (t :: rest) =
      between opening t line ++
        scanFrom line (o.setKind stack kind) rest := by
  have hOpened : openedBy t = none :=
    openedBy_eq_none_iff.mpr fun _ =>
      Bracket.opens_eq_false_of_closes h
  simp only [scanFrom, Bracket.not_isLineBreak_of_closes h,
    hOpened, closedBy_eq_some_iff.mpr h, hStack,
    Bool.false_eq_true, if_false]

/-
  The newest bracket and the token that closes it make a
  fold just if they are a pair to be folded.
-/
theorem between_eq
    {kind : Bracket}
    {bracket : OpenBracket}
    (hOpens : kind.opens bracket.token = true)
    (t : Token)
    (line : Nat) :
    between (Opening.ofBracket bracket) t line =
      ([(⟨bracket.token, t, bracket.line, line⟩ :
          LevelPair)].filter LevelPair.folds).map
        LevelPair.range := by
  have hKind : (openedBy bracket.token).isSome = true := by
    rw [openedBy_eq_some_iff.mpr hOpens]
    rfl
  unfold between Opening.ofBracket
  split
  · rename_i hLt
    simp [LevelPair.folds, LevelPair.range, hKind, hLt]
  · rename_i hNot
    simp [LevelPair.folds, hNot]

/- An indent leaves the stacks in agreement. -/
theorem exists_agrees_of_indent
    {t : Token}
    (hEffect : t.effect = Effect.indent)
    {line : Nat}
    (hLine : Token.lineAfter line t = line)
    {o : Openings}
    {stack : List OpenBracket}
    (hAgrees : o.Agrees stack)
    (rest : List Token) :
    ∃ o' : Openings, o'.Agrees (⟨t, line⟩ :: stack) ∧
      scanFrom line o (t :: rest) = scanFrom line o' rest := by
  let bracket : OpenBracket := ⟨t, line⟩
  cases hKind : openedBy t with
  | some kind =>
      have hOpens : kind.opens bracket.token = true :=
        openedBy_eq_some_iff.mp hKind
      exact ⟨_, hAgrees.cons hOpens,
        scanFrom_of_opens hOpens line o rest⟩
  | none =>
      have hOpens : ∀ kind : Bracket,
          kind.opens bracket.token = false :=
        openedBy_eq_none_iff.mp hKind
      have hCloses : ∀ kind : Bracket,
          kind.closes bracket.token = false :=
        Bracket.closes_eq_false (by rw [hEffect]; decide)
      refine ⟨o, (Openings.agrees_cons_iff hOpens).mpr hAgrees,
        ?_⟩
      rw [scanFrom_of_other hOpens hCloses, hLine]

/- So does the mate of the newest bracket. -/
theorem exists_agrees_of_mates
    {bracket : OpenBracket}
    {t : Token}
    (hMates : Token.Mates bracket.token t)
    {line : Nat}
    (hLine : Token.lineAfter line t = line)
    {o : Openings}
    {stack : List OpenBracket}
    (hAgrees : o.Agrees (bracket :: stack))
    (rest : List Token) :
    ∃ o' : Openings, o'.Agrees stack ∧
      scanFrom line o (t :: rest) =
        ([(⟨bracket.token, t, bracket.line, line⟩ :
            LevelPair)].filter LevelPair.folds).map
          LevelPair.range ++
        scanFrom line o' rest := by
  cases hKind : closedBy t with
  | some kind =>
      have hCloses := closedBy_eq_some_iff.mp hKind
      have hOpens : kind.opens bracket.token = true := by
        rw [hMates.opens_eq, hCloses]
      have hStack := hAgrees kind
      rw [openingsOf_cons_of_opens hOpens] at hStack
      refine ⟨_, hAgrees.tail hOpens, ?_⟩
      rw [scanFrom_of_closes hCloses line hStack,
        between_eq hOpens]
  | none =>
      have hCloses := closedBy_eq_none_iff.mp hKind
      have hOpens : ∀ kind : Bracket,
          kind.opens bracket.token = false := by
        intro kind
        rw [hMates.opens_eq, hCloses]
      have hNotOpened : ∀ kind : Bracket,
          kind.opens t = false :=
        Bracket.opens_eq_false
          (by rw [hMates.dedents]; decide)
      refine ⟨o, (Openings.agrees_cons_iff hOpens).mp hAgrees,
        ?_⟩
      rw [scanFrom_of_other hNotOpened hCloses, hLine]
      simp [LevelPair.folds, openedBy_eq_none_iff.mpr hOpens]

/-
  Where brackets are properly nested a scan for folds finds
  the ranges of the pairs of the one stack that fold, in the
  same order. No line break may be a bracket.
-/
theorem scanFrom_eq_of_nests
    {tokens : List Token}
    {stack : List OpenBracket}
    (h : Token.Nests (stack.map OpenBracket.token) tokens)
    (hBreaks : ∀ t ∈ tokens, t.isLineBreak = true →
      t.effect = Effect.none)
    (line : Nat)
    {o : Openings}
    (hAgrees : o.Agrees stack) :
    scanFrom line o tokens =
      ((LevelPair.scanFrom line stack tokens).filter
        LevelPair.folds).map LevelPair.range := by
  induction tokens generalizing stack line o with
  | nil => rfl
  | cons t rest ih =>
      have hRest : ∀ u ∈ rest, u.isLineBreak = true →
          u.effect = Effect.none :=
        fun u hu => hBreaks u (List.mem_cons_of_mem t hu)
      have hLine : t.effect ≠ Effect.none →
          Token.lineAfter line t = line := by
        intro hEffect
        apply if_neg
        exact fun hBreak =>
          hEffect (hBreaks t (List.mem_cons_self ..) hBreak)
      generalize hOpened :
        stack.map OpenBracket.token = opened at h
      cases h with
      | plain hEffect hNests =>
          subst hOpened
          rw [LevelPair.scanFrom_of_none hEffect,
            scanFrom_of_other
              (Bracket.opens_eq_false (by rw [hEffect]; decide))
              (Bracket.closes_eq_false
                (by rw [hEffect]; decide))]
          exact ih hNests hRest _ hAgrees
      | opens hEffect hNests =>
          subst hOpened
          have hSame := hLine (by rw [hEffect]; decide)
          have hNests' : Token.Nests
              (List.map OpenBracket.token (⟨t, line⟩ :: stack))
              rest := hNests
          rcases exists_agrees_of_indent hEffect hSame hAgrees
            rest with ⟨o', hAgrees', hScan⟩
          rw [LevelPair.scanFrom_of_indent hEffect, hSame,
            hScan]
          exact ih hNests' hRest line hAgrees'
      | closes hMates hNests =>
          cases stack with
          | nil => cases hOpened
          | cons bracket stack =>
              cases hOpened
              have hEffect := hMates.dedents
              have hSame := hLine (by rw [hEffect]; decide)
              rcases exists_agrees_of_mates hMates hSame
                hAgrees rest with ⟨o', hAgrees', hScan⟩
              rw [LevelPair.scanFrom_of_dedent hEffect, hSame,
                hScan, ih hNests hRest line hAgrees',
                ← List.map_append, ← List.filter_append,
                List.singleton_append]

/-
  The folds of properly nested tokens are the pairs of the
  one stack that fold.
-/
theorem ofTokens_perm_of_nested
    {tokens : List Token}
    (h : Token.Nested tokens)
    (hBreaks : ∀ t ∈ tokens, t.isLineBreak = true →
      t.effect = Effect.none) :
    (ofTokens tokens).Perm
      (((LevelPair.ofTokens tokens).filter
        LevelPair.folds).map LevelPair.range) := by
  have hNests : Token.Nests
      (List.map OpenBracket.token []) tokens := by
    rw [← List.append_nil tokens]
    exact h.nests Token.Nests.nil
  have hNone : Openings.Agrees ⟨[], []⟩ [] := by
    intro kind
    cases kind <;> rfl
  have hScan := scanFrom_eq_of_nests hNests hBreaks 0 hNone
  rw [LevelPair.ofTokens, ← hScan]
  exact List.mergeSort_perm _ _

end FoldRange

end Highlighter

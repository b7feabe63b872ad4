import Highlighter.Proofs.Regex.Paths

/-
  Choices of a search that lead nowhere. A search by
  backtracking goes through each choice once at a position;
  a choice that was met before lies on no way to an answer:
  it has failed, and it fails wherever it is met again,
  whatever groups were noted on the way.

  Key definitions include:
    * `Regex.Visits.Valid`
    * `Regex.Outcome.Realises`
    * `Regex.Continues`
    * `Regex.Tells`

  Main statements:
    * `Regex.realises_choose`: a choice is between two
      answers.
    * `Regex.exists_tells`: for every expression it can be
      told which of its choices fail.
-/

namespace Highlighter

namespace Regex

------------------------------------------------------------
-- Choices that fail
------------------------------------------------------------

/-
  Given which choices fail at which positions, choices met
  before fail if they are met again from a position on: each
  of them fails, or it is a choice at an earlier position,
  or one at this position with a smaller number.
-/
def Visits.Valid
    (F : Nat → Nat → Prop)
    (n pos : Nat)
    (v : Visits) : Prop :=
  ∀ m q, v.has m q = true →
    F m q ∨ q < pos ∨ (q = pos ∧ m < n)

/- Only choices that fail were met in addition. -/
def Visits.Grows
    (F : Nat → Nat → Prop)
    (v w : Visits) : Prop :=
  ∀ m q, w.has m q = true → v.has m q = true ∨ F m q

namespace Visits

variable {F : Nat → Nat → Prop}

theorem valid_empty (n pos : Nat) : Valid F n pos #[] := by
  intro m q hHas
  rw [has_empty] at hHas
  cases hHas

theorem Valid.mono
    {n n' pos : Nat}
    {v : Visits}
    (h : Valid F n pos v)
    (hLe : n ≤ n') : Valid F n' pos v := by
  intro m q hHas
  rcases h m q hHas with hFails | hBefore | ⟨hHere, hLess⟩
  · exact Or.inl hFails
  · exact Or.inr (Or.inl hBefore)
  · exact Or.inr (Or.inr ⟨hHere, by omega⟩)

/- Further on all that was met counts as before. -/
theorem Valid.further
    {n n' pos pos' : Nat}
    {v : Visits}
    (h : Valid F n pos v)
    (hLt : pos < pos') : Valid F n' pos' v := by
  intro m q hHas
  rcases h m q hHas with hFails | hBefore | ⟨hHere, -⟩
  · exact Or.inl hFails
  · exact Or.inr (Or.inl (by omega))
  · exact Or.inr (Or.inl (by omega))

theorem Valid.grows
    {n pos : Nat}
    {v w : Visits}
    (h : Valid F n pos v)
    (hGrows : Grows F v w) : Valid F n pos w := by
  intro m q hHas
  rcases hGrows m q hHas with hOld | hFails
  · exact h m q hOld
  · exact Or.inl hFails

/- A choice that is met here is before those after it. -/
theorem Valid.mark
    {n pos : Nat}
    {v : Visits}
    (h : Valid F n pos v) :
    Valid F (n + 1) pos (v.mark n pos) := by
  intro m q hHas
  rw [has_mark, Bool.or_eq_true, decide_eq_true_eq] at hHas
  rcases hHas with hOld | ⟨rfl, rfl⟩
  · exact h.mono (Nat.le_succ n) m q hOld
  · exact Or.inr (Or.inr ⟨rfl, Nat.lt_succ_self m⟩)

theorem grows_refl (v : Visits) : Grows F v v :=
  fun _ _ hHas => Or.inl hHas

theorem Grows.trans
    {u v w : Visits}
    (h : Grows F u v)
    (hThen : Grows F v w) : Grows F u w := by
  intro m q hHas
  rcases hThen m q hHas with hOld | hFails
  · exact h m q hOld
  · exact Or.inr hFails

/- To note a choice that fails adds one that does. -/
theorem grows_mark
    {n pos : Nat}
    (h : F n pos)
    (v : Visits) : Grows F v (v.mark n pos) := by
  intro m q hHas
  rw [has_mark, Bool.or_eq_true, decide_eq_true_eq] at hHas
  rcases hHas with hOld | ⟨rfl, rfl⟩
  · exact Or.inl hOld
  · exact Or.inr h

end Visits

------------------------------------------------------------
-- Outcomes and answers
------------------------------------------------------------

variable {α : Type}

/-
  An outcome realises an answer, or none: then only choices
  that fail were met.
-/
def Outcome.Realises
    (F : Nat → Nat → Prop)
    (v : Visits)
    (o : Outcome α) : Option α → Prop
  | some x => o = Outcome.found x
  | none => ∃ w, o = Outcome.failed w ∧ Visits.Grows F v w

theorem Outcome.realises_failed
    (F : Nat → Nat → Prop)
    (v : Visits) :
    (Outcome.failed v : Outcome α).Realises F v none :=
  ⟨v, rfl, Visits.grows_refl v⟩

/-
  A way to go on realises the answers of places on a text,
  wherever the choices from a number on were not met yet or
  fail.
-/
def Continues
    (t : Text)
    (F : Nat → Nat → Prop)
    (n : Nat)
    (K : Place → Option α)
    (k : Next α) : Prop :=
  ∀ p v, p.On t → v.Valid F n p.pos →
    (k p v).Realises F v (K p)

theorem Continues.mono
    {t : Text}
    {F : Nat → Nat → Prop}
    {n n' : Nat}
    {K : Place → Option α}
    {k : Next α}
    (h : Continues t F n' K k)
    (hLe : n ≤ n') : Continues t F n K k :=
  fun p v hp hv => h p v hp (hv.mono hLe)

/-
  The answers of places on a text: there is none at just the
  positions of a kind.
-/
def NoneAt
    (t : Text)
    (K : Place → Option α)
    (Z : Nat → Prop) : Prop :=
  ∀ p, p.On t → (K p = none ↔ Z p.pos)

/- There is none from where all paths lead to those. -/
theorem NoneAt.through
    {t : Text}
    {K : Place → Option α}
    {Z : Nat → Prop}
    (h : NoneAt t K Z)
    {step : Place → List Place}
    (hStep : AlikeStep t step) :
    NoneAt t (fun p => (step p).findSome? K)
      (Through t step Z) := by
  intro p hp
  rw [List.findSome?_eq_none_iff, through_iff hStep hp]
  constructor
  · intro hNone q hq
    exact (h q (hStep.on hp hq)).mp (hNone q hq)
  · intro hAll q hq
    exact (h q (hStep.on hp hq)).mpr (hAll q hq)

/-
  A choice is between two answers, the first one preferred,
  if it fails at the position just when there is neither.
-/
theorem realises_choose
    {F : Nat → Nat → Prop}
    {n pos : Nat}
    {x y : Option α}
    (hFails : F n pos ↔ x.or y = none)
    {first second : Visits → Outcome α}
    (hFirst : ∀ v : Visits, v.Valid F (n + 1) pos →
      (first v).Realises F v x)
    (hSecond : ∀ v : Visits, v.Valid F (n + 1) pos →
      (second v).Realises F v y)
    {v : Visits}
    (hValid : v.Valid F n pos) :
    (choose n pos first second v).Realises F v (x.or y) := by
  unfold choose
  split
  · -- it was met before, and so it fails
    rename_i hHas
    have hDead : F n pos := by
      rcases hValid n pos hHas with hDead | hLt | ⟨-, hLt⟩
      · exact hDead
      · exact absurd hLt (Nat.lt_irrefl pos)
      · exact absurd hLt (Nat.lt_irrefl n)
    rw [hFails.mp hDead]
    exact Outcome.realises_failed F v
  · have hMarked := hValid.mark
    have hOne := hFirst _ hMarked
    cases x with
    | some x =>
        rw [show first (v.mark n pos) = _ from hOne]
        rfl
    | none =>
        rcases hOne with ⟨w, hFailed, hGrows⟩
        rw [hFailed, Option.none_or]
        have hTwo := hSecond w (hMarked.grows hGrows)
        cases y with
        | some y => exact hTwo
        | none =>
            rcases hTwo with ⟨u, hFailed', hGrows'⟩
            have hDead : F n pos := hFails.mpr rfl
            exact ⟨u, hFailed',
              ((Visits.grows_mark hDead v).trans hGrows).trans
                hGrows'⟩

/- The same for the choice to go on with a loop. -/
theorem realises_goOn
    {F : Nat → Nat → Prop}
    {greedy : Bool}
    {n pos : Nat}
    {x y : Option α}
    (hFails : F n pos ↔ x = none ∧ y = none)
    {again stop : Visits → Outcome α}
    (hAgain : ∀ v : Visits, v.Valid F (n + 1) pos →
      (again v).Realises F v x)
    (hStop : ∀ v : Visits, v.Valid F (n + 1) pos →
      (stop v).Realises F v y)
    {v : Visits}
    (hValid : v.Valid F n pos) :
    (goOn greedy n pos again stop v).Realises F v
      (if greedy then x.or y else y.or x) := by
  unfold goOn
  cases greedy with
  | true =>
      apply realises_choose _ hAgain hStop hValid
      rw [hFails, Option.or_eq_none_iff]
  | false =>
      apply realises_choose _ hStop hAgain hValid
      rw [hFails, Option.or_eq_none_iff, and_comm]

------------------------------------------------------------
-- Which choices fail
------------------------------------------------------------

section

variable (t : Text)
variable (F : Nat → Nat → Prop)

/-
  It is told which choices of copies in a row fail, those of
  each copy where all paths through the others lead to
  positions of a kind.
-/
def TellsCopies
    (step : Place → List Place)
    (tells : Nat → (Nat → Prop) → Prop)
    (width : Nat) : Nat → Nat → (Nat → Prop) → Prop
  | 0, _, _ => True
  | count + 1, n, Z =>
      tells n (Through t (copies step count) Z) ∧
        TellsCopies step tells width count (n + width) Z

/- The same for copies that may be left out. -/
def TellsAtMost
    (step : Place → List Place)
    (tells : Nat → (Nat → Prop) → Prop)
    (width : Nat)
    (greedy : Bool) : Nat → Nat → (Nat → Prop) → Prop
  | 0, _, _ => True
  | count + 1, n, Z =>
      (∀ q, F n q ↔
        Through t (atMost step greedy (count + 1)) Z q) ∧
      tells (n + 1) (Through t (atMost step greedy count) Z) ∧
      TellsAtMost step tells width greedy count
        (n + 1 + width) Z

/-
  It is told which choices of an expression fail, numbered
  from a given number on: those from which all paths lead to
  positions of a kind.
-/
def Tells : Regex → Nat → (Nat → Prop) → Prop
  | empty, _, _ => True
  | set _, _, _ => True
  | assert _, _, _ => True
  | cat a b, n, Z =>
      Tells a n (Through t b.paths Z) ∧
        Tells b (n + a.choices) Z
  | alt a b, n, Z =>
      (∀ q, F n q ↔ Through t (alt a b).paths Z q) ∧
      Tells a (n + 1) Z ∧ Tells b (n + 1 + a.choices) Z
  | times low (some high) greedy body, n, Z =>
      TellsCopies t body.paths (Tells body) body.choices low n
        (Through t (atMost body.paths greedy (high - low)) Z) ∧
      TellsAtMost t F body.paths (Tells body) body.choices
        greedy (high - low) (n + low * body.choices) Z
  | times _ none greedy body, n, Z =>
      ∀ q, F n q ↔ Through t (star body.paths greedy) Z q
  | group _ body, n, Z => Tells body n Z

end

section

variable {t : Text}
variable {F F' : Nat → Nat → Prop}

theorem TellsCopies.congr
    {step : Place → List Place}
    {tells tells' : Nat → (Nat → Prop) → Prop}
    {width count n : Nat}
    {Z : Nat → Prop}
    (h : TellsCopies t step tells width count n Z)
    (hTells : ∀ m Z, n ≤ m →
      m + width ≤ n + count * width →
      tells m Z → tells' m Z) :
    TellsCopies t step tells' width count n Z := by
  induction count generalizing n with
  | zero => trivial
  | succ count ih =>
      rw [Nat.succ_mul] at hTells
      rcases h with ⟨hFirst, hRest⟩
      refine ⟨hTells n _ (Nat.le_refl n) (by omega) hFirst,
        ih hRest fun m Z hFrom hTo => ?_⟩
      exact hTells m Z (by omega) (by omega)

theorem tellsCopies_of_forall
    {step : Place → List Place}
    {tells : Nat → (Nat → Prop) → Prop}
    {width : Nat}
    {Z : Nat → Prop}
    (h : ∀ n Z, tells n Z)
    (count n : Nat) :
    TellsCopies t step tells width count n Z := by
  induction count generalizing n with
  | zero => trivial
  | succ count ih => exact ⟨h n _, ih (n + width)⟩

theorem TellsAtMost.congr
    {step : Place → List Place}
    {tells tells' : Nat → (Nat → Prop) → Prop}
    {width : Nat}
    {greedy : Bool}
    {count n : Nat}
    {Z : Nat → Prop}
    (h : TellsAtMost t F step tells width greedy count n Z)
    (hSame : ∀ m q, n ≤ m → m < n + count * (width + 1) →
      (F m q ↔ F' m q))
    (hTells : ∀ m Z, n ≤ m →
      m + width ≤ n + count * (width + 1) →
      tells m Z → tells' m Z) :
    TellsAtMost t F' step tells' width greedy count n Z := by
  induction count generalizing n with
  | zero => trivial
  | succ count ih =>
      rw [Nat.succ_mul] at hSame hTells
      rcases h with ⟨hChoice, hFirst, hRest⟩
      refine ⟨fun q => ?_, ?_, ?_⟩
      · rw [← hChoice]
        exact (hSame n q (Nat.le_refl n) (by omega)).symm
      · exact hTells _ _ (by omega) (by omega) hFirst
      · apply ih hRest
        · intro m q hFrom hTo
          exact hSame m q (by omega) (by omega)
        · intro m Z hFrom hTo
          exact hTells m Z (by omega) (by omega)

/- What is told depends on the choices of the expression. -/
theorem Tells.congr
    {a : Regex}
    {n : Nat}
    {Z : Nat → Prop}
    (h : Tells t F a n Z)
    (hSame : ∀ m q, n ≤ m → m < n + a.choices →
      (F m q ↔ F' m q)) :
    Tells t F' a n Z := by
  induction a generalizing n Z with
  | empty => trivial
  | set chars => trivial
  | assert condition => trivial
  | cat a b iha ihb =>
      rw [choices] at hSame
      rcases h with ⟨ha, hb⟩
      constructor
      · exact iha ha fun m q hFrom hTo =>
          hSame m q (by omega) (by omega)
      · exact ihb hb fun m q hFrom hTo =>
          hSame m q (by omega) (by omega)
  | alt a b iha ihb =>
      rw [choices] at hSame
      rcases h with ⟨hChoice, ha, hb⟩
      refine ⟨fun q => ?_, ?_, ?_⟩
      · rw [← hChoice]
        exact (hSame n q (Nat.le_refl n) (by omega)).symm
      · exact iha ha fun m q hFrom hTo =>
          hSame m q (by omega) (by omega)
      · exact ihb hb fun m q hFrom hTo =>
          hSame m q (by omega) (by omega)
  | times low high greedy body ih =>
      cases high with
      | none =>
          intro q
          rw [← h q]
          apply (hSame n q (Nat.le_refl n) _).symm
          simp only [choices]
          omega
      | some high =>
          simp only [choices] at hSame
          rcases h with ⟨hRow, hMore⟩
          constructor
          · apply hRow.congr
            intro m Z hFrom hTo hBody
            exact ih hBody fun m' q hFrom' hTo' =>
              hSame m' q (by omega) (by omega)
          · apply hMore.congr
            · intro m q hFrom hTo
              exact hSame m q (by omega) (by omega)
            · intro m Z hFrom hTo hBody
              exact ih hBody fun m' q hFrom' hTo' =>
                hSame m' q (by omega) (by omega)
  | group index body ih => exact ih h hSame

/- The choices of one up to a number, and then of another. -/
def upToChoice (k : Nat) (F F' : Nat → Nat → Prop) :
    Nat → Nat → Prop :=
  fun m q => if m < k then F m q else F' m q

theorem Tells.before
    {a : Regex}
    {n k : Nat}
    {Z : Nat → Prop}
    (h : Tells t F a n Z)
    (hLe : n + a.choices ≤ k) :
    Tells t (upToChoice k F F') a n Z := by
  apply h.congr
  intro m q hFrom hTo
  have hLt : m < k := by omega
  simp only [upToChoice, hLt, if_true]

theorem Tells.after
    {a : Regex}
    {n k : Nat}
    {Z : Nat → Prop}
    (h : Tells t F' a n Z)
    (hLe : k ≤ n) :
    Tells t (upToChoice k F F') a n Z := by
  apply h.congr
  intro m q hFrom hTo
  have hNot : ¬ m < k := by omega
  simp only [upToChoice, hNot, if_false]

end

section

variable (t : Text)

theorem exists_tellsCopies
    {body : Regex}
    (hBody : ∀ n Z, ∃ F, Tells t F body n Z)
    (count n : Nat)
    (Z : Nat → Prop) :
    ∃ F, TellsCopies t body.paths (Tells t F body)
      body.choices count n Z := by
  induction count generalizing n with
  | zero => exact ⟨fun _ _ => False, trivial⟩
  | succ count ih =>
      rcases hBody n (Through t (copies body.paths count) Z)
        with ⟨F, hFirst⟩
      rcases ih (n + body.choices) with ⟨F', hRest⟩
      refine ⟨upToChoice (n + body.choices) F F',
        hFirst.before (Nat.le_refl _), hRest.congr ?_⟩
      intro m Z hFrom hTo hTold
      exact hTold.after hFrom

theorem exists_tellsAtMost
    {body : Regex}
    (hBody : ∀ n Z, ∃ F, Tells t F body n Z)
    (greedy : Bool)
    (count n : Nat)
    (Z : Nat → Prop) :
    ∃ F, TellsAtMost t F body.paths (Tells t F body)
      body.choices greedy count n Z := by
  induction count generalizing n with
  | zero => exact ⟨fun _ _ => False, trivial⟩
  | succ count ih =>
      let here :=
        Through t (atMost body.paths greedy (count + 1)) Z
      rcases hBody (n + 1)
          (Through t (atMost body.paths greedy count) Z) with
        ⟨F, hFirst⟩
      rcases ih (n + 1 + body.choices) with ⟨F', hRest⟩
      let inside := upToChoice (n + 1 + body.choices) F F'
      refine ⟨upToChoice (n + 1) (fun _ => here) inside,
        fun q => ?_, ?_, ?_⟩
      · simp [upToChoice, here]
      · exact (hFirst.before (Nat.le_refl _)).after
          (Nat.le_refl _)
      · apply hRest.congr
        · intro m q hFrom hTo
          have hNot : ¬ m < n + 1 := by omega
          have hNot' : ¬ m < n + 1 + body.choices := by omega
          simp only [upToChoice, inside, hNot, hNot', if_false]
        · intro m Z hFrom hTo hTold
          exact (hTold.after hFrom).after (by omega)

/- There always is such a telling. -/
theorem exists_tells (a : Regex) (n : Nat) (Z : Nat → Prop) :
    ∃ F, Tells t F a n Z := by
  induction a generalizing n Z with
  | empty => exact ⟨fun _ _ => False, trivial⟩
  | set chars => exact ⟨fun _ _ => False, trivial⟩
  | assert condition => exact ⟨fun _ _ => False, trivial⟩
  | cat a b iha ihb =>
      rcases iha n (Through t b.paths Z) with ⟨F, ha⟩
      rcases ihb (n + a.choices) Z with ⟨F', hb⟩
      exact ⟨upToChoice (n + a.choices) F F',
        ha.before (Nat.le_refl _), hb.after (Nat.le_refl _)⟩
  | alt a b iha ihb =>
      let here := Through t (alt a b).paths Z
      rcases iha (n + 1) Z with ⟨F, ha⟩
      rcases ihb (n + 1 + a.choices) Z with ⟨F', hb⟩
      let inside := upToChoice (n + 1 + a.choices) F F'
      refine ⟨upToChoice (n + 1) (fun _ => here) inside,
        fun q => ?_, ?_, ?_⟩
      · -- the choice itself, then those of either side
        simp [upToChoice, here]
      · exact (ha.before (Nat.le_refl _)).after (Nat.le_refl _)
      · exact (hb.after (Nat.le_refl _)).after (by omega)
  | times low high greedy body ih =>
      cases high with
      | none =>
          exact ⟨fun _ => Through t (star body.paths greedy) Z,
            fun q => Iff.rfl⟩
      | some high =>
          rcases exists_tellsCopies t ih low n
              (Through t
                (atMost body.paths greedy (high - low)) Z) with
            ⟨F, hRow⟩
          rcases exists_tellsAtMost t ih greedy (high - low)
              (n + low * body.choices) Z with ⟨F', hMore⟩
          refine ⟨upToChoice (n + low * body.choices) F F',
            hRow.congr ?_, hMore.congr ?_ ?_⟩
          · intro m Z hFrom hTo hTold
            exact hTold.before hTo
          · intro m q hFrom hTo
            have hNot : ¬ m < n + low * body.choices := by
              omega
            simp only [upToChoice, hNot, if_false]
          · intro m Z hFrom hTo hTold
            exact hTold.after hFrom
  | group index body ih => exact ih n Z

end

end Regex

end Highlighter

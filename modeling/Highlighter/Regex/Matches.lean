import Highlighter.Regex.Match

/-
  Which places an expression matches up to, told without
  order of priority and without a search. The search by
  backtracking finds only such matches.

  Key definitions include:
    * `Regex.Rounds`
    * `Regex.Matches`
    * `Regex.FindsOnly`

  Main statements:
    * `Regex.run_finds`: a run goes on only from places that
      its expression matches up to.
    * `Regex.Matches.of_steps`: what holds of every single
      step holds of every match.
    * `Regex.find_matches`: what a search finds is a match.
-/

namespace Highlighter

namespace Regex

------------------------------------------------------------
-- Matches
------------------------------------------------------------

/- A relation between places gone through several times. -/
def Rounds (R : Place → Place → Prop) :
    Nat → Place → Place → Prop
  | 0, p, q => q = p
  | count + 1, p, r => ∃ q, R p q ∧ Rounds R count q r

/-
  The expression matches from one place up to another. A
  repetition goes through its body a permitted number of
  times.
-/
def Matches : Regex → Place → Place → Prop
  | empty, p, q => q = p
  | set chars, p, q => p.read chars = some q
  | assert condition, p, q =>
      p.allows condition = true ∧ q = p
  | cat a b, p, r => ∃ q, a.Matches p q ∧ b.Matches q r
  | alt a b, p, q => a.Matches p q ∨ b.Matches p q
  | times low high _ body, p, q =>
      ∃ count, low ≤ count ∧
        (∀ most, high = some most → count ≤ max low most) ∧
        Rounds body.Matches count p q
  | group index body, p, r =>
      ∃ q, body.Matches p q ∧ r = q.close index p.pos

/- Some rounds and then others are all of them together. -/
theorem Rounds.append
    {R : Place → Place → Prop}
    {m n : Nat}
    {p q r : Place}
    (hFirst : Rounds R m p q)
    (hThen : Rounds R n q r) : Rounds R (m + n) p r := by
  induction m generalizing p with
  | zero =>
      cases hFirst
      simpa using hThen
  | succ m ih =>
      rcases hFirst with ⟨s, hStep, hRest⟩
      rw [Nat.add_right_comm]
      exact ⟨s, hStep, ih hRest⟩

/-
  A relation that stays, chains, and holds of reading one
  character and of closing a group holds of every match.
-/
theorem Matches.of_steps
    {R : Place → Place → Prop}
    (hStay : ∀ p, R p p)
    (hTrans : ∀ p q r, R p q → R q r → R p r)
    (hRead : ∀ chars p q, p.read chars = some q → R p q)
    (hClose : ∀ index p q, R p q → R p (q.close index p.pos))
    {a : Regex}
    {p q : Place}
    (h : a.Matches p q) : R p q := by
  induction a generalizing p q with
  | empty =>
      cases h
      exact hStay p
  | set chars => exact hRead chars p q h
  | assert condition =>
      cases h.2
      exact hStay p
  | cat a b iha ihb =>
      rcases h with ⟨r, ha, hb⟩
      exact hTrans p r q (iha ha) (ihb hb)
  | alt a b iha ihb =>
      rcases h with ha | hb
      · exact iha ha
      · exact ihb hb
  | times low high greedy body ih =>
      rcases h with ⟨count, -, -, hRounds⟩
      induction count generalizing p with
      | zero =>
          cases hRounds
          exact hStay q
      | succ count ihCount =>
          rcases hRounds with ⟨r, hStep, hRest⟩
          exact hTrans p r q (ih hStep) (ihCount hRest)
  | group index body ih =>
      rcases h with ⟨r, hBody, rfl⟩
      exact hClose index p r (ih hBody)

------------------------------------------------------------
-- Choices
------------------------------------------------------------

variable {α : Type}

/-
  A way to match that goes on only from places that a
  relation leads to.
-/
def FindsOnly
    (R : Place → Place → Prop)
    (body : Place → Visits → Next α → Outcome α) : Prop :=
  ∀ p v k x, body p v k = Outcome.found x →
    ∃ q w, R p q ∧ k q w = Outcome.found x

/- A choice finds what one of its two ways finds. -/
theorem found_of_choose
    {n pos : Nat}
    {first second : Visits → Outcome α}
    {v : Visits}
    {x : α}
    (h : choose n pos first second v = Outcome.found x) :
    ∃ w, first w = Outcome.found x ∨
      second w = Outcome.found x := by
  unfold choose at h
  split at h
  · cases h
  · split at h
    · rename_i y hfirst
      cases h
      exact ⟨_, Or.inl hfirst⟩
    · exact ⟨_, Or.inr h⟩

/- So does the choice to go on with a loop. -/
theorem found_of_goOn
    {greedy : Bool}
    {n pos : Nat}
    {again stop : Visits → Outcome α}
    {v : Visits}
    {x : α}
    (h : goOn greedy n pos again stop v = Outcome.found x) :
    ∃ w, again w = Outcome.found x ∨
      stop w = Outcome.found x := by
  unfold goOn at h
  split at h
  · exact found_of_choose h
  · rcases found_of_choose h with ⟨w, hw⟩
    exact ⟨w, hw.symm⟩

/- To go on at once finds only the place itself. -/
theorem findsOnly_stay :
    FindsOnly (fun p q => q = p)
      fun p v (k : Next α) => k p v := by
  intro p v k x h
  exact ⟨p, v, rfl, h⟩

/- One way after another finds what the two lead to. -/
theorem FindsOnly.trans
    {R S : Place → Place → Prop}
    {a b : Place → Visits → Next α → Outcome α}
    (ha : FindsOnly R a)
    (hb : FindsOnly S b) :
    FindsOnly (fun p r => ∃ q, R p q ∧ S q r)
      fun p v k => a p v fun q w => b q w k := by
  intro p v k x h
  rcases ha _ _ _ _ h with ⟨q, w, hq, hk⟩
  rcases hb _ _ _ _ hk with ⟨r, u, hr, hk⟩
  exact ⟨r, u, ⟨q, hq, hr⟩, hk⟩

/- A weaker relation may take the place of another. -/
theorem FindsOnly.mono
    {R S : Place → Place → Prop}
    {body : Place → Visits → Next α → Outcome α}
    (h : FindsOnly R body)
    (hRS : ∀ p q, R p q → S p q) : FindsOnly S body := by
  intro p v k x hx
  rcases h p v k x hx with ⟨q, w, hq, hk⟩
  exact ⟨q, w, hRS p q hq, hk⟩

/-
  Going on or stopping finds the place itself or what going
  on leads to.
-/
theorem FindsOnly.goOn
    {R : Place → Place → Prop}
    {again : Place → Visits → Next α → Outcome α}
    (h : FindsOnly R again)
    (greedy : Bool)
    (n : Nat) :
    FindsOnly (fun p q => q = p ∨ R p q) fun p v k =>
      goOn greedy n p.pos (fun v => again p v k) (k p) v := by
  intro p v k x hx
  rcases found_of_goOn hx with ⟨w, hAgain | hStop⟩
  · rcases h _ _ _ _ hAgain with ⟨q, u, hq, hk⟩
    exact ⟨q, u, Or.inr hq, hk⟩
  · exact ⟨p, w, Or.inl rfl, hStop⟩

------------------------------------------------------------
-- Repetitions
------------------------------------------------------------

/- Copies in a row go through the body that many times. -/
theorem inRow_finds
    {R : Place → Place → Prop}
    {body : Runner α}
    (hBody : ∀ n, FindsOnly R (body n))
    (width count n : Nat) :
    FindsOnly (Rounds R count)
      (inRow body width count n) := by
  induction count generalizing n with
  | zero => exact findsOnly_stay
  | succ count ih => exact (hBody n).trans (ih (n + width))

/- Copies that may be left out do so at most that often. -/
theorem upTo_finds
    {R : Place → Place → Prop}
    {body : Runner α}
    (hBody : ∀ n, FindsOnly R (body n))
    (width : Nat)
    (greedy : Bool)
    (count n : Nat) :
    FindsOnly (fun p q => ∃ i, i ≤ count ∧ Rounds R i p q)
      (upTo body width greedy count n) := by
  induction count generalizing n with
  | zero =>
      exact findsOnly_stay.mono
        fun p q hq => ⟨0, Nat.le_refl 0, hq⟩
  | succ count ih =>
      apply FindsOnly.mono
        (((hBody (n + 1)).trans (ih _)).goOn greedy n)
      rintro p q (hStay | ⟨r, hr, i, hi, hRest⟩)
      · exact ⟨0, Nat.zero_le _, hStay⟩
      · exact ⟨i + 1, Nat.succ_le_succ hi, r, hr, hRest⟩

/- The rounds of a loop go through its body repeatedly. -/
theorem rounds_finds
    {R : Place → Place → Prop}
    {body : Runner α}
    (hBody : ∀ n, FindsOnly R (body n))
    (n : Nat)
    (greedy : Bool)
    (ahead : Text) :
    FindsOnly (fun p q => ∃ i, Rounds R i p q)
      (rounds body n greedy ahead) := by
  induction ahead with
  | nil =>
      intro p v k x h
      rcases found_of_choose h with ⟨w, hStop | hFail⟩
      · exact ⟨p, w, ⟨0, rfl⟩, hStop⟩
      · cases hFail
  | cons c ahead ih =>
      apply FindsOnly.mono
        (((hBody (n + 1)).trans ih).goOn greedy n)
      rintro p q (hStay | ⟨r, hr, i, hRest⟩)
      · exact ⟨0, hStay⟩
      · exact ⟨i + 1, r, hr, hRest⟩

/- One round and further ones are at least one. -/
theorem oneOrMore_finds
    {R : Place → Place → Prop}
    {body : Runner α}
    (hBody : ∀ n, FindsOnly R (body n))
    (greedy : Bool)
    (n : Nat) :
    FindsOnly (fun p q => ∃ i, Rounds R (i + 1) p q)
      (oneOrMore body greedy n) := by
  intro p v k x h
  rcases hBody (n + 1) _ _ _ _ h with ⟨q, w, hq, hk⟩
  rcases rounds_finds hBody n greedy q.rest _ _ _ _ hk with
    ⟨r, u, ⟨i, hRest⟩, hk⟩
  exact ⟨r, u, ⟨i, q, hq, hRest⟩, hk⟩

/- A repetition goes through its body as often as it may. -/
theorem times_finds
    {body : Regex}
    (hBody : ∀ n,
      FindsOnly (α := α) body.Matches (body.run n))
    (low : Nat)
    (high : Option Nat)
    (greedy : Bool)
    (n : Nat) :
    FindsOnly (α := α) (times low high greedy body).Matches
      ((times low high greedy body).run n) := by
  cases high with
  | some high =>
      apply FindsOnly.mono
        ((inRow_finds hBody body.choices low n).trans
          (upTo_finds hBody body.choices greedy (high - low)
            (n + low * body.choices)))
      rintro p r ⟨q, hRow, i, hi, hRest⟩
      refine ⟨low + i, Nat.le_add_right low i, ?_,
        hRow.append hRest⟩
      rintro most ⟨⟩
      omega
  | none =>
      have hNoBound : ∀ count most,
          (none : Option Nat) = some most →
            count ≤ max low most := by
        intro count most hMost
        cases hMost
      cases low with
      | zero =>
          intro p v k x h
          simp only [run] at h
          split at h
          · rcases
                (oneOrMore_finds hBody greedy (n + 1)).goOn
                  greedy n _ _ _ _ h with
              ⟨q, w, hStay | ⟨i, hRounds⟩, hk⟩
            · exact ⟨q, w,
                ⟨0, Nat.zero_le _, hNoBound 0, hStay⟩, hk⟩
            · exact ⟨q, w, ⟨i + 1, Nat.zero_le _,
                hNoBound (i + 1), hRounds⟩, hk⟩
          · rcases rounds_finds hBody n greedy _ _ _ _ _ h
              with ⟨q, w, ⟨i, hRounds⟩, hk⟩
            exact ⟨q, w,
              ⟨i, Nat.zero_le _, hNoBound i, hRounds⟩, hk⟩
      | succ low =>
          apply FindsOnly.mono
            ((inRow_finds hBody body.choices low n).trans
              (oneOrMore_finds hBody greedy
                (n + low * body.choices)))
          rintro p r ⟨q, hRow, i, hRest⟩
          exact ⟨low + (i + 1), by omega, hNoBound _,
            hRow.append hRest⟩

------------------------------------------------------------
-- Runs and searches
------------------------------------------------------------

/-
  A run goes on only from places that the expression
  matches up to.
-/
theorem run_finds (a : Regex) (n : Nat) :
    FindsOnly (α := α) a.Matches (a.run n) := by
  induction a generalizing n with
  | empty => exact findsOnly_stay
  | set chars =>
      intro p v k x h
      simp only [run] at h
      split at h
      · cases h
      · rename_i q hq
        exact ⟨q, v, hq, h⟩
  | assert condition =>
      intro p v k x h
      simp only [run] at h
      split at h
      · rename_i hAllows
        exact ⟨p, v, ⟨hAllows, rfl⟩, h⟩
      · cases h
  | cat a b iha ihb => exact (iha n).trans (ihb _)
  | alt a b iha ihb =>
      intro p v k x h
      simp only [run] at h
      rcases found_of_choose h with ⟨w, ha | hb⟩
      · rcases iha _ _ _ _ _ ha with ⟨q, u, hq, hk⟩
        exact ⟨q, u, Or.inl hq, hk⟩
      · rcases ihb _ _ _ _ _ hb with ⟨q, u, hq, hk⟩
        exact ⟨q, u, Or.inr hq, hk⟩
  | times low high greedy body ih =>
      exact times_finds ih low high greedy n
  | group index body ih =>
      intro p v k x h
      rcases ih n _ _ _ _ h with ⟨q, w, hq, hk⟩
      exact ⟨q.close index p.pos, w, ⟨q, hq, rfl⟩, hk⟩

/- A match found at a place is one of the expression. -/
theorem matchAt_matches
    {a : Regex}
    {before : Option Char}
    {pos : Nat}
    {rest : Text}
    {v : Visits}
    {m : Match}
    (h : a.matchAt before pos rest v = Outcome.found m) :
    m.start = pos ∧
      a.Matches ⟨before, rest, pos, []⟩ m.place := by
  rcases run_finds a 0 _ _ _ _ h with ⟨q, w, hq, hm⟩
  cases hm
  exact ⟨rfl, hq⟩

/-
  The leftmost match is one of the expression, from a place
  further on in the text.
-/
theorem findFrom_matches
    {a : Regex}
    {before : Option Char}
    {pos : Nat}
    {rest : Text}
    {v : Visits}
    {m : Match}
    (h : a.findFrom before pos rest v = Outcome.found m) :
    ∃ skipped after, rest = skipped ++ after ∧
      m.start = pos + skipped.length ∧
      a.Matches
        ⟨skipped.getLast?.or before, after, m.start, []⟩
        m.place := by
  induction rest generalizing before pos v with
  | nil =>
      rcases matchAt_matches h with ⟨hStart, hMatch⟩
      rw [← hStart] at hMatch
      exact ⟨[], [], rfl, hStart, hMatch⟩
  | cons c rest ih =>
      simp only [findFrom] at h
      split at h
      · rename_i m' hFound
        cases h
        rcases matchAt_matches hFound with ⟨hStart, hMatch⟩
        rw [← hStart] at hMatch
        exact ⟨[], c :: rest, rfl, hStart, hMatch⟩
      · rcases ih h with
          ⟨skipped, after, hRest, hStart, hMatch⟩
        refine ⟨c :: skipped, after, ?_, ?_, ?_⟩
        · rw [hRest, List.cons_append]
        · rw [hStart, List.length_cons]
          omega
        · cases hLast : skipped.getLast? <;>
            simpa [List.getLast?_cons, hLast] using hMatch

/- An outcome with an answer found it. -/
theorem Outcome.found_of_answer?
    {o : Outcome α}
    {x : α}
    (h : o.answer? = some x) : o = Outcome.found x := by
  cases o with
  | found y =>
      cases h
      rfl
  | failed v => cases h

/-
  What a search finds is a match of the expression from a
  place in the text.
-/
theorem find_matches
    {a : Regex}
    {t : Text}
    {m : Match}
    (h : a.find t = some m) :
    ∃ skipped after, t = skipped ++ after ∧
      m.start = skipped.length ∧
      a.Matches ⟨skipped.getLast?, after, m.start, []⟩
        m.place := by
  unfold find at h
  split at h
  · rcases matchAt_matches (Outcome.found_of_answer? h) with
      ⟨hStart, hMatch⟩
    rw [← hStart] at hMatch
    exact ⟨[], t, rfl, hStart, hMatch⟩
  · rcases findFrom_matches (Outcome.found_of_answer? h) with
      ⟨skipped, after, hText, hStart, hMatch⟩
    refine ⟨skipped, after, hText, ?_, ?_⟩
    · simpa using hStart
    · simpa using hMatch

end Regex

end Highlighter

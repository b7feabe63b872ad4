import Highlighter.Rule

/-
  Which characters a match may begin with. A rule cannot
  fire on a line that begins with any other character.

  Key definitions include:
    * `Regex.readsFirst`
    * `Pattern.readsFirst`

  Main statements:
    * `Regex.Matches.readsFirst`: a match that reads
      something first reads such a character.
    * `Rule.apply_eq_none`
-/

namespace Highlighter

namespace Regex

/-
  May a match of the expression read a character first? This
  may answer yes when the truth is no.
-/
def readsFirst (c : Char) : Regex → Bool
  | empty => false
  | set chars => chars.contains c
  | assert _ => false
  | cat a b =>
      a.readsFirst c || (a.nullable && b.readsFirst c)
  | alt a b => a.readsFirst c || b.readsFirst c
  | times _ _ _ body => body.readsFirst c
  | group _ body => body.readsFirst c

/- To read a character takes a step. -/
theorem Place.pos_of_read
    {chars : CharSet}
    {p q : Place}
    (h : p.read chars = some q) : q.pos = p.pos + 1 := by
  rcases reads_of_read h with ⟨c, -, hReads⟩
  exact hReads.2

/- A match goes forward or stays. -/
theorem Matches.pos_le
    {a : Regex}
    {p q : Place}
    (h : a.Matches p q) : p.pos ≤ q.pos := by
  rcases h.reads with ⟨t, hReads⟩
  rw [hReads.2]
  exact Nat.le_add_right _ _

/- Where it stays the same text is ahead. -/
theorem Matches.rest_eq
    {a : Regex}
    {p q : Place}
    (h : a.Matches p q)
    (hPos : q.pos = p.pos) : q.rest = p.rest := by
  rcases h.reads with ⟨t, hReads⟩
  have hNil : t = [] := by
    apply List.length_eq_zero_iff.mp
    have hEq := hReads.2
    omega
  rw [hReads.1, hNil, List.nil_append]

/-
  Among rounds that come further there is a first one that
  does, and the rounds before it stay.
-/
theorem Rounds.first_advance
    {a : Regex}
    {count : Nat}
    {p q : Place}
    (h : Rounds a.Matches count p q)
    (hPos : p.pos < q.pos) :
    ∃ r s, r.rest = p.rest ∧ a.Matches r s ∧
      r.pos < s.pos := by
  induction count generalizing p with
  | zero =>
      cases h
      exact absurd hPos (Nat.lt_irrefl _)
  | succ count ih =>
      rcases h with ⟨s, hStep, hRest⟩
      by_cases hAdvance : p.pos < s.pos
      · exact ⟨p, s, rfl, hStep, hAdvance⟩
      · have hLe := hStep.pos_le
        have hStay : s.pos = p.pos := by omega
        rcases ih hRest (by omega) with ⟨r, t, hr, hMatch⟩
        exact ⟨r, t, hr.trans (hStep.rest_eq hStay), hMatch⟩

/- Rounds go forward or stay. -/
theorem Rounds.pos_le
    {a : Regex}
    {count : Nat}
    {p q : Place}
    (h : Rounds a.Matches count p q) : p.pos ≤ q.pos := by
  induction count generalizing p with
  | zero =>
      cases h
      exact Nat.le_refl _
  | succ count ih =>
      rcases h with ⟨s, hStep, hRest⟩
      exact Nat.le_trans hStep.pos_le (ih hRest)

/- A match that stays is one of an expression that can. -/
theorem Matches.nullable
    {a : Regex}
    {p q : Place}
    (h : a.Matches p q)
    (hPos : q.pos = p.pos) : a.nullable = true := by
  induction a generalizing p q with
  | empty => rfl
  | set chars =>
      have hStep := Place.pos_of_read h
      omega
  | assert condition => rfl
  | cat a b iha ihb =>
      rcases h with ⟨r, ha, hb⟩
      have hFirst := ha.pos_le
      have hThen := hb.pos_le
      rw [Regex.nullable, iha ha (by omega),
        ihb hb (by omega)]
      rfl
  | alt a b iha ihb =>
      rw [Regex.nullable, Bool.or_eq_true]
      rcases h with ha | hb
      · exact Or.inl (iha ha hPos)
      · exact Or.inr (ihb hb hPos)
  | times low high greedy body ih =>
      rcases h with ⟨count, hLow, -, hRounds⟩
      rw [Regex.nullable, Bool.or_eq_true, beq_iff_eq]
      cases count with
      | zero => exact Or.inl (Nat.le_zero.mp hLow)
      | succ count =>
          rcases hRounds with ⟨r, hStep, hRest⟩
          have hFirst := hStep.pos_le
          have hThen := Rounds.pos_le hRest
          exact Or.inr (ih hStep (by omega))
  | group index body ih =>
      rcases h with ⟨r, hBody, rfl⟩
      apply ih hBody
      cases index <;> exact hPos

/- A match that reads something first reads a character. -/
theorem Matches.readsFirst
    {a : Regex}
    {p q : Place}
    (h : a.Matches p q)
    (hPos : p.pos < q.pos)
    {c : Char}
    {rest : Text}
    (hRest : p.rest = c :: rest) :
    a.readsFirst c = true := by
  induction a generalizing p q with
  | empty =>
      cases h
      exact absurd hPos (Nat.lt_irrefl _)
  | set chars =>
      rcases Place.reads_of_read h with ⟨d, hd, hReads⟩
      have hHead := hReads.1
      rw [hRest, List.singleton_append] at hHead
      cases hHead
      exact hd
  | assert condition =>
      cases h.2
      exact absurd hPos (Nat.lt_irrefl _)
  | cat a b iha ihb =>
      rcases h with ⟨r, ha, hb⟩
      rw [Regex.readsFirst, Bool.or_eq_true,
        Bool.and_eq_true]
      by_cases hAdvance : p.pos < r.pos
      · exact Or.inl (iha ha hAdvance hRest)
      · have hLe := ha.pos_le
        have hStay : r.pos = p.pos := by omega
        right
        refine ⟨ha.nullable hStay, ihb hb (by omega) ?_⟩
        rw [ha.rest_eq hStay, hRest]
  | alt a b iha ihb =>
      rw [Regex.readsFirst, Bool.or_eq_true]
      rcases h with ha | hb
      · exact Or.inl (iha ha hPos hRest)
      · exact Or.inr (ihb hb hPos hRest)
  | times low high greedy body ih =>
      rcases h with ⟨count, -, -, hRounds⟩
      rcases Rounds.first_advance hRounds hPos with
        ⟨r, s, hr, hStep, hAdvance⟩
      exact ih hStep hAdvance (hr.trans hRest)
  | group index body ih =>
      rcases h with ⟨r, hBody, rfl⟩
      apply ih hBody _ hRest
      cases index <;> exact hPos

/-
  A match at the start of a text: an expression that asks
  for the start is not found anywhere else.
-/
theorem find_first
    {a : Regex}
    (hStart : a.opensWith Assertion.textStart = true)
    {t : Text}
    {m : Match}
    (h : a.find t = some m) :
    a.Matches ⟨none, t, 0, []⟩ m.place := by
  rw [find, if_pos hStart] at h
  exact (matchAt_matches (Outcome.found_of_answer? h)).2

end Regex

namespace Pattern

/-
  May a match of the pattern at the start of a line read a
  character first?
-/
def readsFirst (c : Char) : Pattern → Bool
  | regex a =>
      !a.opensWith Assertion.textStart || a.readsFirst c
  | upTo _ => true

/- Where it may not, it matches nothing. -/
theorem find_stop_eq_zero
    {a : Regex}
    {c : Char}
    (hNot : (regex a).readsFirst c = false)
    {rest : Text}
    {m : Regex.Match}
    (h : a.find (c :: rest) = some m) : m.stop = 0 := by
  simp only [readsFirst, Bool.or_eq_false_iff,
    Bool.not_eq_false'] at hNot
  have hMatch := Regex.find_first hNot.1 h
  rcases Nat.eq_zero_or_pos m.stop with hZero | hPos
  · exact hZero
  · have hFirst := hMatch.readsFirst hPos rfl
    rw [hNot.2] at hFirst
    cases hFirst

end Pattern

/- A rule does not fire where its pattern reads nothing. -/
theorem Rule.apply_eq_none
    {r : Rule Pattern}
    {c : Char}
    (hNot : r.pattern.readsFirst c = false)
    (rest : Text) : r.apply (c :: rest) = none := by
  cases hApply : r.apply (c :: rest) with
  | none => rfl
  | some hit =>
      exfalso
      rcases r with ⟨pattern, labelling, next, indents, dedents⟩
      cases pattern with
      | upTo literal => cases hNot
      | regex a =>
          have hZero : ∀ m, a.find (c :: rest) = some m →
              m.stop = 0 :=
            fun m hm => Pattern.find_stop_eq_zero hNot hm
          unfold apply at hApply
          split at hApply
          · rename_i hPattern hLabelling
            cases hPattern
            split at hApply
            · cases hApply
            · rename_i m hm
              rw [if_pos (hZero m hm)] at hApply
              cases hApply
          · simp only [Pattern.matchLength] at hApply
            cases hm : a.find (c :: rest) with
            | none => simp [hm] at hApply
            | some m => simp [hm, hZero m hm] at hApply

end Highlighter

import Highlighter.Regex.Reads

/-
  The groups of a match lie inside of it, whatever the
  expression and wherever in the text it matched.

  Main statements:
    * `Regex.Matches.groupsWithin`
    * `Regex.find_start_le_stop`
    * `Regex.find_group_within`
-/

namespace Highlighter

namespace Regex

------------------------------------------------------------
-- Groups noted on the way
------------------------------------------------------------

namespace Place

/-
  Every group noted at a place begins at a position or after
  it and ends at the place or before it.
-/
def GroupsWithin (low : Nat) (p : Place) : Prop :=
  ∀ s ∈ p.groups,
    low ≤ s.start ∧ s.start ≤ s.stop ∧ s.stop ≤ p.pos

/-
  To close a group that was opened on the way keeps all
  groups within.
-/
theorem GroupsWithin.close
    {low start : Nat}
    {p : Place}
    (h : p.GroupsWithin low)
    (hLow : low ≤ start)
    (hStart : start ≤ p.pos)
    (index : Option Nat) :
    (p.close index start).GroupsWithin low := by
  cases index with
  | none => exact h
  | some i =>
      intro s hs
      rcases List.mem_cons.mp hs with rfl | hOld
      · exact ⟨hLow, hStart, Nat.le_refl _⟩
      · exact h s hOld

end Place

/- A match goes forward and keeps its groups within. -/
theorem Matches.groupsWithin
    {a : Regex}
    {p q : Place}
    (h : a.Matches p q) :
    p.pos ≤ q.pos ∧
      ∀ low, low ≤ p.pos →
        p.GroupsWithin low → q.GroupsWithin low := by
  let R : Place → Place → Prop := fun p q =>
    p.pos ≤ q.pos ∧
      ∀ low, low ≤ p.pos →
        p.GroupsWithin low → q.GroupsWithin low
  refine Matches.of_steps (R := R) ?_ ?_ ?_ ?_ h
  · intro p
    exact ⟨Nat.le_refl _, fun low _ hp => hp⟩
  · rintro p q r ⟨hpq, hGroups⟩ ⟨hqr, hGroups'⟩
    refine ⟨Nat.le_trans hpq hqr, fun low hLow hp => ?_⟩
    exact hGroups' low (Nat.le_trans hLow hpq)
      (hGroups low hLow hp)
  · intro chars p q hRead
    unfold Place.read at hRead
    split at hRead
    · cases hRead
    · split at hRead
      · cases hRead
        refine ⟨Nat.le_succ _, fun low _ hp s hs => ?_⟩
        have hs := hp s hs
        exact ⟨hs.1, hs.2.1, Nat.le_succ_of_le hs.2.2⟩
      · cases hRead
  · rintro index p q ⟨hpq, hGroups⟩
    constructor
    · cases index <;> exact hpq
    · intro low hLow hp
      exact (hGroups low hLow hp).close hLow hpq index

------------------------------------------------------------
-- Groups of a search
------------------------------------------------------------

/- The groups of what a search finds lie inside of it. -/
theorem find_groupsWithin
    {a : Regex}
    {t : Text}
    {m : Match}
    (h : a.find t = some m) :
    m.start ≤ m.stop ∧ m.place.GroupsWithin m.start := by
  rcases find_matches h with ⟨skipped, after, -, -, hMatch⟩
  rcases hMatch.groupsWithin with ⟨hPos, hGroups⟩
  refine ⟨hPos, hGroups m.start (Nat.le_refl _) ?_⟩
  intro s hs
  cases hs

/- A match does not end before it starts. -/
theorem find_start_le_stop
    {a : Regex}
    {t : Text}
    {m : Match}
    (h : a.find t = some m) : m.start ≤ m.stop :=
  (find_groupsWithin h).1

/- Each group of a match is a part of the match. -/
theorem find_group_within
    {a : Regex}
    {t : Text}
    {m : Match}
    (h : a.find t = some m)
    {index start stop : Nat}
    (hGroup : m.group? index = some (start, stop)) :
    m.start ≤ start ∧ start ≤ stop ∧ stop ≤ m.stop := by
  unfold Match.group? at hGroup
  split at hGroup
  · cases hGroup
    exact ⟨Nat.le_refl _, find_start_le_stop h,
      Nat.le_refl _⟩
  · rcases Option.map_eq_some_iff.mp hGroup with
      ⟨s, hFind, hEq⟩
    cases hEq
    exact (find_groupsWithin h).2 s
      (List.mem_of_find?_eq_some hFind)

end Regex

end Highlighter

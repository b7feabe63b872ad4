import Highlighter.Text

/-
  Byte offsets that stand between the characters of a text.

  Key definitions include:
    * `Text.IsBoundary`

  Main statements:
    * `Text.suffixAt_eq_some_iff`
    * `Text.suffixAt_eq_none_iff`
-/

namespace Highlighter

namespace Text

/-
  An offset is a boundary when the text falls into two parts
  there, the first of which has that many bytes.
-/
def IsBoundary (t : Text) (n : Nat) : Prop :=
  ∃ a b, t = a ++ b ∧ a.size = n

/- Only the empty text has size zero. -/
theorem eq_nil_of_size_eq_zero
    {t : Text}
    (h : t.size = 0) : t = [] := by
  by_cases hNil : t = []
  · exact hNil
  · have hPos := size_pos hNil
    omega

/- A text has at least as many bytes as characters. -/
theorem length_le_size (t : Text) : t.length ≤ t.size := by
  induction t with
  | nil => exact Nat.le_refl 0
  | cons c t ih =>
      have hPos := Char.utf8Size_pos c
      rw [List.length_cons, size_cons]
      omega

theorem suffixAt_zero (t : Text) :
    t.suffixAt 0 = some t := by
  cases t <;> rfl

theorem suffixAt_cons
    (c : Char)
    (t : Text)
    {n : Nat}
    (hn : 0 < n) :
    suffixAt (c :: t) n =
      if c.utf8Size ≤ n then t.suffixAt (n - c.utf8Size)
      else none := by
  cases n with
  | zero => cases hn
  | succ n => rfl

/- At the size of its first part a text goes on. -/
theorem suffixAt_append (a b : Text) :
    (a ++ b).suffixAt a.size = some b := by
  induction a with
  | nil => exact suffixAt_zero b
  | cons c a ih =>
      have hPos := Char.utf8Size_pos c
      rw [List.cons_append, size_cons,
        suffixAt_cons _ _ (by omega), if_pos (by omega),
        Nat.add_sub_cancel_left]
      exact ih

/- After some of its characters it goes on with the others. -/
theorem suffixAt_take (t : Text) (n : Nat) :
    t.suffixAt (size (t.take n)) = some (t.drop n) := by
  have hCut := suffixAt_append (t.take n) (t.drop n)
  rwa [List.take_append_drop] at hCut

/-
  What a text goes on with at an offset is a second part of
  it, after a first part of that size.
-/
theorem suffixAt_eq_some_iff {t b : Text} {n : Nat} :
    t.suffixAt n = some b ↔ ∃ a, t = a ++ b ∧ a.size = n := by
  constructor
  · intro h
    induction t generalizing n with
    | nil =>
        cases n with
        | zero =>
            cases h
            exact ⟨[], rfl, rfl⟩
        | succ n => cases h
    | cons c t ih =>
        by_cases hn : 0 < n
        · rw [suffixAt_cons c t hn] at h
          split at h
          · rcases ih h with ⟨a, rfl, hSize⟩
            refine ⟨c :: a, rfl, ?_⟩
            rw [size_cons]
            omega
          · cases h
        · have hZero : n = 0 := by omega
          subst hZero
          cases h
          exact ⟨[], rfl, rfl⟩
  · rintro ⟨a, rfl, rfl⟩
    exact suffixAt_append a b

/- It goes on with something at boundaries and only there. -/
theorem suffixAt_eq_none_iff {t : Text} {n : Nat} :
    t.suffixAt n = none ↔ ¬ t.IsBoundary n := by
  constructor
  · rintro h ⟨a, b, hText, hSize⟩
    rw [suffixAt_eq_some_iff.mpr ⟨a, hText, hSize⟩] at h
    cases h
  · intro h
    cases hSuffix : t.suffixAt n with
    | none => rfl
    | some b =>
        rcases suffixAt_eq_some_iff.mp hSuffix with ⟨a, ha⟩
        exact absurd ⟨a, b, ha⟩ h

end Text

end Highlighter

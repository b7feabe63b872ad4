import Highlighter.Rule

/-
  Searches for a literal, and rules that label a match as a
  whole.

  Main statements:
    * `Pattern.not_prefix_of_lt_lengthUpTo` and
      `Pattern.prefix_drop_lengthUpTo`: the search ends at
      the first occurrence.
    * `Rule.apply_whole`
-/

namespace Highlighter

namespace Pattern

/- The literal does not occur before the search ends. -/
theorem not_prefix_of_lt_lengthUpTo
    {literal t : Text}
    {j : Nat}
    (h : j < lengthUpTo literal t) :
    ¬ literal <+: t.drop j := by
  induction t generalizing j with
  | nil => cases h
  | cons c t ih =>
      simp only [lengthUpTo] at h
      split at h
      · cases h
      · rename_i hNot
        cases j with
        | zero =>
            intro hPrefix
            exact hNot (List.isPrefixOf_iff_prefix.mpr hPrefix)
        | succ j => exact ih (Nat.lt_of_succ_lt_succ h)

/- Where it ends inside of the text the literal occurs. -/
theorem prefix_drop_lengthUpTo
    {literal t : Text}
    (h : lengthUpTo literal t < t.length) :
    literal <+: t.drop (lengthUpTo literal t) := by
  induction t with
  | nil => cases h
  | cons c t ih =>
      simp only [lengthUpTo] at h ⊢
      split
      · rename_i hPrefix
        exact List.isPrefixOf_iff_prefix.mp hPrefix
      · rename_i hNot
        rw [if_neg hNot] at h
        exact ih (Nat.lt_of_succ_lt_succ h)

/- Where it goes on to the end the literal never occurs. -/
theorem not_prefix_of_length_le
    {literal t : Text}
    (hLiteral : literal ≠ [])
    (h : t.length ≤ lengthUpTo literal t)
    (j : Nat) : ¬ literal <+: t.drop j := by
  by_cases hj : j < t.length
  · exact not_prefix_of_lt_lengthUpTo (Nat.lt_of_lt_of_le hj h)
  · rw [List.drop_eq_nil_of_le (Nat.le_of_not_lt hj),
      List.prefix_nil]
    exact hLiteral

/- It ends at once only where the literal occurs. -/
theorem lengthUpTo_pos
    {literal t : Text}
    (hText : t ≠ [])
    (hNot : ¬ literal <+: t) : 0 < lengthUpTo literal t := by
  apply Nat.pos_of_ne_zero
  intro hZero
  have hLt : lengthUpTo literal t < t.length := by
    rw [hZero]
    exact List.length_pos_iff.mpr hText
  have hPrefix := prefix_drop_lengthUpTo hLt
  rw [hZero] at hPrefix
  exact hNot hPrefix

/- A search for one character goes on over all others. -/
theorem lengthUpTo_singleton (c : Char) (t : Text) :
    lengthUpTo [c] t =
      (t.takeWhile (fun d => !(c == d))).length := by
  induction t with
  | nil => rfl
  | cons d t ih =>
      by_cases hEq : c = d <;>
        simp [lengthUpTo, List.isPrefixOf, hEq, ih]

end Pattern

namespace Rule

/- A rule that labels as a whole makes one piece. -/
theorem apply_whole
    {r : Rule Pattern}
    {label : Option Label}
    (h : r.labelling = Labelling.whole label)
    (line : Text) :
    r.apply line =
      (r.pattern.matchLength line).bind fun n =>
        if n = 0 then none
        else some ⟨n, [⟨label, line.take n⟩]⟩ := by
  rcases r with ⟨pattern, labelling, next, indents, dedents⟩
  cases h
  unfold apply
  simp only
  cases pattern.matchLength line <;> rfl

end Rule

end Highlighter

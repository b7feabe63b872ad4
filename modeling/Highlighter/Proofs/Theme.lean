import Highlighter.Theme

/-
  Which overrides of a theme are accepted.

  Key definitions include:
    * `Theme.IsOverride`

  Main statements:
    * `Theme.overrideAll_eq_ok`
    * `Theme.overrideAll_eq_error`
-/

namespace Highlighter

namespace Theme

/-
  A key and a value are an override when the value is a
  colour and the key names something to colour: the text
  without a label or a label.
-/
def IsOverride (key value : String) : Prop :=
  (Color.ofHex? value.toList).isSome = true ∧
    (key = "foreground" ∨ (Label.ofName? key).isSome = true)

instance (key value : String) :
    Decidable (IsOverride key value) :=
  inferInstanceAs (Decidable (_ ∧ (_ ∨ _)))

/- An override is accepted by every theme. -/
theorem override_eq_ok
    {key value : String}
    (h : IsOverride key value)
    (t : Theme) : ∃ t', t.override key value = Except.ok t' := by
  rcases h with ⟨hValue, hKey⟩
  rcases Option.isSome_iff_exists.mp hValue with
    ⟨color, hColor⟩
  unfold override
  rw [hColor]
  by_cases hForeground : key = "foreground"
  · exact ⟨_, if_pos hForeground⟩
  · rcases hKey with hKey | hKey
    · exact absurd hKey hForeground
    · rcases Option.isSome_iff_exists.mp hKey with
        ⟨label, hLabel⟩
      simp only [if_neg hForeground, hLabel]
      exact ⟨_, rfl⟩

/- Anything else is refused by every theme, and named. -/
theorem override_eq_error
    {key value : String}
    (h : ¬ IsOverride key value)
    (t : Theme) :
    t.override key value = Except.error ⟨key, value⟩ := by
  unfold override
  cases hColor : Color.ofHex? value.toList with
  | none => rfl
  | some color =>
      have hKey : ¬ (key = "foreground" ∨
          (Label.ofName? key).isSome = true) := by
        intro hKey
        exact h ⟨by rw [hColor, Option.isSome_some], hKey⟩
      rcases not_or.mp hKey with ⟨hForeground, hLabel⟩
      simp only [if_neg hForeground]
      rw [Option.not_isSome_iff_eq_none.mp hLabel]

/- Overrides one after the other are accepted together. -/
theorem overrideAll_eq_ok
    {overrides : Assoc String}
    (h : ∀ o ∈ overrides, IsOverride o.1 o.2)
    (t : Theme) :
    ∃ t', overrideAll overrides t = Except.ok t' := by
  induction overrides generalizing t with
  | nil => exact ⟨t, rfl⟩
  | cons o overrides ih =>
      rcases override_eq_ok (h o (List.mem_cons_self ..)) t with
        ⟨t', hFirst⟩
      unfold overrideAll
      rw [hFirst]
      exact ih (fun o ho => h o (List.mem_cons_of_mem _ ho)) t'

/- One that is refused makes all fail, and is named. -/
theorem overrideAll_eq_error
    {overrides : Assoc String}
    (h : ¬ ∀ o ∈ overrides, IsOverride o.1 o.2)
    (t : Theme) :
    ∃ e, overrideAll overrides t = Except.error e ∧
      (e.key, e.value) ∈ overrides ∧
      ¬ IsOverride e.key e.value := by
  induction overrides generalizing t with
  | nil =>
      exact absurd (fun o ho => nomatch ho) h
  | cons o overrides ih =>
      unfold overrideAll
      by_cases hFirst : IsOverride o.1 o.2
      · rcases override_eq_ok hFirst t with ⟨t', hOk⟩
        have hRest :
            ¬ ∀ o ∈ overrides, IsOverride o.1 o.2 := by
          intro hRest
          apply h
          intro o' ho'
          rcases List.mem_cons.mp ho' with rfl | ho'
          · exact hFirst
          · exact hRest o' ho'
        rcases ih hRest t' with ⟨e, hError, hMem, hNot⟩
        rw [hOk]
        exact ⟨e, hError, List.mem_cons_of_mem _ hMem, hNot⟩
      · rw [override_eq_error hFirst]
        exact ⟨_, rfl, List.mem_cons_self .., hFirst⟩

end Theme

end Highlighter

import Highlighter.Proofs.Theme
import Mathlib.Data.List.Perm.Basic
import Mathlib.Data.List.Nodup

/-
  The theme that settings ask for does not depend on the
  order of their overrides: each key stands for a slot of
  the theme, a label or the text without one, and different
  keys stand for different slots.

  Key definitions include:
    * `Theme.slotKey`
    * `Theme.recolor`
    * `Theme.OverriddenBy`

  Main statements:
    * `Theme.override_eq_ok_iff`
    * `Theme.overriddenBy_of_overrideAll`
    * `Theme.OverriddenBy.unique`
    * `Theme.order_irrelevant`
-/

namespace Highlighter

------------------------------------------------------------
-- Names of labels
------------------------------------------------------------

namespace Label

/- A label is found by its name. -/
theorem ofName?_name (label : Label) :
    ofName? label.name = some label := by
  cases label <;> decide

/- Only by its name. -/
theorem ofName?_eq_some_iff {key : String} {label : Label} :
    ofName? key = some label ↔ key = label.name := by
  constructor
  · intro h
    have hName := List.find?_some h
    exact (beq_iff_eq.mp hName).symm
  · rintro rfl
    exact ofName?_name label

end Label

/- The colour of one label changes, and no other does. -/
theorem LabelColors.get_set
    (c : LabelColors)
    (color : Color)
    (label other : Label) :
    (c.set color label).get other =
      if other = label then color else c.get other := by
  cases label <;> cases other <;> rfl

/- Colours are told by those of the labels. -/
theorem LabelColors.eq_of_get
    {c d : LabelColors}
    (h : ∀ label, c.get label = d.get label) : c = d := by
  rw [LabelColors.mk.injEq]
  exact ⟨h Label.string, h Label.string2, h Label.number,
    h Label.keyword, h Label.atom, h Label.builtin,
    h Label.definition, h Label.metadata, h Label.comment,
    h Label.operator, h Label.identifier,
    h Label.identifier3⟩

namespace Theme

------------------------------------------------------------
-- Slots
------------------------------------------------------------

/- The key for a label or for the text without one. -/
def slotKey : Option Label → String
  | none => "foreground"
  | some label => label.name

/- Put a colour in place of the one of a slot. -/
def recolor (color : Color) (slot : Option Label) (t : Theme) :
    Theme :=
  match slot with
  | none => { t with foreground := color }
  | some label => { t with colors := t.colors.set color label }

@[simp]
theorem name_recolor
    (color : Color)
    (slot : Option Label)
    (t : Theme) : (t.recolor color slot).name = t.name := by
  cases slot <;> rfl

@[simp]
theorem isDark_recolor
    (color : Color)
    (slot : Option Label)
    (t : Theme) :
    (t.recolor color slot).isDark = t.isDark := by
  cases slot <;> rfl

/- One slot changes, and no other does. -/
theorem color_recolor
    (color : Color)
    (slot other : Option Label)
    (t : Theme) :
    (t.recolor color slot).color other =
      if other = slot then color else t.color other := by
  cases slot with
  | none => cases other <;> rfl
  | some label =>
      cases other with
      | none => rfl
      | some other =>
          simp only [Option.some.injEq]
          exact LabelColors.get_set t.colors color label other

/- No label has the name of the slot that is none. -/
theorem name_ne_foreground (label : Label) :
    label.name ≠ "foreground" := by
  cases label <;> decide

/- Different slots have different keys. -/
theorem slotKey_injective : Function.Injective slotKey := by
  intro slot other h
  cases slot with
  | none =>
      cases other with
      | none => rfl
      | some label => exact absurd h.symm (name_ne_foreground label)
  | some label =>
      cases other with
      | none => exact absurd h (name_ne_foreground label)
      | some other =>
          rw [← Label.ofName?_name label,
            ← Label.ofName?_name other]
          exact congrArg Label.ofName? h

/-
  All that an override does: its key is that of a slot, its
  value stands for a colour, and the slot gets the colour.
-/
theorem override_eq_ok_iff
    {key value : String}
    {t t' : Theme} :
    t.override key value = Except.ok t' ↔
      ∃ slot color, key = slotKey slot ∧
        Color.ofHex? value.toList = some color ∧
        t' = t.recolor color slot := by
  unfold override
  constructor
  · intro h
    split at h
    · cases h
    · rename_i color hColor
      split at h
      · rename_i hForeground
        cases h
        exact ⟨none, color, hForeground, hColor, rfl⟩
      · split at h
        · cases h
        · rename_i label hLabel
          cases h
          exact ⟨some label, color,
            Label.ofName?_eq_some_iff.mp hLabel, hColor, rfl⟩
  · rintro ⟨slot, color, rfl, hColor, rfl⟩
    simp only [hColor]
    cases slot with
    | none => exact if_pos rfl
    | some label =>
        have hNot : slotKey (some label) ≠ "foreground" :=
          name_ne_foreground label
        have hLabel :
            Label.ofName? (slotKey (some label)) = some label :=
          Label.ofName?_name label
        rw [if_neg hNot, hLabel]
        rfl

/- Accepted are colours for the slots, and nothing else. -/
theorem isOverride_iff {key value : String} :
    IsOverride key value ↔
      (∃ color, Color.ofHex? value.toList = some color) ∧
        (key = "foreground" ∨
          ∃ label : Label, key = label.name) := by
  simp only [IsOverride, Option.isSome_iff_exists,
    Label.ofName?_eq_some_iff]

/- A theme is told by its name, its kind and its colours. -/
theorem eq_of_color
    {t t' : Theme}
    (hName : t.name = t'.name)
    (hDark : t.isDark = t'.isDark)
    (hColor : ∀ slot, t.color slot = t'.color slot) :
    t = t' := by
  rw [Theme.mk.injEq]
  exact ⟨hName, hDark, hColor none,
    LabelColors.eq_of_get fun label => hColor (some label)⟩

------------------------------------------------------------
-- Overrides one after the other
------------------------------------------------------------

/-
  A theme is another one with overrides in place: where the
  key of a slot has a value, this stands for the colour of
  the slot, and all else is as it was.
-/
structure OverriddenBy
    (base : Theme)
    (overrides : Assoc String)
    (t : Theme) : Prop where
  name_eq : t.name = base.name
  isDark_eq : t.isDark = base.isDark
  color_of_mem :
    ∀ slot value, (slotKey slot, value) ∈ overrides →
      Color.ofHex? value.toList = some (t.color slot)
  color_of_notMem :
    ∀ slot, slotKey slot ∉ overrides.keys →
      t.color slot = base.color slot

/- One more override may go in front, if its key is new. -/
theorem OverriddenBy.cons
    {base t : Theme}
    {overrides : Assoc String}
    {slot : Option Label}
    {value : String}
    {color : Color}
    (hNew : slotKey slot ∉ overrides.keys)
    (hColor : Color.ofHex? value.toList = some color)
    (h : (base.recolor color slot).OverriddenBy overrides t) :
    base.OverriddenBy ((slotKey slot, value) :: overrides)
      t := by
  have hSlot : t.color slot = color := by
    rw [h.color_of_notMem slot hNew, color_recolor, if_pos rfl]
  refine ⟨h.name_eq.trans (name_recolor ..),
    h.isDark_eq.trans (isDark_recolor ..), ?_, ?_⟩
  · intro other value' hMem
    rcases List.mem_cons.mp hMem with hFirst | hRest
    · rcases Prod.mk.inj hFirst with ⟨hKey, rfl⟩
      cases slotKey_injective hKey
      rw [hSlot, hColor]
    · exact h.color_of_mem other value' hRest
  · intro other hNot
    rw [Assoc.keys, List.map_cons, List.mem_cons,
      not_or] at hNot
    have hOther : other ≠ slot := by
      rintro rfl
      exact hNot.1 rfl
    rw [h.color_of_notMem other hNot.2, color_recolor,
      if_neg hOther]

/- What overrides do that are all accepted. -/
theorem overriddenBy_of_overrideAll
    {overrides : Assoc String}
    (hKeys : overrides.keys.Nodup)
    {base t : Theme}
    (h : overrideAll overrides base = Except.ok t) :
    base.OverriddenBy overrides t := by
  induction overrides generalizing base with
  | nil =>
      cases h
      refine ⟨rfl, rfl, ?_, fun _ _ => rfl⟩
      intro slot value hMem
      cases hMem
  | cons o overrides ih =>
      rcases o with ⟨key, value⟩
      rcases List.nodup_cons.mp hKeys with ⟨hNew, hRest⟩
      unfold overrideAll at h
      split at h
      · cases h
      · rename_i first hFirst
        rcases override_eq_ok_iff.mp hFirst with
          ⟨slot, color, rfl, hColor, rfl⟩
        exact (ih hRest h).cons hNew hColor

/- Nothing of that depends on an order. -/
theorem OverriddenBy.perm
    {base t : Theme}
    {overrides order : Assoc String}
    (hOrder : overrides.Perm order)
    (h : base.OverriddenBy overrides t) :
    base.OverriddenBy order t := by
  have hKeys : overrides.keys.Perm order.keys :=
    hOrder.map Prod.fst
  refine ⟨h.name_eq, h.isDark_eq, ?_, ?_⟩
  · intro slot value hMem
    exact h.color_of_mem slot value (hOrder.mem_iff.mpr hMem)
  · intro slot hNot
    exact h.color_of_notMem slot
      fun hMem => hNot (hKeys.mem_iff.mp hMem)

/- There is one such theme at most. -/
theorem OverriddenBy.unique
    {base t t' : Theme}
    {overrides : Assoc String}
    (h : base.OverriddenBy overrides t)
    (h' : base.OverriddenBy overrides t') : t = t' := by
  apply eq_of_color (h.name_eq.trans h'.name_eq.symm)
    (h.isDark_eq.trans h'.isDark_eq.symm)
  intro slot
  by_cases hKey : slotKey slot ∈ overrides.keys
  · rcases List.mem_map.mp hKey with ⟨⟨key, value⟩, hMem, hEq⟩
    cases hEq
    have hColor := h.color_of_mem slot value hMem
    rw [h'.color_of_mem slot value hMem] at hColor
    exact (Option.some.inj hColor).symm
  · rw [h.color_of_notMem slot hKey,
      h'.color_of_notMem slot hKey]

------------------------------------------------------------
-- Settings
------------------------------------------------------------

/- Settings are accepted if all their overrides are. -/
theorem exists_ofSettings_iff (s : Settings) :
    (∃ t, ofSettings s = Except.ok t) ↔
      ∀ o ∈ s.overrides, IsOverride o.1 o.2 := by
  constructor
  · rintro ⟨t, hOk⟩
    by_contra hNot
    rcases overrideAll_eq_error hNot
        ((byName? s.name).getD monokai) with ⟨e, hError, -⟩
    rw [ofSettings, hError] at hOk
    cases hOk
  · intro hAll
    exact overrideAll_eq_ok hAll _

/- A theme that is given in one order is so in another. -/
theorem ofSettings_of_perm
    {name : String}
    {overrides order : Assoc String}
    (hKeys : overrides.keys.Nodup)
    (hOrder : overrides.Perm order)
    {t : Theme}
    (h : ofSettings ⟨name, overrides⟩ = Except.ok t) :
    ofSettings ⟨name, order⟩ = Except.ok t := by
  have hKeys' : order.keys.Nodup :=
    (hOrder.map Prod.fst).nodup_iff.mp hKeys
  have hAll :=
    (exists_ofSettings_iff ⟨name, overrides⟩).mp ⟨t, h⟩
  rcases (exists_ofSettings_iff ⟨name, order⟩).mpr
      (fun o ho => hAll o (hOrder.mem_iff.mpr ho)) with
    ⟨t', hThen⟩
  have hFirst := overriddenBy_of_overrideAll hKeys h
  have hSecond := overriddenBy_of_overrideAll hKeys' hThen
  rw [hThen, (hFirst.perm hOrder).unique hSecond]

/-
  Two orders of the same overrides, which have different
  keys, are accepted together, if every one of them has a
  colour and the name of a label or `foreground` for a key.
  They give the same theme, which is the built-in one of
  that name, or else the dark one, but for the colours that
  the overrides put in its place.
-/
theorem order_irrelevant
    (name : String)
    {overrides order : Assoc String}
    (hKeys : overrides.keys.Nodup)
    (hOrder : overrides.Perm order) :
    let base := (byName? name).getD monokai
    ((∃ t, ofSettings ⟨name, overrides⟩ = Except.ok t ∧
        ofSettings ⟨name, order⟩ = Except.ok t) ∨
      (∃ e e', ofSettings ⟨name, overrides⟩ = Except.error e ∧
        ofSettings ⟨name, order⟩ = Except.error e')) ∧
    ((∃ t, ofSettings ⟨name, overrides⟩ = Except.ok t) ↔
      ∀ o ∈ overrides,
        (∃ color, Color.ofHex? o.2.toList = some color) ∧
          (o.1 = "foreground" ∨
            ∃ label : Label, o.1 = label.name)) ∧
    ∀ t, ofSettings ⟨name, overrides⟩ = Except.ok t →
      t.name = base.name ∧ t.isDark = base.isDark ∧
      ∀ slot,
        (∀ value, (slotKey slot, value) ∈ overrides →
          Color.ofHex? value.toList = some (t.color slot)) ∧
        (slotKey slot ∉ overrides.keys →
          t.color slot = base.color slot) := by
  intro base
  refine ⟨?_, ?_, ?_⟩
  · cases hFirst : ofSettings ⟨name, overrides⟩ with
    | ok t =>
        exact Or.inl
          ⟨t, rfl, ofSettings_of_perm hKeys hOrder hFirst⟩
    | error e =>
        right
        cases hThen : ofSettings ⟨name, order⟩ with
        | error e' => exact ⟨e, e', rfl, rfl⟩
        | ok t =>
            have hKeys' : order.keys.Nodup :=
              (hOrder.map Prod.fst).nodup_iff.mp hKeys
            have hOk :=
              ofSettings_of_perm hKeys' hOrder.symm hThen
            rw [hFirst] at hOk
            cases hOk
  · rw [exists_ofSettings_iff]
    simp only [isOverride_iff]
  · intro t hOk
    have h := overriddenBy_of_overrideAll hKeys hOk
    exact ⟨h.name_eq, h.isDark_eq, fun slot =>
      ⟨h.color_of_mem slot, h.color_of_notMem slot⟩⟩

/-
  A keyword and plain text in other colours, in both orders,
  over the light theme by its second name.
-/
theorem order_irrelevant_light :
    let overrides : Assoc String :=
      [("keyword", "#ff0000"), ("foreground", "#111")]
    let order : Assoc String :=
      [("foreground", "#111"), ("keyword", "#ff0000")]
    overrides.keys.Nodup ∧ overrides.Perm order ∧
      ∃ t, ofSettings ⟨"default", overrides⟩ = Except.ok t ∧
        ofSettings ⟨"default", order⟩ = Except.ok t ∧
        t.name = "light" ∧
        t.color (some Label.keyword) = ⟨255, 0, 0⟩ ∧
        t.color none = ⟨17, 17, 17⟩ ∧
        t.color (some Label.comment) =
          light.color (some Label.comment) := by
  intro overrides order
  have hKeys : overrides.keys.Nodup := by decide
  have hOrder : overrides.Perm order := List.Perm.swap ..
  rcases order_irrelevant "default" hKeys hOrder with
    ⟨hBoth, -, hTheme⟩
  rcases hBoth with ⟨t, hFirst, hThen⟩ | ⟨e, e', hError, -⟩
  · rcases hTheme t hFirst with ⟨hName, -, hColor⟩
    have hKeyword :=
      (hColor (some Label.keyword)).1 "#ff0000" (by decide)
    have hPlain := (hColor none).1 "#111" (by decide)
    have hComment :=
      (hColor (some Label.comment)).2 (by decide)
    exact ⟨hKeys, hOrder, t, hFirst, hThen, hName,
      (Option.some.inj hKeyword).symm,
      (Option.some.inj hPlain).symm, hComment⟩
  · have hOk :
        (ofSettings ⟨"default", overrides⟩).toOption.isSome =
          true := by
      decide
    rw [hError] at hOk
    cases hOk

end Theme

end Highlighter

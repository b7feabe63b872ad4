import Highlighter.Proofs.Regex.Steady

/-
  An expression that is written inside of a group. It is
  read as it is by itself, with one more group around those
  that it opens, and the bracket behind it closes the group.

  Key definitions include:
    * `Regex.Reading.within`
    * `Regex.StandsFor`

  Main statements:
    * `Regex.Reading.step_within`
    * `Regex.Reading.readAll_within`
-/

namespace Highlighter

namespace Regex

namespace Reading

------------------------------------------------------------
-- A group around
------------------------------------------------------------

/- The same reading with one more group around it. -/
def within (g : OpenGroup) (r : Reading) : Reading :=
  { r with outer := r.outer ++ [g] }

section

variable {r r' : Reading}
variable {t rest : Text}

theorem repeatLast_within
    {low : Nat}
    {high : Option Nat}
    (h : repeatLast low high r t = some (r', rest))
    (g : OpenGroup) :
    repeatLast low high (r.within g) t =
      some (r'.within g, rest) := by
  unfold repeatLast at h ⊢
  simp only [within] at h ⊢
  split at h
  · split at h
    · rename_i hHeight
      cases h
      rw [if_pos hHeight]
    · cases h
  · cases h

/- The names that were given do not hang on it either. -/
theorem openNamed_within
    (h : r.openNamed t = some (r', rest))
    (g : OpenGroup) :
    (r.within g).openNamed t = some (r'.within g, rest) := by
  unfold openNamed at h ⊢
  rcases Option.bind_eq_some_iff.mp h with
    ⟨⟨name, behind⟩, hName, hNew⟩
  rw [hName, Option.bind_some]
  dsimp only at hNew ⊢
  split at hNew
  · cases hNew
  · rename_i hFresh
    cases hNew
    exact if_neg hFresh

theorem readGroup_within
    (h : r.readGroup t = some (r', rest))
    (g : OpenGroup) :
    (r.within g).readGroup t = some (r'.within g, rest) := by
  unfold readGroup at h ⊢
  split at h
  · exact openNamed_within h g
  · exact openNamed_within h g
  · dsimp only at h ⊢
    split at h
    · rcases Option.bind_eq_some_iff.mp h with
        ⟨flags, hFlags, hGroup⟩
      cases hGroup
      simp only [within, hFlags]
      rfl
    · split at h
      · cases h
      · rename_i hLetters
        rcases Option.bind_eq_some_iff.mp h with
          ⟨flags, hFlags, hSwitch⟩
        cases hSwitch
        simp [within, hLetters, hFlags]
    · cases h
  · cases h
    rfl

theorem closeGroup_within
    (h : r.closeGroup = some r')
    (g : OpenGroup) :
    (r.within g).closeGroup = some (r'.within g) := by
  unfold closeGroup at h
  split at h
  · cases h
  · rename_i inner outer hOuter
    dsimp only at h
    split at h
    · rename_i hHeight
      cases h
      simp only [closeGroup, within, hOuter, List.cons_append,
        hHeight, if_true]
    · cases h

/- What a step reads does not hang on the group around. -/
theorem step_within
    {c : Char}
    (h : r.step c t = some (r', rest))
    (g : OpenGroup) :
    (r.within g).step c t = some (r'.within g, rest) := by
  unfold step at h ⊢
  dsimp only at h ⊢
  split at h
  · exact readGroup_within h g
  · rcases Option.map_eq_some_iff.mp h with ⟨s, hClose, hEq⟩
    cases hEq
    rw [closeGroup_within hClose g]
    rfl
  · cases h
    rfl
  · rcases Option.bind_eq_some_iff.mp h with
      ⟨⟨s, behind⟩, hClass, hAdd⟩
    cases hAdd
    simp only [within, hClass, Option.bind_eq_bind,
      Option.bind_some]
    rfl
  · exact repeatLast_within h g
  · exact repeatLast_within h g
  · exact repeatLast_within h g
  · rcases Option.bind_eq_some_iff.mp h with
      ⟨⟨⟨low, high⟩, behind⟩, hBounds, hRepeat⟩
    simp only [hBounds, Option.bind_eq_bind, Option.bind_some]
    exact repeatLast_within hRepeat g
  · split at h
    · rename_i hUnicode
      cases h
      simp only [within, hUnicode, if_true]
      rfl
    · cases h
  · cases h
    rfl
  · cases h
    rfl
  · rcases Option.bind_eq_some_iff.mp h with
      ⟨⟨a, behind⟩, hAtom, hAdd⟩
    cases hAdd
    simp only [within, hAtom, Option.bind_eq_bind,
      Option.bind_some]
    cases a <;> rfl
  · cases h
    rfl

/- A closing bracket alone closes the innermost group. -/
theorem readAll_closer (steps : Nat) (r : Reading) :
    readAll (steps + 1) r [')'] = r.closeGroup := by
  have hStep : r.step ')' [] =
      r.closeGroup.map fun r => (r, []) := rfl
  rw [readAll, hStep]
  cases r.closeGroup with
  | none => rfl
  | some r => simp [readAll]

/-
  A text that is read to its end is read inside of a group
  too, and the bracket behind it closes the group.
-/
theorem readAll_within
    {fuel steps : Nat}
    (h : readAll fuel r t = some r')
    (hSteps : fuel < steps)
    (g : OpenGroup) :
    readAll steps (r.within g) (t ++ [')']) =
      (r'.within g).closeGroup := by
  rcases steps with - | steps
  · cases hSteps
  induction fuel generalizing steps r t with
  | zero =>
      cases t with
      | nil =>
          cases h
          exact readAll_closer steps (r'.within g)
      | cons c t => cases h
  | succ fuel ih =>
      cases t with
      | nil =>
          cases h
          exact readAll_closer steps (r'.within g)
      | cons c t =>
          rw [readAll] at h
          split at h
          · cases h
          · rename_i r₁ behind hStep
            have hStep' := steady_step (r.within g) c _ _ _
              (step_within hStep g)
            rw [List.cons_append, readAll, hStep']
            rcases steps with - | steps
            · omega
            · exact ih h steps (by omega)

end

end Reading

------------------------------------------------------------
-- Texts that stand for expressions
------------------------------------------------------------

/-
  A text stands for an expression: it is read to its end,
  with all groups closed. Depth and size are not looked at.
-/
def StandsFor (source : Text) (a : Regex) : Prop :=
  ∃ r : Reading,
    Reading.start.readAll source.length source = some r ∧
      r.outer = [] ∧ r.branches.close.1 = a

/- A text that is accepted stands for what it makes. -/
theorem standsFor_of_ofSource?
    {source : Text}
    {a : Regex}
    (h : ofSource? source = some a) : StandsFor source a := by
  unfold ofSource? at h
  split at h
  · cases h
  · rename_i r hRead
    dsimp only at h
    split at h
    · rename_i hClosed
      cases h
      simp only [Bool.and_eq_true, List.isEmpty_iff] at hClosed
      exact ⟨r, hRead, hClosed.1.1, rfl⟩
    · cases h

/- It stands for one expression only. -/
theorem StandsFor.unique
    {source : Text}
    {a b : Regex}
    (ha : StandsFor source a)
    (hb : StandsFor source b) : a = b := by
  rcases ha with ⟨r, hRead, -, rfl⟩
  rcases hb with ⟨s, hRead', -, rfl⟩
  cases hRead.symm.trans hRead'
  rfl

end Regex

end Highlighter

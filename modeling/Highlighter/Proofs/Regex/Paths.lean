import Highlighter.Proofs.Regex.Loops
import Highlighter.Proofs.Regex.Openings
import Mathlib.Data.List.Forall2

/-
  The places that an expression leads to, in order of
  priority. They do not depend on the groups noted before,
  so whether a search fails at a position is told by the
  position alone.

  Key definitions include:
    * `Regex.copies`
    * `Regex.atMost`
    * `Regex.paths`
    * `Regex.Place.On`
    * `Regex.Through`

  Main statements:
    * `Regex.alike_paths`: places with the same text ahead
      lead to places with the same text ahead.
    * `Regex.through_iff`: one place at a position tells
      where all paths from there lead.
-/

namespace Highlighter

namespace Regex

------------------------------------------------------------
-- Paths
------------------------------------------------------------

/- A number of steps one after the other. -/
def copies (step : Place → List Place) :
    Nat → Place → List Place
  | 0, p => [p]
  | count + 1, p => (step p).flatMap (copies step count)

/-
  Up to a number of steps one after the other, as many as
  possible first or as few.
-/
def atMost (step : Place → List Place) (greedy : Bool) :
    Nat → Place → List Place
  | 0, p => [p]
  | count + 1, p =>
      let further := (step p).flatMap (atMost step greedy count)
      if greedy then further ++ [p] else p :: further

/-
  Any number of steps. Where each step reads something there
  are no more of them than the text has characters.
-/
def star (step : Place → List Place) (greedy : Bool)
    (p : Place) : List Place :=
  atMost step greedy p.rest.length p

/-
  The places that an expression leads to from a place, those
  that a search prefers first.
-/
def paths : Regex → Place → List Place
  | empty, p => [p]
  | set chars, p => (p.read chars).toList
  | assert condition, p =>
      if p.allows condition then [p] else []
  | cat a b, p => (a.paths p).flatMap b.paths
  | alt a b, p => a.paths p ++ b.paths p
  | times low (some high) greedy body, p =>
      (copies body.paths low p).flatMap
        (atMost body.paths greedy (high - low))
  | times low none greedy body, p =>
      (copies body.paths low p).flatMap
        (star body.paths greedy)
  | group index body, p =>
      (body.paths p).map (Place.close index p.pos)

/- A step and further copies are one copy more. -/
theorem copies_flatMap
    (step : Place → List Place)
    (f : Place → List Place)
    (count : Nat)
    (p : Place) :
    (copies step count p).flatMap
        (fun q => (step q).flatMap f) =
      (copies step (count + 1) p).flatMap f := by
  induction count generalizing p with
  | zero => simp [copies]
  | succ count ih =>
      rw [copies, copies, List.flatMap_assoc,
        List.flatMap_assoc]
      congr 1
      funext q
      exact ih q

------------------------------------------------------------
-- Places of a text
------------------------------------------------------------

namespace Place

/- A place lies on a text, at its position. -/
structure On (t : Text) (p : Place) : Prop where
  before_eq : p.before = (t.take p.pos).getLast?
  rest_eq : p.rest = t.drop p.pos

theorem on_first (t : Text) : (Place.first t).On t :=
  ⟨rfl, rfl⟩

/- To read a character stays on the text. -/
theorem On.read
    {t : Text}
    {chars : CharSet}
    {p q : Place}
    (h : p.On t)
    (hRead : p.read chars = some q) : q.On t := by
  unfold Place.read at hRead
  split at hRead
  · cases hRead
  · rename_i c rest hRest
    split at hRead
    · cases hRead
      have hDrop : t.drop p.pos = c :: rest :=
        h.rest_eq.symm.trans hRest
      have hHead : t[p.pos]? = some c := by
        rw [← List.head?_drop, hDrop]
        rfl
      constructor
      · rw [List.take_add_one, hHead]
        simp
      · rw [← List.tail_drop, hDrop]
        rfl
    · cases hRead

theorem On.close
    {t : Text}
    {p : Place}
    (h : p.On t)
    (index : Option Nat)
    (start : Nat) : (p.close index start).On t := by
  cases index with
  | none => exact h
  | some i => exact ⟨h.before_eq, h.rest_eq⟩

@[simp]
theorem pos_close
    (p : Place)
    (index : Option Nat)
    (start : Nat) : (p.close index start).pos = p.pos := by
  cases index <;> rfl

end Place

/-
  Two places on a text are alike when they are at the same
  position. They may have noted different groups.
-/
structure Alike (t : Text) (p q : Place) : Prop where
  left : p.On t
  right : q.On t
  pos_eq : p.pos = q.pos

theorem Alike.before_eq
    {t : Text}
    {p q : Place}
    (h : Alike t p q) : p.before = q.before := by
  rw [h.left.before_eq, h.right.before_eq, h.pos_eq]

theorem Alike.rest_eq
    {t : Text}
    {p q : Place}
    (h : Alike t p q) : p.rest = q.rest := by
  rw [h.left.rest_eq, h.right.rest_eq, h.pos_eq]

/-
  A step goes alike from places that are alike, and so it
  stays on the text.
-/
def AlikeStep (t : Text) (step : Place → List Place) : Prop :=
  ∀ p q, Alike t p q →
    List.Forall₂ (Alike t) (step p) (step q)

theorem AlikeStep.on
    {t : Text}
    {step : Place → List Place}
    (h : AlikeStep t step)
    {p q : Place}
    (hp : p.On t)
    (hq : q ∈ step p) : q.On t := by
  have hAll := h p p ⟨hp, hp, rfl⟩
  rw [List.forall₂_same] at hAll
  exact (hAll q hq).left

theorem AlikeStep.flatMap
    {t : Text}
    {step further : Place → List Place}
    (h : AlikeStep t step)
    (hFurther : AlikeStep t further) :
    AlikeStep t fun p => (step p).flatMap further := by
  intro p q hAlike
  exact List.rel_flatMap (h p q hAlike)
    fun r s hNext => hFurther r s hNext

theorem AlikeStep.copies
    {t : Text}
    {step : Place → List Place}
    (h : AlikeStep t step)
    (count : Nat) : AlikeStep t (copies step count) := by
  induction count with
  | zero =>
      intro p q hAlike
      exact List.Forall₂.cons hAlike List.Forall₂.nil
  | succ count ih => exact h.flatMap ih

theorem AlikeStep.atMost
    {t : Text}
    {step : Place → List Place}
    (h : AlikeStep t step)
    (greedy : Bool)
    (count : Nat) : AlikeStep t (atMost step greedy count) := by
  induction count with
  | zero =>
      intro p q hAlike
      exact List.Forall₂.cons hAlike List.Forall₂.nil
  | succ count ih =>
      intro p q hAlike
      have hFurther := h.flatMap ih p q hAlike
      have hHere :=
        List.Forall₂.cons hAlike List.Forall₂.nil
      cases greedy with
      | true => exact List.rel_append hFurther hHere
      | false => exact List.Forall₂.cons hAlike hFurther

theorem AlikeStep.star
    {t : Text}
    {step : Place → List Place}
    (h : AlikeStep t step)
    (greedy : Bool) : AlikeStep t (star step greedy) := by
  intro p q hAlike
  unfold Regex.star
  rw [hAlike.rest_eq]
  exact h.atMost greedy _ p q hAlike

/- A set goes alike: it reads the same character or none. -/
theorem alikeStep_set (t : Text) (chars : CharSet) :
    AlikeStep t (set chars).paths := by
  intro p q hAlike
  have hSame :
      p.read chars = none ↔ q.read chars = none := by
    unfold Place.read
    rw [hAlike.rest_eq]
    cases q.rest with
    | nil => exact Iff.rfl
    | cons c rest => cases chars.contains c <;> simp
  simp only [paths]
  cases hp : p.read chars with
  | none =>
      rw [hSame.mp hp]
      exact List.Forall₂.nil
  | some r =>
      cases hq : q.read chars with
      | none =>
          rw [hSame.mpr hq] at hp
          cases hp
      | some s =>
          refine List.Forall₂.cons ?_ List.Forall₂.nil
          refine ⟨hAlike.left.read hp,
            hAlike.right.read hq, ?_⟩
          rw [Place.pos_of_read hp, Place.pos_of_read hq,
            hAlike.pos_eq]

/- An expression goes alike from places that are alike. -/
theorem alike_paths (t : Text) (a : Regex) :
    AlikeStep t a.paths := by
  induction a with
  | empty =>
      intro p q hAlike
      exact List.Forall₂.cons hAlike List.Forall₂.nil
  | set chars => exact alikeStep_set t chars
  | assert condition =>
      intro p q hAlike
      have hSame :
          p.allows condition = q.allows condition := by
        rw [Place.allows, hAlike.before_eq, hAlike.rest_eq]
        rfl
      simp only [paths, hSame]
      split
      · exact List.Forall₂.cons hAlike List.Forall₂.nil
      · exact List.Forall₂.nil
  | cat a b iha ihb => exact iha.flatMap ihb
  | alt a b iha ihb =>
      intro p q hAlike
      exact List.rel_append (iha p q hAlike) (ihb p q hAlike)
  | times low high greedy body ih =>
      cases high with
      | some high =>
          exact (ih.copies low).flatMap
            (ih.atMost greedy (high - low))
      | none => exact (ih.copies low).flatMap (ih.star greedy)
  | group index body ih =>
      intro p q hAlike
      refine List.rel_map ?_ (ih p q hAlike)
      intro r s hNext
      refine ⟨hNext.left.close _ _, hNext.right.close _ _, ?_⟩
      rw [Place.pos_close, Place.pos_close, hNext.pos_eq]

------------------------------------------------------------
-- Dead ends
------------------------------------------------------------

/-
  From a position a step leads only to positions of a kind.
-/
def Through
    (t : Text)
    (step : Place → List Place)
    (Z : Nat → Prop)
    (pos : Nat) : Prop :=
  ∀ p : Place, p.On t → p.pos = pos →
    ∀ q ∈ step p, Z q.pos

/- One place at the position tells of all. -/
theorem through_iff
    {t : Text}
    {step : Place → List Place}
    (hStep : AlikeStep t step)
    {Z : Nat → Prop}
    {p : Place}
    (hp : p.On t) :
    Through t step Z p.pos ↔ ∀ q ∈ step p, Z q.pos := by
  constructor
  · intro h
    exact h p hp rfl
  · intro h q hq hPos
    have hAll := hStep p q ⟨hp, hq, hPos.symm⟩
    clear hPos
    generalize step p = xs at h hAll
    generalize step q = ys at hAll
    induction hAll with
    | nil =>
        intro s hs
        cases hs
    | @cons r s xs ys hFirst hRest ih =>
        intro u hu
        rcases List.mem_cons.mp hu with rfl | hu
        · rw [← hFirst.pos_eq]
          exact h r (List.mem_cons_self ..)
        · exact ih (fun w hw => h w (List.mem_cons_of_mem r hw))
            u hu

end Regex

end Highlighter

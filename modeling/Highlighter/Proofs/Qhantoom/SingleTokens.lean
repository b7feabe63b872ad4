import Highlighter.Proofs.Qhantoom.WordRules
import Highlighter.Proofs.Regex.Forced
import Highlighter.Proofs.Regex.Munch
import Highlighter.Proofs.Scan.Step

/-
  Steps of the start state that make a single token: the one
  of a rule that fires where the rules before it do not.

  Key definitions include:
    * `Qhantoom.oneToken`

  Main statements:
    * `Qhantoom.stepOn_oneToken`
    * `Qhantoom.apply_of_prefers`
    * `Qhantoom.apply_of_munches`: a rule whose expression
      munches takes the longest word of its language.
-/

namespace Highlighter

namespace RuleTable

/- A rule fires first if those in front of it do not. -/
theorem firstHit_of_getElem?
    {line : Text}
    {rules : List (Rule Pattern)}
    {n : Nat}
    {r : Rule Pattern}
    {hit : Hit}
    (hRule : rules[n]? = some r)
    (hSkipped : ∀ other ∈ rules.take n,
      other.apply line = none)
    (hApply : r.apply line = some hit) :
    firstHit line rules = some (r, hit) := by
  induction rules generalizing n with
  | nil => cases hRule
  | cons other rules ih =>
      cases n with
      | zero =>
          cases hRule
          rw [firstHit, hApply]
      | succ n =>
          rw [List.take_succ_cons,
            List.forall_mem_cons] at hSkipped
          rw [firstHit, hSkipped.1]
          exact ih hRule hSkipped.2

/- A step is one on what the text goes on with. -/
theorem step_append
    (table : RuleTable)
    (before text : Text)
    (state : State) :
    table.step (before ++ text) ⟨before.size, state⟩ =
      table.stepOn ⟨before.size, state⟩ text := by
  rw [step, Text.suffixAt_append]
  rfl

end RuleTable

namespace Qhantoom

open Regex RuleTable

------------------------------------------------------------
-- Single tokens
------------------------------------------------------------

/- A step over a text that makes one labelled token. -/
def oneToken
    (offset : Nat)
    (label : Label)
    (s : Text)
    (stateAfter : State)
    (rest : Text) : Step :=
  ⟨[⟨some label, s, offset, stateAfter, Effect.none⟩],
    ⟨offset + s.size, stateAfter⟩, rest⟩

/-
  The first rule of the start state that fires makes the
  step.
-/
theorem stepOn_oneToken
    {n : Nat}
    {r : Rule Pattern}
    {label : Label}
    {s rest : Text}
    (hRule : compiledStart[n]? = some r)
    (hEffect : r.effect = Effect.none)
    (hSkipped : ∀ other ∈ compiledStart.take n,
      other.apply (Text.currentLine (s ++ rest)) = none)
    (hApply :
      r.apply (Text.currentLine (s ++ rest)) =
        some ⟨s.length, [⟨some label, s⟩]⟩)
    (offset : Nat) :
    table.stepOn ⟨offset, State.start⟩ (s ++ rest) =
      some (oneToken offset label s
        (r.stateAfter State.start) rest) := by
  have hPlace := breakLength_of_apply hApply
  have hHit := firstHit_of_getElem? hRule hSkipped hApply
  rw [← rules_start] at hHit
  have hStep : ∀ cursor : Cursor,
      cursor.state = State.start →
      table.stepOn cursor (s ++ rest) =
        some (stepOver cursor (s ++ rest) s.length
          [⟨some label, s⟩] (r.stateAfter cursor.state)
          r.effect) := by
    intro cursor hState
    rw [← hState] at hHit
    exact stepOn_of_firstHit hPlace.1 hPlace.2 hHit
  rw [hStep ⟨offset, State.start⟩ rfl, hEffect, stepOver,
    List.take_left, List.drop_left]
  rfl

/- A rule takes the text that its expression prefers. -/
theorem apply_of_prefers
    {a : Regex}
    {s : Text}
    (h : Prefers a s)
    (hSimple : a.simple = true)
    (hs : s ≠ [])
    (label : Label)
    (more : Text) :
    (labelling a label).apply (s ++ more) =
      some ⟨s.length, [⟨some label, s⟩]⟩ :=
  Rule.apply_of_head?_paths (r := labelling a label)
    rfl rfl hSimple hs (h _ more rfl)

------------------------------------------------------------
-- Longest tokens
------------------------------------------------------------

theorem munches_optional
    {a : Regex}
    {L : Language Char}
    (h : Munches a L)
    (hReads : a.readsNothing = false) :
    Munches (optional a) (L + 1) := by
  have hCovers : Covers L 1 := by
    intro s hs m hm t hFirst _
    rw [(Language.mem_one m).mp hm]
    exact ⟨s, hs, hFirst, Nat.zero_le _⟩
  apply (h.alt Munches.empty hCovers).of_paths
  funext p
  rw [paths_optional hReads]
  rfl

theorem munches_some1
    {chars : CharSet}
    {text : String}
    (h : Spells chars text) :
    Munches (some1 (set chars)) (Text.someOf text) := by
  apply ((Munches.set h).cat (Munches.many h)
    (apart_charOf text _)).of_paths
  funext p
  rw [paths_some1_set, ← paths_many_set]
  rfl

/- A rule takes the longest word that its line begins with. -/
theorem apply_of_munches
    {a : Regex}
    {L : Language Char}
    (h : Munches a L)
    (hSimple : a.simple = true)
    (label : Label)
    {line u : Text}
    (hu : u ∈ L)
    (hNe : u ≠ [])
    (hBegins : u <+: line) :
    ∃ s, Longest L line s ∧
      (labelling a label).apply line =
        some ⟨s.length, [⟨some label, s⟩]⟩ := by
  rcases h.exists_longest (p := Place.first line) hu hBegins
    with ⟨s, hLongest, hHead⟩
  have hSome : s ≠ [] := by
    rintro rfl
    exact hNe (List.length_eq_zero_iff.mp
      (Nat.le_zero.mp (hLongest.length_le u hu hBegins)))
  refine ⟨s, hLongest, ?_⟩
  rcases hLongest.begins with ⟨rest, hRest⟩
  have hLine : line = s ++ rest := hRest.symm
  rw [hLine] at hHead ⊢
  exact Rule.apply_of_head?_paths (r := labelling a label)
    rfl rfl hSimple hSome hHead

end Qhantoom

end Highlighter

import Highlighter.Proofs.Pattern
import Highlighter.Proofs.Regex.Alphabet
import Highlighter.Proofs.Regex.Search

/-
  The paths of simple expressions, told by the text ahead:
  literals, choices between them, and greedy loops over a
  set of characters.

  Key definitions include:
    * `Regex.Place.beyond`
    * `Regex.Place.sees`
    * `Regex.Place.past`

  Main statements:
    * `Regex.paths_literal`: the only path of a literal.
    * `Regex.head?_star`: a greedy loop over a set prefers
      to read all there is.
    * `Regex.star_flatMap`: it has to, if nothing follows
      where it could go on.
    * `Rule.apply_of_head?_paths`
-/

namespace Highlighter

namespace Regex

------------------------------------------------------------
-- Places further on
------------------------------------------------------------

namespace Place

/- The place after a text that is ahead. -/
def beyond (s : Text) (p : Place) : Place :=
  ⟨s.getLast?.or p.before, p.rest.drop s.length,
    p.pos + s.length, p.groups⟩

/- The place after the next character. -/
def next (p : Place) : Place := p.beyond (p.rest.take 1)

/- Is the next character one of a set? -/
def sees (chars : CharSet) (p : Place) : Bool :=
  p.rest.head?.any fun c => chars.contains c

/- The place after all characters of a set that follow. -/
def past (chars : CharSet) (p : Place) : Place :=
  p.beyond (p.rest.takeWhile fun c => chars.contains c)

theorem beyond_nil (p : Place) : p.beyond [] = p := by
  cases p
  simp [beyond]

theorem beyond_append (p : Place) (s u : Text) :
    (p.beyond s).beyond u = p.beyond (s ++ u) := by
  simp [beyond, List.getLast?_append, Option.or_assoc,
    Nat.add_assoc]

theorem rest_beyond
    {p : Place}
    {s u : Text}
    (h : p.rest = s ++ u) : (p.beyond s).rest = u := by
  simp [beyond, h]

@[simp]
theorem pos_beyond (p : Place) (s : Text) :
    (p.beyond s).pos = p.pos + s.length := rfl

@[simp]
theorem rest_close
    (p : Place)
    (index : Option Nat)
    (start : Nat) : (p.close index start).rest = p.rest := by
  cases index <;> rfl

theorem sees_cons
    {p : Place}
    {c : Char}
    {rest : Text}
    (h : p.rest = c :: rest)
    (chars : CharSet) : p.sees chars = chars.contains c := by
  simp [sees, h]

theorem next_cons
    {p : Place}
    {c : Char}
    {rest : Text}
    (h : p.rest = c :: rest) : p.next = p.beyond [c] := by
  simp [next, h]

theorem rest_next
    {p : Place}
    {c : Char}
    {rest : Text}
    (h : p.rest = c :: rest) : p.next.rest = rest := by
  rw [next_cons h]
  exact rest_beyond h

/- The next character is read if it is in the set. -/
theorem read_eq (chars : CharSet) (p : Place) :
    p.read chars =
      if p.sees chars then some p.next else none := by
  cases hRest : p.rest with
  | nil => simp [read, sees, hRest]
  | cons c rest =>
      rw [sees_cons hRest, next_cons hRest]
      simp [read, beyond, hRest]

theorem exists_cons_of_sees
    {p : Place}
    {chars : CharSet}
    (h : p.sees chars = true) :
    ∃ c rest, p.rest = c :: rest ∧
      chars.contains c = true := by
  cases hRest : p.rest with
  | nil => simp [sees, hRest] at h
  | cons c rest =>
      rw [sees_cons hRest] at h
      exact ⟨c, rest, rfl, h⟩

/- After a character of the set it is the same place. -/
theorem past_next
    {p : Place}
    {chars : CharSet}
    (h : p.sees chars = true) :
    p.next.past chars = p.past chars := by
  rcases exists_cons_of_sees h with ⟨c, rest, hRest, hc⟩
  have hNext : (p.beyond [c]).rest = rest := rest_beyond hRest
  rw [next_cons hRest, past, past, hNext, hRest,
    List.takeWhile_cons, if_pos hc, beyond_append]
  rfl

/- Where no such character follows it is here. -/
theorem past_of_not_sees
    {p : Place}
    {chars : CharSet}
    (h : p.sees chars = false) : p.past chars = p := by
  have hNone :
      p.rest.takeWhile (fun c => chars.contains c) = [] := by
    cases hRest : p.rest with
    | nil => rfl
    | cons c rest =>
        rw [sees_cons hRest] at h
        simp [h]
  rw [past, hNone, beyond_nil]

end Place

------------------------------------------------------------
-- Literals
------------------------------------------------------------

/- A set leads past the next character if it is in it. -/
theorem paths_set (chars : CharSet) (p : Place) :
    (set chars).paths p =
      if p.sees chars then [p.next] else [] := by
  rw [paths, Place.read_eq]
  cases p.sees chars <;> rfl

theorem paths_concat_cons
    (a : Regex)
    (as : List Regex)
    (p : Place) :
    (concat (a :: as)).paths p =
      (a.paths p).flatMap (concat as).paths := by
  cases as with
  | nil => simp [concat, paths]
  | cons b as => rfl

theorem paths_concat_append
    (as bs : List Regex)
    (p : Place) :
    (concat (as ++ bs)).paths p =
      ((concat as).paths p).flatMap (concat bs).paths := by
  induction as generalizing p with
  | nil => simp [concat, paths]
  | cons a as ih =>
      rw [List.cons_append, paths_concat_cons,
        paths_concat_cons, List.flatMap_assoc]
      congr 1
      funext q
      exact ih q

theorem paths_choice
    {as : List Regex}
    (h : as ≠ [])
    (p : Place) :
    (choice as).paths p = as.flatMap fun a => a.paths p := by
  induction as with
  | nil => exact absurd rfl h
  | cons a as ih =>
      cases as with
      | nil => simp [choice]
      | cons b as =>
          rw [List.flatMap_cons, ← ih (List.cons_ne_nil _ _)]
          rfl

/- A literal leads beyond itself or nowhere. -/
theorem paths_literal (s : Text) (p : Place) :
    (concat (s.map char)).paths p =
      if s.isPrefixOf p.rest then [p.beyond s] else [] := by
  induction s generalizing p with
  | nil => simp [concat, paths, Place.beyond_nil]
  | cons c s ih =>
      rw [List.map_cons, paths_concat_cons, char, paths_set]
      cases hRest : p.rest with
      | nil => simp [Place.sees, hRest]
      | cons d rest =>
          rw [Place.sees_cons hRest, Place.next_cons hRest,
            CharSet.contains_single, List.isPrefixOf]
          by_cases hEq : c = d
          · have hNext : (p.beyond [d]).rest = rest :=
              Place.rest_beyond hRest
            subst hEq
            simp [ih, hNext, Place.beyond_append]
          · simp [hEq]

------------------------------------------------------------
-- Greedy loops
------------------------------------------------------------

variable {chars : CharSet}

theorem star_set_of_sees
    {p : Place}
    (h : p.sees chars = true) :
    star (set chars).paths true p =
      star (set chars).paths true p.next ++ [p] := by
  rcases Place.exists_cons_of_sees h with
    ⟨c, rest, hRest, -⟩
  unfold star
  rw [hRest, List.length_cons, atMost, paths_set, if_pos h,
    if_pos rfl, List.flatMap_singleton, Place.rest_next hRest]

theorem star_set_of_not_sees
    {p : Place}
    (h : p.sees chars = false) :
    star (set chars).paths true p = [p] := by
  unfold star
  cases p.rest.length with
  | zero => rfl
  | succ count =>
      rw [atMost, paths_set, h]
      rfl

/-
  A greedy loop over a set leads past all its characters
  first. Everywhere else it could have gone on.
-/
theorem star_set_eq_cons (chars : CharSet) (p : Place) :
    ∃ others,
      star (set chars).paths true p =
        p.past chars :: others ∧
      ∀ q ∈ others, q.sees chars = true := by
  generalize hRest : p.rest = rest
  induction rest generalizing p with
  | nil =>
      have hNot : p.sees chars = false := by
        simp [Place.sees, hRest]
      refine ⟨[], ?_, by simp⟩
      rw [star_set_of_not_sees hNot,
        Place.past_of_not_sees hNot]
  | cons c rest ih =>
      cases hSees : p.sees chars with
      | false =>
          refine ⟨[], ?_, by simp⟩
          rw [star_set_of_not_sees hSees,
            Place.past_of_not_sees hSees]
      | true =>
          rcases ih p.next (Place.rest_next hRest) with
            ⟨others, hStar, hOthers⟩
          refine ⟨others ++ [p], ?_, ?_⟩
          · rw [star_set_of_sees hSees, hStar,
              Place.past_next hSees]
            rfl
          · intro q hq
            rcases List.mem_append.mp hq with hq | hq
            · exact hOthers q hq
            · rw [List.mem_singleton.mp hq]
              exact hSees

theorem head?_star (chars : CharSet) (p : Place) :
    (star (set chars).paths true p).head? =
      some (p.past chars) := by
  rcases star_set_eq_cons chars p with
    ⟨others, hStar, -⟩
  rw [hStar]
  rfl

/-
  If nothing leads on from where the loop could have gone
  on, only the end of it matters.
-/
theorem star_flatMap
    {f : Place → List Place}
    (hDead : ∀ q, q.sees chars = true → f q = [])
    (p : Place) :
    (star (set chars).paths true p).flatMap f =
      f (p.past chars) := by
  rcases star_set_eq_cons chars p with
    ⟨others, hStar, hOthers⟩
  have hNone : others.flatMap f = [] := by
    rw [List.flatMap_eq_nil_iff]
    exact fun q hq => hDead q (hOthers q hq)
  rw [hStar, List.flatMap_cons, hNone, List.append_nil]

end Regex

------------------------------------------------------------
-- Rules
------------------------------------------------------------

namespace Rule

open Regex

variable {r : Rule Pattern}
variable {a : Regex}

/- A rule whose expression has no path does not fire. -/
theorem apply_of_paths_nil
    (hPattern : r.pattern = Pattern.regex (anchored a))
    (hSimple : a.simple = true)
    {line : Text}
    (hNone : a.paths (Place.first line) = []) :
    r.apply line = none := by
  cases hApply : r.apply line with
  | none => rfl
  | some hit =>
      have hLength := matchLength_of_apply hApply
      rw [hPattern, Pattern.matchLength,
        find_anchored_eq hSimple, hNone] at hLength
      cases hLength

/- A rule takes the text that its first path leads beyond. -/
theorem apply_of_head?_paths
    {label : Option Label}
    (hPattern : r.pattern = Pattern.regex (anchored a))
    (hLabelling : r.labelling = Labelling.whole label)
    (hSimple : a.simple = true)
    {s u : Text}
    (hs : s ≠ [])
    (hHead :
      (a.paths (Place.first (s ++ u))).head? =
        some ((Place.first (s ++ u)).beyond s)) :
    r.apply (s ++ u) = some ⟨s.length, [⟨label, s⟩]⟩ := by
  rw [apply_whole hLabelling, hPattern, Pattern.matchLength,
    find_anchored_eq hSimple, hHead]
  simp [Match.stop, Place.first, hs]

/- A rule with groups cuts up the first path. -/
theorem apply_captures
    {groups : List (Nat × Option Label)}
    (hPattern : r.pattern = Pattern.regex (anchored a))
    (hLabelling : r.labelling = Labelling.captures groups)
    (hSimple : a.simple = true)
    (line : Text) :
    r.apply line =
      (a.paths (Place.first line)).head?.bind fun q =>
        if q.pos = 0 then none
        else some ⟨q.pos, Hit.cut line ⟨0, q⟩ 0 groups⟩ := by
  rcases r with ⟨pattern, labelling, next, indents, dedents⟩
  cases hPattern
  cases hLabelling
  simp only [apply]
  rw [find_anchored_eq hSimple]
  cases (a.paths (Place.first line)).head? <;> rfl

end Rule

end Highlighter

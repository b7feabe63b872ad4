import Highlighter.Proofs.Regex.Spelling

/-
  Expressions that have no choice about a text ahead, or that
  prefer to read it.

  Key definitions include:
    * `Regex.Takes`
    * `Regex.Misses`
    * `Regex.Prefers`

  Main statements:
    * `Regex.Takes.cat` and `Regex.takes_times`
    * `Regex.Prefers.cat`
    * `Regex.Prefers.left` and `Regex.Prefers.right`
-/

namespace Highlighter

namespace Regex

------------------------------------------------------------
-- Single paths
------------------------------------------------------------

/- Where a text is ahead, the only path is the one over it. -/
def Takes (a : Regex) (s : Text) : Prop :=
  ∀ p u, p.rest = s ++ u → a.paths p = [p.beyond s]

/- Where a text is ahead there is no path. -/
def Misses (a : Regex) (s : Text) : Prop :=
  ∀ p u, p.rest = s ++ u → a.paths p = []

/- Where a text is ahead, the first path is the one over it. -/
def Prefers (a : Regex) (s : Text) : Prop :=
  ∀ p u, p.rest = s ++ u →
    (a.paths p).head? = some (p.beyond s)

section

variable {a b : Regex}
variable {s u : Text}

theorem Takes.prefers (h : Takes a s) : Prefers a s := by
  intro p u hRest
  rw [h p u hRest]
  rfl

------------------------------------------------------------
-- Characters
------------------------------------------------------------

theorem takes_set
    {chars : CharSet}
    {c : Char}
    (h : chars.contains c = true) : Takes (set chars) [c] := by
  intro p u hRest
  have hCons : p.rest = c :: u := hRest
  rw [paths_set, Place.sees_cons hCons, if_pos h,
    Place.next_cons hCons]

theorem misses_set
    {chars : CharSet}
    {c : Char}
    (h : chars.contains c = false)
    (s : Text) : Misses (set chars) (c :: s) := by
  intro p u hRest
  have hCons : p.rest = c :: (s ++ u) := hRest
  rw [paths_set, Place.sees_cons hCons, h]
  rfl

theorem takes_char (c : Char) : Takes (char c) [c] :=
  takes_set (by rw [CharSet.contains_single, beq_self_eq_true])

theorem misses_char
    {c d : Char}
    (h : d ≠ c)
    (s : Text) : Misses (char c) (d :: s) := by
  apply misses_set
  rw [CharSet.contains_single, beq_eq_false_iff_ne]
  exact h.symm

------------------------------------------------------------
-- Sequences
------------------------------------------------------------

/- After the only path of one expression the other goes on. -/
theorem Takes.paths_cat
    (ha : Takes a s)
    (b : Regex)
    {p : Place}
    (hRest : p.rest = s ++ u) :
    (cat a b).paths p = b.paths (p.beyond s) := by
  rw [paths, ha p u hRest, List.flatMap_singleton]

theorem Takes.cat
    (ha : Takes a s)
    (hb : Takes b u) : Takes (Regex.cat a b) (s ++ u) := by
  intro p v hRest
  rw [List.append_assoc] at hRest
  rw [ha.paths_cat b hRest, hb _ v (Place.rest_beyond hRest),
    Place.beyond_append]

theorem Prefers.cat
    (ha : Takes a s)
    (hb : Prefers b u) : Prefers (Regex.cat a b) (s ++ u) := by
  intro p v hRest
  rw [List.append_assoc] at hRest
  rw [ha.paths_cat b hRest, hb _ v (Place.rest_beyond hRest),
    Place.beyond_append]

theorem Misses.cat
    (ha : Misses a s)
    (b : Regex) : Misses (Regex.cat a b) s := by
  intro p u hRest
  rw [paths, ha p u hRest]
  rfl

theorem Misses.after
    (hb : Misses b u)
    (ha : Takes a s) : Misses (Regex.cat a b) (s ++ u) := by
  intro p v hRest
  rw [List.append_assoc] at hRest
  rw [ha.paths_cat b hRest, hb _ v (Place.rest_beyond hRest)]

------------------------------------------------------------
-- Choices and loops
------------------------------------------------------------

theorem Takes.left
    (ha : Takes a s)
    (hb : Misses b s) : Takes (Regex.alt a b) s := by
  intro p u hRest
  rw [paths, ha p u hRest, hb p u hRest, List.append_nil]

theorem Takes.right
    (ha : Misses a s)
    (hb : Takes b s) : Takes (Regex.alt a b) s := by
  intro p u hRest
  rw [paths, ha p u hRest, hb p u hRest, List.nil_append]

theorem Misses.alt
    (ha : Misses a s)
    (hb : Misses b s) : Misses (Regex.alt a b) s := by
  intro p u hRest
  rw [paths, ha p u hRest, hb p u hRest, List.append_nil]

theorem Takes.group
    (h : Takes a s) : Takes (Regex.group none a) s := by
  intro p u hRest
  rw [paths, h p u hRest]
  rfl

/- As many characters of a set as there are rounds. -/
theorem takes_times
    {chars : CharSet}
    (hAll : ∀ c ∈ s, chars.contains c = true) :
    Takes (times s.length (some s.length) true (set chars))
      s := by
  intro p u hRest
  have hCopies :
      copies (set chars).paths s.length p = [p.beyond s] := by
    induction s generalizing p with
    | nil => rw [List.length_nil, copies, Place.beyond_nil]
    | cons c s ih =>
        rw [List.forall_mem_cons] at hAll
        have hFirst := takes_set hAll.1 p (s ++ u) hRest
        have hNext : (p.beyond [c]).rest = s ++ u :=
          Place.rest_beyond hRest
        rw [List.length_cons, copies, hFirst,
          List.flatMap_singleton, ih hAll.2 _ hNext,
          Place.beyond_append]
        rfl
  rw [paths, hCopies, List.flatMap_singleton, Nat.sub_self]
  rfl

------------------------------------------------------------
-- Choices with something after them
------------------------------------------------------------

/- What comes after a choice comes after each branch. -/
theorem paths_cat_alt (a b c : Regex) (p : Place) :
    (cat (group none (alt a b)) c).paths p =
      (cat a c).paths p ++ (cat b c).paths p := by
  have hGroup : (group none (alt a b)).paths p =
      a.paths p ++ b.paths p :=
    List.map_id' _
  rw [paths, hGroup, List.flatMap_append]
  rfl

theorem Prefers.left
    {c : Regex}
    (h : Prefers (Regex.cat a c) s)
    (b : Regex) :
    Prefers (Regex.cat (group none (alt a b)) c) s := by
  intro p u hRest
  rw [paths_cat_alt, List.head?_append, h p u hRest]
  rfl

theorem Prefers.right
    {c : Regex}
    (ha : Misses (Regex.cat a c) s)
    (hb : Prefers (Regex.cat b c) s) :
    Prefers (Regex.cat (group none (alt a b)) c) s := by
  intro p u hRest
  rw [paths_cat_alt, ha p u hRest, List.nil_append,
    hb p u hRest]

end

end Regex

end Highlighter

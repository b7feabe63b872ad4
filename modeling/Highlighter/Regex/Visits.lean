/-
  Which choices a search has met, and where. Main
  statements:
    * `Regex.Visits.has_empty`: at first nothing was met.
    * `Regex.Visits.has_mark`: to note a choice at a
      position adds just that.
-/

namespace Highlighter

namespace Regex

/-
  The choices met so far: for each position a row of words,
  in which the bits of the choices met there are set.
-/
abbrev Visits := Array (Array Nat)

namespace Visits

/- The number of choices that a word has bits for. -/
def wordSize : Nat := 32

/- An array with a value in its places up to an index. -/
def reach {α : Type} (i : Nat) (value : α) (a : Array α) :
    Array α :=
  if i < a.size then a
  else a ++ Array.replicate (i + 1 - a.size) value

/- Was a choice met at a position? -/
def has (n pos : Nat) (v : Visits) : Bool :=
  let row := v[pos]?.getD #[]
  let word := row[n / wordSize]?.getD 0
  word.testBit (n % wordSize)

/- Note that a choice was met at a position. -/
def mark (n pos : Nat) (v : Visits) : Visits :=
  (reach pos #[] v).modify pos fun row =>
    (reach (n / wordSize) 0 row).modify (n / wordSize)
      fun word => word ||| 1 <<< (n % wordSize)

------------------------------------------------------------
-- What is noted
------------------------------------------------------------

/- More places change nothing that can be looked up. -/
theorem getD_reach
    {α : Type}
    (i j : Nat)
    (value : α)
    (a : Array α) :
    (reach i value a)[j]?.getD value = a[j]?.getD value := by
  unfold reach
  split
  · rfl
  · simp only [Array.getElem?_append,
      Array.getElem?_replicate]
    split
    · rfl
    · rw [Array.getElem?_eq_none (by omega)]
      split <;> rfl

/- The index lies among the places afterwards. -/
theorem lt_size_reach
    {α : Type}
    (i : Nat)
    (value : α)
    (a : Array α) : i < (reach i value a).size := by
  unfold reach
  split
  · assumption
  · simp only [Array.size_append, Array.size_replicate]
    omega

/- To change one place changes what is looked up there. -/
theorem getD_modify
    {α : Type}
    (i j : Nat)
    (f : α → α)
    (value : α)
    (a : Array α)
    (h : i < a.size) :
    (a.modify i f)[j]?.getD value =
      if i = j then f (a[j]?.getD value)
      else a[j]?.getD value := by
  rw [Array.getElem?_modify]
  split
  · rename_i hij
    subst hij
    simp [h]
  · rfl

/- To set a bit of a word sets just that one. -/
theorem testBit_set (word i j : Nat) :
    (word ||| 1 <<< i).testBit j =
      (word.testBit j || decide (j = i)) := by
  rw [Nat.testBit_or, Nat.one_shiftLeft,
    Nat.testBit_two_pow]
  simp [eq_comm]

/- Numbers with the same word and bit are the same. -/
theorem eq_of_div_eq_of_mod_eq
    {m n : Nat}
    (hdiv : n / wordSize = m / wordSize)
    (hmod : m % wordSize = n % wordSize) : m = n := by
  have hm := Nat.div_add_mod m wordSize
  have hn := Nat.div_add_mod n wordSize
  rw [hdiv] at hn
  omega

/- At first nothing was met. -/
theorem has_empty (n pos : Nat) :
    has n pos #[] = false := by
  simp [has]

/- To note a choice at a position adds just that. -/
theorem has_mark (n pos m q : Nat) (v : Visits) :
    (v.mark n pos).has m q =
      (v.has m q || decide (m = n ∧ q = pos)) := by
  unfold mark has
  simp only [getD_reach,
    getD_modify pos q _ #[] _ (lt_size_reach pos #[] v)]
  by_cases hpos : pos = q
  · subst hpos
    rw [if_pos rfl,
      getD_modify _ _ _ _ _ (lt_size_reach _ _ _),
      getD_reach]
    by_cases hdiv : n / wordSize = m / wordSize
    · have hmod : m % wordSize = n % wordSize ↔ m = n :=
        ⟨eq_of_div_eq_of_mod_eq hdiv, fun h => by rw [h]⟩
      rw [if_pos hdiv, testBit_set]
      simp [hmod]
    · have hne : m ≠ n := fun h => hdiv (by rw [h])
      rw [if_neg hdiv]
      simp [hne]
  · have hne : q ≠ pos := fun h => hpos h.symm
    rw [if_neg hpos]
    simp [hne]

end Visits

end Regex

end Highlighter

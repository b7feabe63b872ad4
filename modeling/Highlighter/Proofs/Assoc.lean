import Highlighter.Assoc
import Mathlib.Data.List.Nodup
import Mathlib.Data.List.Perm.Basic

/-
  Values by name: what is found after a value was given, and
  names in order.

  Main statements:
    * `Assoc.get?_eq_none_iff`
    * `Assoc.get?_put`
    * `Assoc.get?_eq_some_iff`
    * `Assoc.put_new`
    * `Assoc.put_append`
    * `sortNames_eq_of_mem_iff`
-/

namespace Highlighter

namespace Assoc

variable
  {α : Type}
  {entries : Assoc α}
  {key : String}

/- Names without a value are not among those with one. -/
theorem get?_eq_none_iff :
    get? key entries = none ↔ key ∉ keys entries := by
  induction entries with
  | nil => simp [get?, keys]
  | cons entry entries ih =>
      rcases entry with ⟨k, a⟩
      by_cases hKey : k = key
      · simp [get?, keys, hKey]
      · rw [get?, if_neg hKey, ih]
        simp [keys, Ne.symm hKey]

/- A name has a value if it is among those with one. -/
theorem isSome_get?_iff :
    (get? key entries).isSome ↔ key ∈ keys entries := by
  rw [← not_iff_not, ← get?_eq_none_iff,
    Option.not_isSome_iff_eq_none]

/- The value given is found, and all others are as before. -/
theorem get?_put
    (other : String)
    (a : α) :
    get? other (put key a entries) =
      if key = other then some a else get? other entries := by
  induction entries with
  | nil => rfl
  | cons entry entries ih =>
      rcases entry with ⟨k, b⟩
      by_cases hKey : k = key
      · subst hKey
        rw [put, if_pos rfl, get?, get?]
        by_cases hOther : k = other
        · rw [if_pos hOther, if_pos hOther]
        · rw [if_neg hOther, if_neg hOther, if_neg hOther]
      · rw [put, if_neg hKey, get?, ih, get?]
        by_cases hOther : k = other
        · subst hOther
          rw [if_pos rfl, if_pos rfl, if_neg (Ne.symm hKey)]
        · rw [if_neg hOther, if_neg hOther]

/- No name but the one that gets a value is added. -/
theorem mem_keys_put
    {a : α}
    {other : String} :
    other ∈ keys (put key a entries) ↔
      key = other ∨ other ∈ keys entries := by
  rw [← isSome_get?_iff, get?_put, ← isSome_get?_iff]
  by_cases hOther : key = other <;> simp [hOther]

/- All other entries were there before. -/
theorem mem_of_mem_put
    {a : α}
    {entry : String × α}
    (h : entry ∈ put key a entries) :
    entry = (key, a) ∨ entry ∈ entries := by
  induction entries with
  | nil => exact Or.inl (List.mem_singleton.mp h)
  | cons first entries ih =>
      rcases first with ⟨k, b⟩
      unfold put at h
      split at h
      · rcases List.mem_cons.mp h with hNew | hOld
        · exact Or.inl hNew
        · exact Or.inr (List.mem_cons_of_mem _ hOld)
      · rcases List.mem_cons.mp h with hFirst | hRest
        · exact Or.inr (hFirst ▸ List.mem_cons_self ..)
        · exact (ih hRest).imp_right (List.mem_cons_of_mem _)

/- Names stay distinct. -/
theorem nodup_keys_put
    (h : (keys entries).Nodup)
    (a : α) : (keys (put key a entries)).Nodup := by
  induction entries with
  | nil => exact List.nodup_singleton key
  | cons entry entries ih =>
      rcases entry with ⟨k, b⟩
      rcases List.nodup_cons.mp h with ⟨hNew, hRest⟩
      by_cases hKey : k = key
      · subst hKey
        rw [put, if_pos rfl]
        exact h
      · rw [put, if_neg hKey]
        refine List.nodup_cons.mpr ⟨?_, ih hRest⟩
        intro hMem
        rcases mem_keys_put.mp hMem with hEq | hOld
        · exact hKey hEq.symm
        · exact hNew hOld

/- What is found is an entry. -/
theorem mem_of_get?_eq_some
    {a : α}
    (h : get? key entries = some a) : (key, a) ∈ entries := by
  induction entries with
  | nil => cases h
  | cons entry entries ih =>
      rcases entry with ⟨k, b⟩
      unfold get? at h
      split at h
      · rename_i hKey
        cases hKey
        cases h
        exact List.mem_cons_self ..
      · exact List.mem_cons_of_mem _ (ih h)

/- Of distinct names each has the value of its entry. -/
theorem get?_eq_some_iff
    (hKeys : (keys entries).Nodup)
    {a : α} :
    get? key entries = some a ↔ (key, a) ∈ entries := by
  refine ⟨mem_of_get?_eq_some, fun hMem => ?_⟩
  induction entries with
  | nil => cases hMem
  | cons entry entries ih =>
      rcases entry with ⟨k, b⟩
      rcases List.nodup_cons.mp hKeys with ⟨hNew, hRest⟩
      rcases List.mem_cons.mp hMem with hFirst | hLater
      · cases hFirst
        rw [get?, if_pos rfl]
      · have hKey : k ≠ key := by
          rintro rfl
          exact hNew (List.mem_map.mpr ⟨_, hLater, rfl⟩)
        rw [get?, if_neg hKey]
        exact ih hRest hLater

theorem get?_append
    (h : key ∉ keys entries)
    (a : α)
    (rest : Assoc α) :
    get? key (entries ++ (key, a) :: rest) = some a := by
  induction entries with
  | nil => simp [get?]
  | cons entry entries ih =>
      rcases entry with ⟨k, b⟩
      simp only [keys, List.map_cons, List.mem_cons, not_or]
        at h
      rw [List.cons_append, get?, if_neg (Ne.symm h.1)]
      exact ih h.2

/- A name that is new comes last. -/
theorem put_new
    (h : key ∉ keys entries)
    (a : α) : put key a entries = entries ++ [(key, a)] := by
  induction entries with
  | nil => rfl
  | cons entry entries ih =>
      rcases entry with ⟨k, b⟩
      simp only [keys, List.map_cons, List.mem_cons, not_or]
        at h
      rw [put, if_neg (Ne.symm h.1), ih h.2, List.cons_append]

/- A value that is replaced keeps its place. -/
theorem put_append
    (h : key ∉ keys entries)
    (a b : α)
    (rest : Assoc α) :
    put key b (entries ++ (key, a) :: rest) =
      entries ++ (key, b) :: rest := by
  induction entries with
  | nil => simp [put]
  | cons entry entries ih =>
      rcases entry with ⟨k, c⟩
      simp only [keys, List.map_cons, List.mem_cons, not_or]
        at h
      rw [List.cons_append, put, if_neg (Ne.symm h.1), ih h.2,
        List.cons_append]

end Assoc

/- Nothing gets lost or added by putting names in order. -/
theorem mem_sortNames
    {names : List String}
    {name : String} : name ∈ sortNames names ↔ name ∈ names :=
  List.mem_mergeSort

/- Distinct names in order are told by what is among them. -/
theorem sortNames_eq_of_mem_iff
    {names names' : List String}
    (hNodup : names.Nodup)
    (hNodup' : names'.Nodup)
    (h : ∀ name, name ∈ names ↔ name ∈ names') :
    sortNames names = sortNames names' := by
  have hTotal : ∀ a b : String,
      (decide (a ≤ b) || decide (b ≤ a)) = true := by
    intro a b
    simpa using String.le_total a b
  have hTrans : ∀ a b c : String, decide (a ≤ b) = true →
      decide (b ≤ c) = true → decide (a ≤ c) = true := by
    intro a b c hab hbc
    simp only [decide_eq_true_eq] at hab hbc ⊢
    exact String.le_trans hab hbc
  have hPerm : (sortNames names).Perm (sortNames names') :=
    (List.mergeSort_perm _ _).trans
      (((List.perm_ext_iff_of_nodup hNodup hNodup').mpr h).trans
        (List.mergeSort_perm _ _).symm)
  refine hPerm.eq_of_pairwise ?_
    (List.pairwise_mergeSort hTrans hTotal names)
    (List.pairwise_mergeSort hTrans hTotal names')
  intro a b _ _ hab hba
  exact String.le_antisymm (of_decide_eq_true hab)
    (of_decide_eq_true hba)

end Highlighter

import Highlighter.Data
import Highlighter.Proofs.Assoc

/-
  Values and records in structured data: what is read is
  what the data has, and tables that give each key once.

  Key definitions include:
    * `Data.KeyedOnce`
    * `Data.HasEntry`
    * `Data.IsSection`
    * `Data.Field`

  Main statements:
    * `Data.size?_eq_some_iff`
    * `Data.texts?_eq_some_iff`
    * `Data.exists_record?_iff`
    * `Data.Record.optional_eq_some_iff`
-/

namespace Highlighter

------------------------------------------------------------
-- Values
------------------------------------------------------------

namespace Data

variable
  {d v : Data}

theorem text?_eq_some_iff
    {s : String} : v.text? = some s ↔ v = text s := by
  cases v <;> simp [text?]

theorem bool?_eq_some_iff
    {b : Bool} : v.bool? = some b ↔ v = bool b := by
  cases v <;> simp [bool?]

/- Numbers of 64 bits are read from data as they are. -/
theorem size?_int
    {n : Nat}
    (h : n < 0x10000000000000000) :
    size? (int n) = some n := by
  have hBounds :
      0 ≤ (n : Int) ∧
        (n : Int) < (0x10000000000000000 : Nat) := by
    omega
  rw [size?, natBelow?, if_pos hBounds, Int.toNat_natCast]

theorem size?_eq_some_iff
    {n : Nat} :
    v.size? = some n ↔ v = int n ∧ n < 0x10000000000000000 := by
  constructor
  · intro h
    unfold size? natBelow? at h
    split at h
    · rename_i m
      split at h
      · rename_i hBounds
        have hNat : m.toNat = n := Option.some.inj h
        have hInt : m = (n : Int) := by omega
        refine ⟨congrArg int hInt, ?_⟩
        omega
      · cases h
    · cases h
  · rintro ⟨rfl, hBound⟩
    exact size?_int hBound

theorem texts?_map (entries : Assoc String) :
    texts? (map (entries.map fun e => (e.1, text e.2))) =
      some entries := by
  induction entries with
  | nil => rfl
  | cons entry entries ih =>
      simp only [texts?] at ih ⊢
      rw [List.map_cons, List.mapM_cons, ih]
      rfl

theorem texts?_eq_some_iff
    {texts : Assoc String} :
    v.texts? = some texts ↔
      v = map (texts.map fun e => (e.1, text e.2)) := by
  constructor
  · intro h
    unfold texts? at h
    split at h
    · rename_i entries
      congr 1
      induction entries generalizing texts with
      | nil =>
          cases h
          rfl
      | cons entry entries ih =>
          rcases entry with ⟨key, w⟩
          simp only [List.mapM_cons, Option.bind_eq_bind,
            Option.bind_eq_some_iff, Option.map_eq_some_iff]
            at h
          rcases h with
            ⟨_, ⟨s, hText, rfl⟩, more, hMore, hTexts⟩
          cases hTexts
          rw [text?_eq_some_iff.mp hText, ih hMore,
            List.map_cons]
    · cases h
  · rintro rfl
    exact texts?_map texts

------------------------------------------------------------
-- Tables
------------------------------------------------------------

/- In no table of the data a key stands twice. -/
inductive KeyedOnce : Data → Prop
  | null : KeyedOnce null
  | bool (b : Bool) : KeyedOnce (bool b)
  | int (n : Int) : KeyedOnce (int n)
  | real : KeyedOnce real
  | text (s : String) : KeyedOnce (text s)
  | list
      {items : List Data}
      (hItems : ∀ d ∈ items, KeyedOnce d) :
      KeyedOnce (list items)
  | map
      {entries : List (String × Data)}
      (hKeys : (Assoc.keys entries).Nodup)
      (hValues : ∀ e ∈ entries, KeyedOnce e.2) :
      KeyedOnce (map entries)

/- An entry of a table. -/
def HasEntry (d : Data) (key : String) (v : Data) : Prop :=
  ∃ entries, d = map entries ∧ (key, v) ∈ entries

theorem hasEntry_map
    {entries : List (String × Data)}
    {key : String} :
    (map entries).HasEntry key v ↔ (key, v) ∈ entries := by
  simp [HasEntry]

theorem HasEntry.keyedOnce
    {key : String}
    (h : d.HasEntry key v)
    (hKeyed : d.KeyedOnce) : v.KeyedOnce := by
  rcases h with ⟨entries, rfl, hMem⟩
  cases hKeyed with
  | map _ hValues => exact hValues _ hMem

/- A key stands for one value. -/
theorem HasEntry.unique
    {key : String}
    {w : Data}
    (h : d.HasEntry key v)
    (h' : d.HasEntry key w)
    (hKeyed : d.KeyedOnce) : v = w := by
  rcases h with ⟨entries, rfl, hMem⟩
  rcases h' with ⟨entries', hEntries, hMem'⟩
  cases hEntries
  cases hKeyed with
  | map hKeys _ =>
      rw [← Assoc.get?_eq_some_iff hKeys] at hMem hMem'
      exact Option.some.inj (hMem.symm.trans hMem')

------------------------------------------------------------
-- Fields
------------------------------------------------------------

/- What the fields of a record may be given in. -/
inductive IsSection : Data → Prop
  | table (entries : List (String × Data)) :
      IsSection (map entries)
  | array (items : List Data) : IsSection (list items)

/-
  A field has a value: under its key in a table, or at its
  place in an array.
-/
inductive Field
    (key : String)
    (place : Nat) : Data → Data → Prop
  | entry
      {entries : List (String × Data)}
      {v : Data}
      (h : (key, v) ∈ entries) :
      Field key place (map entries) v
  | item
      {items : List Data}
      {v : Data}
      (h : items[place]? = some v) :
      Field key place (list items) v

/- A field has one value. -/
theorem Field.unique
    {key : String}
    {place : Nat}
    {w : Data}
    (h : d.Field key place v)
    (h' : d.Field key place w)
    (hKeyed : d.KeyedOnce) : v = w := by
  cases h with
  | entry hMem =>
      cases h' with
      | entry hMem' =>
          exact HasEntry.unique ⟨_, rfl, hMem⟩ ⟨_, rfl, hMem'⟩
            hKeyed
  | item hItem =>
      cases h' with
      | item hItem' =>
          exact Option.some.inj (hItem.symm.trans hItem')

section

variable
  {names : List String}
  {r : Record}

theorem isSection_iff_exists_record?
    (names : List String) :
    d.IsSection ↔ ∃ r, d.record? false names = some r := by
  constructor
  · rintro (entries | items)
    · exact ⟨entries, rfl⟩
    · exact ⟨names.zip items, rfl⟩
  · rintro ⟨r, h⟩
    unfold record? at h
    split at h
    · exact IsSection.table _
    · exact IsSection.array _
    · cases h

/- A place has a name, and a name has one place. -/
theorem mem_zip_iff
    (hNames : names.Nodup)
    {place : Nat}
    {key : String}
    (hKey : names[place]? = some key)
    {items : List Data} :
    (key, v) ∈ names.zip items ↔ items[place]? = some v := by
  rw [List.mem_iff_getElem?]
  simp only [List.getElem?_zip_eq_some]
  constructor
  · rintro ⟨i, hName, hItem⟩
    have hBound : i < names.length :=
      (List.getElem?_eq_some_iff.mp hName).1
    have hPlace : i = place :=
      (List.getElem?_inj hBound hNames).mp
        (hName.trans hKey.symm)
    exact hPlace ▸ hItem
  · exact fun hItem => ⟨place, hKey, hItem⟩

/- The fields are read as they are given. -/
theorem mem_record?_iff
    (hRecord : d.record? false names = some r)
    (hNames : names.Nodup)
    {place : Nat}
    {key : String}
    (hKey : names[place]? = some key) :
    (key, v) ∈ r ↔ d.Field key place v := by
  rcases (isSection_iff_exists_record? names).mpr ⟨r, hRecord⟩
    with entries | items
  · cases hRecord
    exact ⟨Field.entry, fun h => by cases h; assumption⟩
  · cases hRecord
    rw [mem_zip_iff hNames hKey]
    exact ⟨Field.item, fun h => by cases h; assumption⟩

/- And none is read twice. -/
theorem nodup_keys_record?
    (hRecord : d.record? false names = some r)
    (hNames : names.Nodup)
    (hKeyed : d.KeyedOnce) : (Assoc.keys r).Nodup := by
  rcases (isSection_iff_exists_record? names).mpr ⟨r, hRecord⟩
    with entries | items
  · cases hRecord
    cases hKeyed
    assumption
  · cases hRecord
    rw [Assoc.keys, List.zip_eq_zip_take_min,
      List.map_fst_zip (by simp)]
    exact hNames.sublist (List.take_sublist ..)

/-
  An optional field is the value that is given for it, or
  its fallback if none is.
-/
theorem Record.optional_eq_some_iff
    {α : Type}
    (hKeys : (Assoc.keys r).Nodup)
    {name : String}
    {decode : Data → Option α}
    {fallback a : α} :
    r.optional name decode fallback = some a ↔
      (∀ v, (name, v) ∈ r → decode v = some a) ∧
        ((∀ v, (name, v) ∉ r) → fallback = a) := by
  simp only [← Assoc.get?_eq_some_iff hKeys]
  unfold optional
  cases Assoc.get? name r <;> simp

/-
  A section that is read has the fields of a record, and
  each is read as it is given.
-/
theorem exists_record?_iff
    (names : List String)
    {P : Record → Prop}
    {Q : Prop}
    (h : ∀ r, d.record? false names = some r → (P r ↔ Q)) :
    (∃ r, d.record? false names = some r ∧ P r) ↔
      d.IsSection ∧ Q := by
  rw [isSection_iff_exists_record? names]
  constructor
  · rintro ⟨r, hRecord, hFields⟩
    exact ⟨⟨r, hRecord⟩, (h r hRecord).mp hFields⟩
  · rintro ⟨⟨r, hRecord⟩, hQ⟩
    exact ⟨r, hRecord, (h r hRecord).mpr hQ⟩

end

end Data

end Highlighter

import Highlighter.Proofs.Data
import Highlighter.Proofs.Toml.Documents

/-
  A document gives each key of a table once: what is read
  from a text has no table, however deep, in which a key
  stands twice.

  Key definitions include:
    * `Toml.Item.KeyedOnce`
    * `Toml.KeyedOnce`

  Main statements:
    * `Toml.keyedOnce_insert`
    * `Toml.keyedOnce_addSections`
    * `Toml.keyedOnce_readValue`
    * `Toml.keyedOnce_read`
-/

namespace Highlighter

namespace Toml

------------------------------------------------------------
-- Tables as they are put together
------------------------------------------------------------

/- And in no table of an item. -/
inductive Item.KeyedOnce : Item → Prop
  | value
      {d : Data}
      (hData : d.KeyedOnce) : KeyedOnce (value d)
  | table
      {origin : Origin}
      {entries : Entries}
      (hKeys : (Assoc.keys entries).Nodup)
      (hItems : ∀ e ∈ entries, KeyedOnce e.2) :
      KeyedOnce (table origin entries)
  | tables
      {elements : List Entries}
      (hKeys : ∀ entries ∈ elements,
        (Assoc.keys entries).Nodup)
      (hItems : ∀ entries ∈ elements,
        ∀ e ∈ entries, KeyedOnce e.2) :
      KeyedOnce (tables elements)

/- And in no table among entries or in them. -/
structure KeyedOnce (entries : Entries) : Prop where
  keys : (Assoc.keys entries).Nodup
  items : ∀ e ∈ entries, e.2.KeyedOnce

theorem keyedOnce_nil : KeyedOnce [] :=
  ⟨List.nodup_nil, fun _ he => absurd he List.not_mem_nil⟩

section

variable
  {entries inner : Entries}
  {key : String}
  {item : Item}

theorem KeyedOnce.table
    (h : KeyedOnce entries)
    (origin : Origin) :
    (Item.table origin entries).KeyedOnce :=
  Item.KeyedOnce.table h.keys h.items

/- An item under a key is one of the entries. -/
theorem KeyedOnce.of_item?
    (h : KeyedOnce entries)
    (hItem : item? key entries = some item) :
    item.KeyedOnce :=
  h.items _ (Assoc.mem_of_get?_eq_some hItem)

theorem KeyedOnce.of_table
    (h : KeyedOnce entries)
    {origin : Origin}
    (hItem :
      item? key entries = some (Item.table origin inner)) :
    KeyedOnce inner := by
  cases h.of_item? hItem with
  | table hKeys hItems => exact ⟨hKeys, hItems⟩

/- So is each table of an array under it. -/
theorem KeyedOnce.of_tables
    (h : KeyedOnce entries)
    {elements : List Entries}
    (hItem : item? key entries = some (Item.tables elements)) :
    ∀ inner ∈ elements, KeyedOnce inner := by
  cases h.of_item? hItem with
  | tables hKeys hItems =>
      exact fun inner hInner =>
        ⟨hKeys inner hInner, hItems inner hInner⟩

theorem keyedOnce_tables
    {elements : List Entries}
    (h : ∀ inner ∈ elements, KeyedOnce inner) :
    (Item.tables elements).KeyedOnce :=
  Item.KeyedOnce.tables
    (fun inner hInner => (h inner hInner).keys)
    fun inner hInner => (h inner hInner).items

/- An item may be put under any key. -/
theorem KeyedOnce.setItem
    (h : KeyedOnce entries)
    (key : String)
    (hItem : item.KeyedOnce) :
    KeyedOnce (setItem key item entries) := by
  refine ⟨Assoc.nodup_keys_put h.keys item, ?_⟩
  intro e he
  rcases Assoc.mem_of_mem_put he with rfl | hOld
  · exact hItem
  · exact h.items e hOld

/- The last table of an array may be replaced. -/
theorem KeyedOnce.setLast
    (h : KeyedOnce entries)
    {last : Entries}
    {others : List Entries}
    (hItem :
      item? key entries = some (Item.tables (last :: others)))
    (hInner : KeyedOnce inner) :
    KeyedOnce
      (Toml.setItem key (Item.tables (inner :: others))
        entries) := by
  apply h.setItem
  apply keyedOnce_tables
  intro element hElement
  rcases List.mem_cons.mp hElement with rfl | hOther
  · exact hInner
  · exact h.of_tables hItem element
      (List.mem_cons_of_mem _ hOther)

/- An item gets under a new key at the end of a path. -/
theorem keyedOnce_insert
    (hItem : item.KeyedOnce)
    {path : List String}
    {entries entries' : Entries}
    (h : KeyedOnce entries)
    (hInsert : insert key item path entries = some entries') :
    KeyedOnce entries' := by
  induction path generalizing entries entries' with
  | nil =>
      unfold insert at hInsert
      split at hInsert
      · cases hInsert
      · cases hInsert
        exact h.setItem key hItem
  | cons k path ih =>
      cases path with
      | nil =>
          unfold insert at hInsert
          split at hInsert
          · cases hInsert
            have hOne : KeyedOnce [(key, item)] :=
              keyedOnce_nil.setItem key hItem
            exact h.setItem k (hOne.table _)
          · rename_i inner hInner
            rcases Option.map_eq_some_iff.mp hInsert with
              ⟨inner', hInner', rfl⟩
            exact h.setItem k
              ((ih (h.of_table hInner) hInner').table _)
          · cases hInsert
      | cons next path =>
          unfold insert at hInsert
          split at hInsert
          · rcases Option.map_eq_some_iff.mp hInsert with
              ⟨inner', hInner', rfl⟩
            exact h.setItem k
              ((ih keyedOnce_nil hInner').table _)
          · cases hInsert
          · rename_i origin inner _ hInner
            rcases Option.map_eq_some_iff.mp hInsert with
              ⟨inner', hInner', rfl⟩
            exact h.setItem k
              ((ih (h.of_table hInner) hInner').table _)
          · rename_i last others hTables
            rcases Option.map_eq_some_iff.mp hInsert with
              ⟨last', hLast', rfl⟩
            have hLast := h.of_tables hTables last
              (List.mem_cons_self ..)
            exact h.setLast hTables (ih hLast hLast')
          · cases hInsert

/- Pairs get into a table one by one. -/
theorem keyedOnce_insertAll
    {pairs : List Pair}
    (hPairs : ∀ p ∈ pairs, p.value.KeyedOnce)
    {entries entries' : Entries}
    (h : KeyedOnce entries)
    (hInsert : insertAll pairs entries = some entries') :
    KeyedOnce entries' := by
  induction pairs generalizing entries with
  | nil =>
      cases hInsert
      exact h
  | cons p pairs ih =>
      rw [List.forall_mem_cons] at hPairs
      unfold insertAll at hInsert
      split at hInsert
      · cases hInsert
      · rename_i first hFirst
        have hValue := Item.KeyedOnce.value hPairs.1
        exact ih hPairs.2 (keyedOnce_insert hValue h hFirst)
          hInsert

/- What a change keeps is kept at the end of a path. -/
theorem keyedOnce_modifyAt
    {change : Entries → Option Entries}
    (hChange : ∀ entries entries', KeyedOnce entries →
      change entries = some entries' → KeyedOnce entries')
    {path : List String}
    {entries entries' : Entries}
    (h : KeyedOnce entries)
    (hModify : modifyAt change path entries = some entries') :
    KeyedOnce entries' := by
  induction path generalizing entries entries' with
  | nil => exact hChange entries entries' h hModify
  | cons k path ih =>
      unfold modifyAt at hModify
      split at hModify
      · rcases Option.map_eq_some_iff.mp hModify with
          ⟨inner', hInner', rfl⟩
        exact h.setItem k
          ((ih keyedOnce_nil hInner').table _)
      · rename_i origin inner hInner
        rcases Option.map_eq_some_iff.mp hModify with
          ⟨inner', hInner', rfl⟩
        exact h.setItem k
          ((ih (h.of_table hInner) hInner').table _)
      · rename_i last others hTables
        rcases Option.map_eq_some_iff.mp hModify with
          ⟨last', hLast', rfl⟩
        have hLast := h.of_tables hTables last
          (List.mem_cons_self ..)
        exact h.setLast hTables (ih hLast hLast')
      · cases hModify

/- A key that is taken away may be put last. -/
theorem KeyedOnce.moveLast
    (h : KeyedOnce entries)
    (key : String)
    (hItem : item.KeyedOnce) :
    KeyedOnce (removeItem key entries ++ [(key, item)]) := by
  have hKept : ∀ e ∈ removeItem key entries,
      e ∈ entries ∧ e.1 ≠ key := by
    intro e he
    simpa [removeItem] using he
  refine ⟨?_, ?_⟩
  · rw [Assoc.keys, List.map_append, List.nodup_append]
    refine ⟨h.keys.sublist (List.filter_sublist.map _),
      List.nodup_singleton key, ?_⟩
    intro k hk k' hk'
    rcases List.mem_map.mp hk with ⟨e, he, rfl⟩
    cases List.mem_singleton.mp hk'
    exact (hKept e he).2
  · intro e he
    rcases List.mem_append.mp he with hOld | hNew
    · exact h.items e (hKept e hOld).1
    · cases List.mem_singleton.mp hNew
      exact hItem

/- The values under a header. -/
def Section.KeyedOnce (s : Section) : Prop :=
  ∀ p ∈ s.pairs, p.value.KeyedOnce

theorem keyedOnce_addTable
    {s : Section}
    (hSection : s.KeyedOnce)
    {entries entries' : Entries}
    (h : KeyedOnce entries)
    (hAdd : addTable s entries = some entries') :
    KeyedOnce entries' := by
  unfold addTable at hAdd
  split at hAdd
  · rcases Option.map_eq_some_iff.mp hAdd with
      ⟨inner, hInner, rfl⟩
    have hTable :=
      keyedOnce_insertAll hSection keyedOnce_nil hInner
    exact h.setItem s.key (hTable.table _)
  · rename_i implied hImplied
    rcases Option.map_eq_some_iff.mp hAdd with
      ⟨inner, hInner, rfl⟩
    have hTable := keyedOnce_insertAll hSection
      (h.of_table hImplied) hInner
    exact h.moveLast s.key (hTable.table _)
  · cases hAdd

theorem keyedOnce_addElement
    {s : Section}
    (hSection : s.KeyedOnce)
    {entries entries' : Entries}
    (h : KeyedOnce entries)
    (hAdd : addElement s entries = some entries') :
    KeyedOnce entries' := by
  unfold addElement at hAdd
  split at hAdd
  · rcases Option.map_eq_some_iff.mp hAdd with
      ⟨inner, hInner, rfl⟩
    have hTable :=
      keyedOnce_insertAll hSection keyedOnce_nil hInner
    apply h.setItem
    apply keyedOnce_tables
    intro element hElement
    cases List.mem_singleton.mp hElement
    exact hTable
  · rename_i elements hElements
    rcases Option.map_eq_some_iff.mp hAdd with
      ⟨inner, hInner, rfl⟩
    have hTable :=
      keyedOnce_insertAll hSection keyedOnce_nil hInner
    apply h.setItem
    apply keyedOnce_tables
    intro element hElement
    rcases List.mem_cons.mp hElement with rfl | hOld
    · exact hTable
    · exact h.of_tables hElements element hOld
  · cases hAdd

/- Sections get into a document one by one. -/
theorem keyedOnce_addSections
    {sections : List Section}
    (hSections : ∀ s ∈ sections, s.KeyedOnce)
    {entries entries' : Entries}
    (h : KeyedOnce entries)
    (hAdd : addSections sections entries = some entries') :
    KeyedOnce entries' := by
  induction sections generalizing entries with
  | nil =>
      cases hAdd
      exact h
  | cons s sections ih =>
      rw [List.forall_mem_cons] at hSections
      unfold addSections at hAdd
      split at hAdd
      · cases hAdd
      · rename_i first hFirst
        refine ih hSections.2 (keyedOnce_modifyAt ?_ h hFirst)
          hAdd
        intro table table' hTable hChange
        split at hChange
        · exact keyedOnce_addElement hSections.1 hTable hChange
        · exact keyedOnce_addTable hSections.1 hTable hChange

------------------------------------------------------------
-- Data
------------------------------------------------------------

theorem entriesData_eq_map (entries : Entries) :
    entriesData entries =
      entries.map fun e => (e.1, e.2.toData) := by
  induction entries with
  | nil => rfl
  | cons entry entries ih => rw [entriesData, ih, List.map_cons]

/- The data of an array is that of its tables. -/
theorem mem_elementsData
    {elements : List Entries}
    {done : List Data}
    {d : Data}
    (h : d ∈ elementsData elements done) :
    d ∈ done ∨
      ∃ entries ∈ elements, d = Data.map (entriesData entries) := by
  induction elements generalizing done with
  | nil => exact Or.inl h
  | cons entries elements ih =>
      rcases ih h with hDone | ⟨other, hOther, rfl⟩
      · rcases List.mem_cons.mp hDone with rfl | hDone
        · exact Or.inr ⟨entries, List.mem_cons_self .., rfl⟩
        · exact Or.inl hDone
      · exact Or.inr
          ⟨other, List.mem_cons_of_mem _ hOther, rfl⟩

/- A table is keyed once as data if it and its items are. -/
theorem keyedOnce_entriesData
    {entries : Entries}
    (hKeys : (Assoc.keys entries).Nodup)
    (hItems : ∀ e ∈ entries, e.2.toData.KeyedOnce) :
    (Data.map (entriesData entries)).KeyedOnce := by
  refine Data.KeyedOnce.map ?_ ?_
  · rw [keys_entriesData]
    exact hKeys
  · rw [entriesData_eq_map]
    intro e he
    rcases List.mem_map.mp he with ⟨entry, hEntry, rfl⟩
    exact hItems entry hEntry

theorem Item.KeyedOnce.toData
    {item : Item}
    (h : item.KeyedOnce) : item.toData.KeyedOnce := by
  induction h with
  | value hData => exact hData
  | table hKeys _ ih => exact keyedOnce_entriesData hKeys ih
  | tables hKeys _ ih =>
      refine Data.KeyedOnce.list ?_
      intro d hd
      rcases mem_elementsData hd with hNone | ⟨entries, hMem, rfl⟩
      · cases hNone
      · exact keyedOnce_entriesData (hKeys entries hMem)
          (ih entries hMem)

theorem KeyedOnce.toData
    (h : KeyedOnce entries) :
    (Data.map (entriesData entries)).KeyedOnce :=
  keyedOnce_entriesData h.keys fun e he =>
    (h.items e he).toData

end

------------------------------------------------------------
-- Scalars
------------------------------------------------------------

section

variable
  {t rest : Text}
  {d : Data}

theorem keyedOnce_integer?
    {n : Int}
    (h : integer? n = some d) : d.KeyedOnce := by
  unfold integer? at h
  split at h
  · cases h
    exact Data.KeyedOnce.int n
  · cases h

theorem keyedOnce_readDecimal
    {negative : Bool}
    (h : readDecimal negative t = some (d, rest)) :
    d.KeyedOnce := by
  simp only [readDecimal, Option.bind_eq_bind,
    Option.bind_eq_some_iff] at h
  rcases h with ⟨⟨whole, _⟩, _, h⟩
  -- with a fraction and without one it goes on alike
  split at h
  all_goals
    simp only [Option.bind_eq_some_iff] at h
    rcases h with ⟨⟨fraction, _⟩, _, ⟨exponent, after⟩, _, h⟩
    split at h
    · rcases Option.bind_eq_some_iff.mp h with
        ⟨d', hInteger, hPair⟩
      cases hPair
      exact keyedOnce_integer? hInteger
    · split at h
      · cases h
      · cases h
        exact Data.KeyedOnce.real

theorem keyedOnce_readUnsigned
    {negative : Bool}
    (h : readUnsigned negative t = some (d, rest)) :
    d.KeyedOnce := by
  unfold readUnsigned at h
  split at h
  · cases h
    exact Data.KeyedOnce.real
  · cases h
    exact Data.KeyedOnce.real
  · exact keyedOnce_readDecimal h

theorem keyedOnce_readBased
    {base : Nat}
    {isDigit : Char → Bool}
    (h : readBased base isDigit t = some (d, rest)) :
    d.KeyedOnce := by
  simp only [readBased, Option.bind_eq_bind,
    Option.bind_eq_some_iff] at h
  rcases h with ⟨⟨digits, _⟩, _, d', hInteger, hPair⟩
  cases hPair
  exact keyedOnce_integer? hInteger

theorem keyedOnce_readNumber
    (h : readNumber t = some (d, rest)) : d.KeyedOnce := by
  unfold readNumber at h
  split at h
  · exact keyedOnce_readUnsigned h
  · exact keyedOnce_readUnsigned h
  · exact keyedOnce_readBased h
  · exact keyedOnce_readBased h
  · exact keyedOnce_readBased h
  · exact keyedOnce_readUnsigned h

/- A date is a table, but one of a single entry. -/
theorem keyedOnce_readScalar
    (h : readScalar t = some (d, rest)) : d.KeyedOnce := by
  unfold readScalar at h
  split at h
  · cases h
  · split at h
    · rcases Option.map_eq_some_iff.mp h with ⟨_, _, hPair⟩
      cases hPair
      exact Data.KeyedOnce.text _
    · split at h
      · rcases Option.map_eq_some_iff.mp h with ⟨_, _, hPair⟩
        cases hPair
        exact Data.KeyedOnce.bool true
      · split at h
        · rcases Option.map_eq_some_iff.mp h with ⟨_, _, hPair⟩
          cases hPair
          exact Data.KeyedOnce.bool false
        · split at h
          · rcases Option.map_eq_some_iff.mp h with
              ⟨_, _, hPair⟩
            cases hPair
            refine Data.KeyedOnce.map (List.nodup_singleton _) ?_
            intro e he
            cases List.mem_singleton.mp he
            exact Data.KeyedOnce.text _
          · exact keyedOnce_readNumber h

------------------------------------------------------------
-- Values
------------------------------------------------------------

/- A reader of values gives none in which a key is twice. -/
def ReadsKeyedOnce
    (readItem : Text → Option (Data × Text)) : Prop :=
  ∀ t d rest, readItem t = some (d, rest) → d.KeyedOnce

variable {readItem : Text → Option (Data × Text)}

theorem keyedOnce_readItems
    (hItem : ReadsKeyedOnce readItem)
    {fuel : Nat}
    {t rest : Text}
    {items : List Data}
    (h : readItems readItem fuel t = some (items, rest)) :
    ∀ d ∈ items, d.KeyedOnce := by
  induction fuel generalizing t rest items with
  | zero => cases h
  | succ fuel ih =>
      unfold readItems at h
      split at h
      · cases h
      · cases h
        exact fun d hd => absurd hd List.not_mem_nil
      · split at h
        · cases h
        · rename_i d after hRead
          have hFirst := hItem _ _ _ hRead
          split at h
          · rcases Option.map_eq_some_iff.mp h with
              ⟨⟨more, _⟩, hMore, hPair⟩
            cases hPair
            exact List.forall_mem_cons.mpr ⟨hFirst, ih hMore⟩
          · cases h
            exact List.forall_mem_singleton.mpr hFirst
          · cases h

theorem keyedOnce_readPair
    (hItem : ReadsKeyedOnce readItem)
    {p : Pair}
    (h : readPair readItem t = some (p, rest)) :
    p.value.KeyedOnce := by
  simp only [readPair, Option.bind_eq_bind,
    Option.bind_eq_some_iff] at h
  rcases h with ⟨⟨⟨path, key⟩, _⟩, _, _, _, ⟨d, _⟩, hRead, hPair⟩
  cases hPair
  exact hItem _ _ _ hRead

theorem keyedOnce_readMorePairs
    (hItem : ReadsKeyedOnce readItem)
    {fuel : Nat}
    {t rest : Text}
    {pairs : List Pair}
    (h : readMorePairs readItem fuel t = some (pairs, rest)) :
    ∀ p ∈ pairs, p.value.KeyedOnce := by
  induction fuel generalizing t rest pairs with
  | zero => cases h
  | succ fuel ih =>
      unfold readMorePairs at h
      split at h
      · cases h
        exact fun p hp => absurd hp List.not_mem_nil
      · split at h
        · cases h
        · rename_i p after hRead
          rcases Option.map_eq_some_iff.mp h with
            ⟨⟨more, _⟩, hMore, hPair⟩
          cases hPair
          exact List.forall_mem_cons.mpr
            ⟨keyedOnce_readPair hItem hRead, ih hMore⟩
      · cases h

theorem keyedOnce_readInline
    (hItem : ReadsKeyedOnce readItem)
    (h : readInline readItem t = some (d, rest)) :
    d.KeyedOnce := by
  simp only [readInline, Option.bind_eq_bind] at h
  split at h
  · simp only [Option.bind_eq_some_iff] at h
    rcases h with ⟨⟨pairs, _⟩, hNone, entries, hEntries, hPair⟩
    cases hNone
    cases hPair
    refine (keyedOnce_insertAll ?_ keyedOnce_nil hEntries).toData
    exact fun p hp => absurd hp List.not_mem_nil
  · simp only [Option.bind_eq_some_iff] at h
    rcases h with ⟨⟨p, _⟩, hFirst, ⟨more, _⟩, hMore,
      ⟨pairs, _⟩, hBoth, entries, hEntries, hPair⟩
    cases hBoth
    cases hPair
    refine (keyedOnce_insertAll ?_ keyedOnce_nil hEntries).toData
    exact List.forall_mem_cons.mpr
      ⟨keyedOnce_readPair hItem hFirst,
        keyedOnce_readMorePairs hItem hMore⟩

/- The induction is on the depth of arrays and tables. -/
theorem keyedOnce_readValue (depth : Nat) :
    ReadsKeyedOnce (readValue depth) := by
  induction depth with
  | zero =>
      intro t d rest h
      unfold readValue at h
      split at h
      · cases h
      · cases h
      · exact keyedOnce_readScalar h
  | succ depth ih =>
      intro t d rest h
      unfold readValue at h
      split at h
      · rcases Option.map_eq_some_iff.mp h with
          ⟨⟨items, _⟩, hItems, hPair⟩
        cases hPair
        exact Data.KeyedOnce.list (keyedOnce_readItems ih hItems)
      · exact keyedOnce_readInline ih h
      · exact keyedOnce_readScalar h

------------------------------------------------------------
-- Documents
------------------------------------------------------------

theorem keyedOnce_readPairs
    {fuel : Nat}
    {t rest : Text}
    {pairs : List Pair}
    (h : readPairs fuel t = some (pairs, rest)) :
    ∀ p ∈ pairs, p.value.KeyedOnce := by
  induction fuel generalizing t rest pairs with
  | zero => cases h
  | succ fuel ih =>
      unfold readPairs at h
      split at h
      · cases h
      · cases h
        exact fun p hp => absurd hp List.not_mem_nil
      · cases h
        exact fun p hp => absurd hp List.not_mem_nil
      · split at h
        · cases h
        · rename_i p after hRead
          have hFirst := keyedOnce_readPair
            (keyedOnce_readValue depthLimit) hRead
          split at h
          · cases h
          · rcases Option.map_eq_some_iff.mp h with
              ⟨⟨more, _⟩, hMore, hPair⟩
            cases hPair
            exact List.forall_mem_cons.mpr ⟨hFirst, ih hMore⟩

theorem keyedOnce_readHeader
    {isElement : Bool}
    {s : Section}
    (h : readHeader isElement t = some (s, rest)) :
    s.KeyedOnce := by
  simp only [readHeader, Option.bind_eq_bind,
    Option.bind_eq_some_iff] at h
  rcases h with ⟨⟨⟨path, key⟩, _⟩, _, _, _, h⟩
  split at h
  all_goals
    simp only [Option.bind_eq_some_iff] at h
    rcases h with ⟨_, _, _, _, ⟨pairs, _⟩, hPairs, hPair⟩
    cases hPair
    exact keyedOnce_readPairs hPairs

theorem keyedOnce_readSections
    {fuel : Nat}
    {t : Text}
    {sections : List Section}
    (h : readSections fuel t = some sections) :
    ∀ s ∈ sections, s.KeyedOnce := by
  induction fuel generalizing t sections with
  | zero => cases h
  | succ fuel ih =>
      unfold readSections at h
      split at h
      · cases h
        exact fun s hs => absurd hs List.not_mem_nil
      · split at h
        · cases h
        · rename_i s after hHeader
          rcases Option.map_eq_some_iff.mp h with
            ⟨more, hMore, rfl⟩
          exact List.forall_mem_cons.mpr
            ⟨keyedOnce_readHeader hHeader, ih hMore⟩
      · split at h
        · cases h
        · rename_i s after hHeader
          rcases Option.map_eq_some_iff.mp h with
            ⟨more, hMore, rfl⟩
          exact List.forall_mem_cons.mpr
            ⟨keyedOnce_readHeader hHeader, ih hMore⟩
      · cases h

/-
  The data of a document is a table, and no key stands twice
  in it or in any table within it.
-/
theorem keyedOnce_read
    (h : read t = some d) :
    ∃ entries, d = Data.map entries ∧ d.KeyedOnce := by
  simp only [read, Option.bind_eq_bind,
    Option.bind_eq_some_iff] at h
  rcases h with ⟨unified, _, ⟨pairs, after⟩, hPairs, sections,
    hSections, own, hOwn, entries, hEntries, hData⟩
  cases hData
  have hFirst := keyedOnce_insertAll
    (keyedOnce_readPairs hPairs) keyedOnce_nil hOwn
  have hAll := keyedOnce_addSections
    (keyedOnce_readSections hSections) hFirst hEntries
  exact ⟨_, rfl, hAll.toData⟩

end

end Toml

end Highlighter

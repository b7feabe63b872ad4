import Highlighter.Proofs.Assoc
import Highlighter.Proofs.Toml.Sections

/-
  Whole TOML documents: data that is laid out as documents
  are is read from the document that is written for it.

  Key definitions include:
    * `Toml.LaidOut`
    * `Toml.Section.under`
    * `Toml.Shows`

  Main statements:
    * `Toml.addSections_header`
    * `Toml.addSections_implied`
    * `Toml.LaidOut.shows`
    * `Toml.read_write`
-/

namespace Highlighter

namespace Toml

/-
  Entries in the order that documents have: each key once,
  the tables after the values, and those in the same order,
  nested at most as deep as there is room.
-/
inductive LaidOut : Nat → List (String × Data) → Prop
  | values
      {room : Nat}
      {entries : List (String × Data)}
      (hValues : ∀ e ∈ entries, ¬IsTable e.2)
      (hKeys : (Assoc.keys entries).Nodup) :
      LaidOut room entries
  | table
      {room : Nat}
      {entries inner : List (String × Data)}
      {key : String}
      (hEntries : LaidOut (room + 1) entries)
      (hKey : key ∉ Assoc.keys entries)
      (hInner : LaidOut room inner) :
      LaidOut (room + 1) (entries ++ [(key, Data.map inner)])

------------------------------------------------------------
-- Values
------------------------------------------------------------

/- The items of values. -/
def valueItems (entries : List (String × Data)) : Entries :=
  entries.map fun e => (e.1, Item.value e.2)

theorem entriesData_valueItems
    (entries : List (String × Data)) :
    entriesData (valueItems entries) = entries := by
  induction entries with
  | nil => rfl
  | cons entry entries ih =>
      rw [valueItems] at ih ⊢
      simp only [List.map_cons, entriesData, Item.toData, ih]

theorem entriesData_append
    (items : Entries)
    (key : String)
    (item : Item) :
    entriesData (items ++ [(key, item)]) =
      entriesData items ++ [(key, item.toData)] := by
  induction items with
  | nil => rfl
  | cons entry items ih =>
      simp only [List.cons_append, entriesData, ih]

theorem keys_entriesData (items : Entries) :
    Assoc.keys (entriesData items) = Assoc.keys items := by
  induction items with
  | nil => rfl
  | cons entry items ih =>
      simp only [Assoc.keys] at ih
      simp only [entriesData, Assoc.keys, List.map_cons, ih]

/- Pairs with new keys come after what is there. -/
theorem insertAll_values
    {entries : List (String × Data)}
    (hValues : ∀ e ∈ entries, ¬IsTable e.2)
    {items : Entries}
    (hKeys : (Assoc.keys items ++ Assoc.keys entries).Nodup) :
    insertAll (ownPairs entries) items =
      some (items ++ valueItems entries) := by
  induction entries generalizing items with
  | nil => simp [ownPairs, insertAll, valueItems]
  | cons entry entries ih =>
      rcases entry with ⟨key, d⟩
      have hNew : key ∉ Assoc.keys items := by
        intro hMem
        exact (List.nodup_append.mp hKeys).2.2 key hMem key
          (List.mem_cons_self ..) rfl
      have hNone : item? key items = none :=
        Assoc.get?_eq_none_iff.mpr hNew
      rw [ownPairs_value (hValues _ (List.mem_cons_self ..)),
        insertAll]
      simp only [insert, hNone, setItem, Assoc.put_new hNew]
      rw [ih]
      · simp [valueItems]
      · intro e he
        exact hValues e (List.mem_cons_of_mem _ he)
      · simpa [Assoc.keys] using hKeys

/- Values are no tables below a header. -/
theorem writeInner_values
    {entries : List (String × Data)}
    (hValues : ∀ e ∈ entries, ¬IsTable e.2)
    (path : List String) :
    writeInner path entries = some [] := by
  induction entries with
  | nil => rfl
  | cons entry entries ih =>
      rcases entry with ⟨key, d⟩
      have hFirst : writeBlocks (path ++ [key]) d = some [] := by
        cases d with
        | map inner =>
            exact absurd ⟨inner, rfl⟩
              (hValues _ (List.mem_cons_self ..))
        | null | bool | int | real | text | list =>
            simp [writeBlocks]
      have hRest := ih fun e he =>
        hValues e (List.mem_cons_of_mem _ he)
      simp [writeInner, hFirst, hRest]

------------------------------------------------------------
-- Tables
------------------------------------------------------------

section

variable
  (entries : List (String × Data))
  (key : String)
  (inner : List (String × Data))

theorem ownPairs_append_table :
    ownPairs (entries ++ [(key, Data.map inner)]) =
      ownPairs entries := by
  induction entries with
  | nil => rfl
  | cons entry entries ih =>
      rcases entry with ⟨k, d⟩
      cases d with
      | map other => exact ih
      | null | bool | int | real | text | list =>
          simp only [List.cons_append, ownPairs, ih]

theorem writeLines_append_table :
    writeLines (entries ++ [(key, Data.map inner)]) =
      writeLines entries := by
  induction entries with
  | nil => rfl
  | cons entry entries ih =>
      rcases entry with ⟨k, d⟩
      cases d with
      | map other => exact ih
      | null | bool | int | real | text | list =>
          simp only [List.cons_append, writeLines, ih]

theorem writeInner_append (path : List String) (d : Data) :
    writeInner path (entries ++ [(key, d)]) =
      (writeInner path entries).bind fun blocks =>
        (writeBlocks (path ++ [key]) d).map (blocks ++ ·) := by
  induction entries with
  | nil =>
      simp only [List.nil_append, writeInner]
      cases writeBlocks (path ++ [key]) d with
      | none => rfl
      | some blocks => simp
  | cons entry entries ih =>
      rcases entry with ⟨k, e⟩
      simp only [List.cons_append, writeInner, ih]
      cases writeBlocks (path ++ [k]) e with
      | none => rfl
      | some first =>
          cases writeInner path entries with
          | none => rfl
          | some blocks =>
              cases writeBlocks (path ++ [key]) d with
              | none => rfl
              | some more => simp

end

------------------------------------------------------------
-- Sections below a path
------------------------------------------------------------

/- A section of the table at a path, seen from outside. -/
def Section.under (path : List String) (s : Section) :
    Section :=
  { s with path := path ++ s.path }

theorem under_under (p q : List String) (s : Section) :
    (s.under q).under p = s.under (p ++ q) := by
  simp [Section.under]

theorem addSections_append
    (first more : List Section)
    (items : Entries) :
    addSections (first ++ more) items =
      (addSections first items).bind (addSections more) := by
  induction first generalizing items with
  | nil => rfl
  | cons s first ih =>
      simp only [List.cons_append, addSections]
      cases addSection s items with
      | none => rfl
      | some items => exact ih items

section

variable
  {items inner : Entries}
  {key : String}

/- Sections below a key change the table that is there. -/
theorem addSections_under
    (hKey : key ∉ Assoc.keys items)
    (origin : Origin)
    (sections : List Section) :
    addSections (sections.map (Section.under [key]))
        (items ++ [(key, Item.table origin inner)]) =
      (addSections sections inner).map fun inner =>
        items ++ [(key, Item.table origin inner)] := by
  induction sections generalizing inner with
  | nil => rfl
  | cons s sections ih =>
      have hItem :
          item? key (items ++ [(key, Item.table origin inner)]) =
            some (Item.table origin inner) :=
        Assoc.get?_append hKey _ []
      have hFirst :
          addSection (s.under [key])
              (items ++ [(key, Item.table origin inner)]) =
            (addSection s inner).map fun inner =>
              items ++ [(key, Item.table origin inner)] := by
        simp only [addSection, Section.under, List.cons_append,
          List.nil_append, modifyAt, hItem, setItem,
          Assoc.put_append hKey]
        rfl
      simp only [List.map_cons, addSections, hFirst]
      cases addSection s inner with
      | none => rfl
      | some inner => exact ih

/- A header and what is below it make up a new table. -/
theorem addSections_header
    (hKey : key ∉ Assoc.keys items)
    {pairs : List Pair}
    {own : Entries}
    (hOwn : insertAll pairs [] = some own)
    {sections : List Section}
    (hInner : addSections sections own = some inner) :
    addSections
        (⟨false, [], key, pairs⟩ ::
          sections.map (Section.under [key])) items =
      some (items ++ [(key, Item.table Origin.header inner)]) := by
  have hNone : item? key items = none :=
    Assoc.get?_eq_none_iff.mpr hKey
  have hTable :
      addSection ⟨false, [], key, pairs⟩ items =
        some (items ++ [(key, Item.table Origin.header own)]) := by
    simp [addSection, modifyAt, addTable, hNone, hOwn, setItem,
      Assoc.put_new hKey]
  rw [addSections, hTable]
  simp only
  rw [addSections_under hKey, hInner, Option.map_some]

/- A table comes to be on the way to those in it. -/
theorem addSections_implied
    (hKey : key ∉ Assoc.keys items)
    {sections : List Section}
    (hSome : sections ≠ [])
    (hInner : addSections sections [] = some inner) :
    addSections (sections.map (Section.under [key])) items =
      some (items ++ [(key, Item.table Origin.implied inner)]) := by
  cases sections with
  | nil => exact absurd rfl hSome
  | cons s sections =>
      have hNone : item? key items = none :=
        Assoc.get?_eq_none_iff.mpr hKey
      have hFirst :
          addSection (s.under [key]) items =
            (addSection s []).map fun inner =>
              items ++ [(key, Item.table Origin.implied inner)] := by
        simp only [addSection, Section.under, List.cons_append,
          List.nil_append, modifyAt, hNone, setItem,
          Assoc.put_new hKey]
        rfl
      rw [addSections] at hInner
      rw [List.map_cons, addSections, hFirst]
      cases hTable : addSection s [] with
      | none =>
          rw [hTable] at hInner
          cases hInner
      | some table =>
          rw [hTable] at hInner
          simp only at hInner
          rw [Option.map_some]
          simp only
          rw [addSections_under hKey, hInner, Option.map_some]

end

------------------------------------------------------------
-- Documents
------------------------------------------------------------

/-
  Blocks that show the tables among the entries of the table
  at a path: they are for sections which, added to the other
  entries, make up all of them.
-/
def Shows
    (path : List String)
    (blocks : List Text)
    (entries : List (String × Data)) : Prop :=
  ∃ sections own items,
    List.Forall₂ (fun s => IsBlock (s.under path)) sections
      blocks ∧
    insertAll (ownPairs entries) [] = some own ∧
    addSections sections own = some items ∧
    entriesData items = entries

/- The block of a table with a header of its own. -/
theorem isBlock_ownBlock
    {path : List String}
    (hPath : path.length < pathLimit)
    {entries : List (String × Data)}
    {lines : Text}
    (hLines : writeLines entries = some lines)
    (key : String) :
    IsBlock ⟨false, path, key, ownPairs entries⟩
      ('[' :: writePath (path ++ [key]) ++ [']', '\n'] ++
        lines) :=
  ⟨rfl, hPath, entries, lines, hLines, rfl, by simp⟩

/-
  The block of a table and those that show the tables in it
  are for sections that add it to other entries.
-/
theorem Shows.table
    {path : List String}
    {key : String}
    {blocks : List Text}
    {entries : List (String × Data)}
    (h : Shows (path ++ [key]) blocks entries)
    (hPath : path.length < pathLimit)
    {lines : Text}
    (hLines : writeLines entries = some lines) :
    ∃ sections item,
      List.Forall₂ (fun s => IsBlock (s.under path)) sections
        (ownBlock (path ++ [key]) entries.isEmpty lines ++
          blocks) ∧
      item.toData = Data.map entries ∧
      ∀ items, key ∉ Assoc.keys items →
        addSections sections items =
          some (items ++ [(key, item)]) := by
  rcases h with
    ⟨sections, own, inner, hBlocks, hOwn, hInner, hData⟩
  have hBelow :
      List.Forall₂ (fun s => IsBlock (s.under path))
        (sections.map (Section.under [key])) blocks := by
    rw [List.forall₂_map_left_iff]
    simpa only [under_under] using hBlocks
  by_cases hOmitted : lines = [] ∧ ¬entries.isEmpty
  · -- The table is implied by the tables in it.
    have hPairs : ownPairs entries = [] := by
      rcases (linesOf_writeLines hLines).head with
        ⟨_, hNone⟩ | ⟨c, t, hText, _⟩
      · exact hNone
      · rw [hOmitted.1] at hText
        cases hText
    rw [hPairs] at hOwn
    cases hOwn
    have hSome : sections ≠ [] := by
      rintro rfl
      cases hInner
      apply hOmitted.2
      rw [← hData]
      rfl
    refine ⟨sections.map (Section.under [key]),
      Item.table Origin.implied inner, ?_, ?_, ?_⟩
    · rw [ownBlock, if_pos ⟨hOmitted.1, Or.inr hOmitted.2⟩]
      exact hBelow
    · rw [Item.toData, hData]
    · intro items hKey
      exact addSections_implied hKey hSome hInner
  · refine ⟨⟨false, [], key, ownPairs entries⟩ ::
        sections.map (Section.under [key]),
      Item.table Origin.header inner, ?_, ?_, ?_⟩
    · have hNot : ¬(lines = [] ∧
          (path ++ [key] = [] ∨ ¬entries.isEmpty)) := by
        rintro ⟨hNone, hEmpty | hSome⟩
        · simp at hEmpty
        · exact hOmitted ⟨hNone, hSome⟩
      rw [ownBlock, if_neg hNot, if_neg (by simp)]
      refine List.Forall₂.cons ?_ hBelow
      have hBlock := isBlock_ownBlock hPath hLines key
      simpa [Section.under] using hBlock
    · rw [Item.toData, hData]
    · intro items hKey
      exact addSections_header hKey hOwn hInner

/- What is written for entries shows the tables in them. -/
theorem LaidOut.shows
    {room : Nat}
    {entries : List (String × Data)}
    (h : LaidOut room entries)
    {path : List String}
    (hRoom : path.length + room ≤ pathLimit)
    {lines : Text}
    (hLines : writeLines entries = some lines)
    {blocks : List Text}
    (hBlocks : writeInner path entries = some blocks) :
    Shows path blocks entries := by
  induction h generalizing path lines blocks with
  | @values room entries hValues hKeys =>
      rw [writeInner_values hValues] at hBlocks
      cases hBlocks
      refine ⟨[], valueItems entries, valueItems entries,
        List.Forall₂.nil, ?_, rfl,
        entriesData_valueItems entries⟩
      exact insertAll_values hValues hKeys
  | @table room entries inner key hEntries hKey hInner ih ihInner =>
      rw [writeLines_append_table] at hLines
      rw [writeInner_append, Option.bind_eq_some_iff] at hBlocks
      rcases hBlocks with ⟨outer, hOuter, hLast⟩
      rcases Option.map_eq_some_iff.mp hLast with
        ⟨table, hTable, rfl⟩
      rw [writeBlocks] at hTable
      simp only [bind, Option.bind_eq_some_iff,
        Option.some.injEq] at hTable
      rcases hTable with
        ⟨innerLines, hInnerLines, innerBlocks, hInnerBlocks,
          rfl⟩
      rcases ih hRoom hLines hOuter with
        ⟨sections, own, items, hSections, hOwn, hItems, hData⟩
      have hShows := ihInner
        (by simp only [List.length_append, List.length_cons,
              List.length_nil]
            omega) hInnerLines hInnerBlocks
      rcases hShows.table (by omega) hInnerLines with
        ⟨more, item, hMore, hItem, hAdd⟩
      have hNew : key ∉ Assoc.keys items := by
        rw [← keys_entriesData, hData]
        exact hKey
      refine ⟨sections ++ more, own, items ++ [(key, item)],
        List.rel_append hSections hMore, ?_, ?_, ?_⟩
      · rw [ownPairs_append_table]
        exact hOwn
      · rw [addSections_append, hItems, Option.bind_some]
        exact hAdd items hNew
      · rw [entriesData_append, hData, hItem]

/- The lines of a table can be written if its values can. -/
theorem isSome_writeLines_iff
    (entries : List (String × Data)) :
    (writeLines entries).isSome ↔
      ∀ e ∈ entries, IsTable e.2 ∨ (writeScalar e.2).isSome := by
  induction entries with
  | nil => simp [writeLines]
  | cons entry entries ih =>
      rcases entry with ⟨key, d⟩
      by_cases hTable : IsTable d
      · have hRest :
            writeLines ((key, d) :: entries) =
              writeLines entries := by
          rcases hTable with ⟨inner, rfl⟩
          rfl
        rw [hRest, ih, List.forall_mem_cons]
        simp only [hTable, true_or, true_and]
      · rw [writeLines_value hTable, List.forall_mem_cons, ← ih]
        simp only [hTable, false_or]
        cases writeScalar d <;> simp

theorem isSome_writeBlocks_iff
    (path : List String)
    (entries : List (String × Data)) :
    (writeBlocks path (Data.map entries)).isSome ↔
      (writeLines entries).isSome ∧
        (writeInner path entries).isSome := by
  rw [writeBlocks]
  cases writeLines entries <;>
    cases writeInner path entries <;> simp

theorem isSome_writeInner_cons
    (path : List String)
    (key : String)
    (d : Data)
    (entries : List (String × Data)) :
    (writeInner path ((key, d) :: entries)).isSome ↔
      (writeBlocks (path ++ [key]) d).isSome ∧
        (writeInner path entries).isSome := by
  rw [writeInner]
  cases writeBlocks (path ++ [key]) d <;>
    cases writeInner path entries <;> simp

/- What is written for data is read as the data. -/
theorem read_write
    {entries : List (String × Data)}
    (h : LaidOut pathLimit entries)
    {t : Text}
    (hText : write (Data.map entries) = some t) :
    read t = some (Data.map entries) := by
  rcases Option.map_eq_some_iff.mp hText with
    ⟨all, hAll, rfl⟩
  rw [writeBlocks] at hAll
  simp only [bind, Option.bind_eq_some_iff,
    Option.some.injEq] at hAll
  rcases hAll with ⟨lines, hLines, blocks, hBlocks, rfl⟩
  have hShows : Shows [] blocks entries :=
    h.shows (by simp) hLines hBlocks
  rcases hShows with
    ⟨sections, own, items, hSections, hOwn, hItems, hData⟩
  rw [read_blocks hLines hSections, hOwn, Option.bind_some,
    hItems, Option.map_some, hData]

end Toml

end Highlighter

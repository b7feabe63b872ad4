import Highlighter.Data

/-
  The tables of a TOML document as they are put together
  from headers and keys.

  Key definitions include:
    * `Toml.Origin`
    * `Toml.Item`
    * `Toml.insert`
    * `Toml.Section`
    * `Toml.addSection`
    * `Toml.toData`
-/

namespace Highlighter

namespace Toml

/-
  How a table came to be: by a header of its own, on the way
  to a header further down, or by a key with dots.
-/
inductive Origin
  | header
  | implied
  | dotted
deriving DecidableEq, Repr

/-
  What stands under a key: a value, a table, or the tables
  of an array, the last of them first.
-/
inductive Item
  | value (d : Data)
  | table (origin : Origin) (entries : List (String × Item))
  | tables (elements : List (List (String × Item)))
deriving Repr

/- The entries of a table. -/
abbrev Entries := List (String × Item)

------------------------------------------------------------
-- Entries
------------------------------------------------------------

/- The item under a key. -/
def item? (key : String) (entries : Entries) : Option Item :=
  Assoc.get? key entries

/- Put an item under a key. -/
def setItem (key : String) (item : Item) (entries : Entries) :
    Entries :=
  Assoc.put key item entries

/- Take a key away. -/
def removeItem (key : String) (entries : Entries) : Entries :=
  entries.filter (fun e => e.1 != key)

------------------------------------------------------------
-- Keys
------------------------------------------------------------

/-
  Put an item under a key that is new, at the end of a path
  of further keys. Dotted keys make tables on their way, and
  get into those made by dotted keys alone.
-/
def insert (key : String) (item : Item) :
    List String → Entries → Option Entries
  | [], entries =>
      match item? key entries with
      | some _ => none
      | none => some (setItem key item entries)
  | [k], entries =>
      match item? k entries with
      | none =>
          some (setItem k (Item.table Origin.dotted [(key, item)])
            entries)
      | some (Item.table Origin.dotted inner) =>
          (insert key item [] inner).map fun inner =>
            setItem k (Item.table Origin.dotted inner) entries
      | some _ => none
  | k :: path, entries =>
      match item? k entries with
      | none =>
          (insert key item path []).map fun inner =>
            setItem k (Item.table Origin.dotted inner) entries
      | some (Item.table Origin.header _) => none
      | some (Item.table origin inner) =>
          (insert key item path inner).map fun inner =>
            setItem k (Item.table origin inner) entries
      | some (Item.tables (last :: others)) =>
          (insert key item path last).map fun last =>
            setItem k (Item.tables (last :: others)) entries
      | some _ => none

/- A path of keys, the last key, and the value under it. -/
structure Pair where
  path : List String
  key : String
  value : Data
deriving Repr

/- Put pairs into a table. -/
def insertAll : List Pair → Entries → Option Entries
  | [], entries => some entries
  | p :: rest, entries =>
      match insert p.key (Item.value p.value) p.path entries with
      | none => none
      | some entries => insertAll rest entries

------------------------------------------------------------
-- Headers
------------------------------------------------------------

/-
  Change the table at the end of a path of headers. Tables
  on the way that are missing come to be.
-/
def modifyAt (change : Entries → Option Entries) :
    List String → Entries → Option Entries
  | [], entries => change entries
  | k :: path, entries =>
      match item? k entries with
      | none =>
          (modifyAt change path []).map fun inner =>
            setItem k (Item.table Origin.implied inner) entries
      | some (Item.table origin inner) =>
          (modifyAt change path inner).map fun inner =>
            setItem k (Item.table origin inner) entries
      | some (Item.tables (last :: others)) =>
          (modifyAt change path last).map fun last =>
            setItem k (Item.tables (last :: others)) entries
      | some _ => none

/- The pairs under a header, which may open a new element. -/
structure Section where
  isElement : Bool
  path : List String
  key : String
  pairs : List Pair
deriving Repr

/-
  Put the table of a section under its key. A table may be
  opened once, and one that was implied keeps its entries.
-/
def addTable (s : Section) (entries : Entries) :
    Option Entries :=
  match item? s.key entries with
  | none =>
      (insertAll s.pairs []).map fun inner =>
        setItem s.key (Item.table Origin.header inner) entries
  | some (Item.table Origin.implied inner) =>
      (insertAll s.pairs inner).map fun inner =>
        removeItem s.key entries ++
          [(s.key, Item.table Origin.header inner)]
  | some _ => none

/- Put the table of a section into the array under its key. -/
def addElement (s : Section) (entries : Entries) :
    Option Entries :=
  match item? s.key entries with
  | none =>
      (insertAll s.pairs []).map fun inner =>
        setItem s.key (Item.tables [inner]) entries
  | some (Item.tables elements) =>
      (insertAll s.pairs []).map fun inner =>
        setItem s.key (Item.tables (inner :: elements)) entries
  | some _ => none

/- Put a section into a document. -/
def addSection (s : Section) (entries : Entries) :
    Option Entries :=
  modifyAt (if s.isElement then addElement s else addTable s)
    s.path entries

/- Put sections into a document. -/
def addSections : List Section → Entries → Option Entries
  | [], entries => some entries
  | s :: rest, entries =>
      match addSection s entries with
      | none => none
      | some entries => addSections rest entries

------------------------------------------------------------
-- Data
------------------------------------------------------------

mutual

/- The data of an item. -/
def Item.toData : Item → Data
  | Item.value d => d
  | Item.table _ entries => Data.map (entriesData entries)
  | Item.tables elements => Data.list (elementsData elements [])

/- The data of the entries of a table. -/
def entriesData : List (String × Item) → List (String × Data)
  | [] => []
  | (key, item) :: rest => (key, item.toData) :: entriesData rest

/- The data of tables, in front of what follows them. -/
def elementsData :
    List (List (String × Item)) → List Data → List Data
  | [], done => done
  | entries :: rest, done =>
      elementsData rest (Data.map (entriesData entries) :: done)

end

end Toml

end Highlighter

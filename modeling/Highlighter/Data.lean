import Highlighter.Assoc

/-
  Structured data: what the notations for settings and
  results have in common.

  Key definitions include:
    * `Data`
    * `Data.record?`
    * `Data.Record`
    * `Data.named?`
-/

namespace Highlighter

/-
  A value of structured data. Of numbers that are not whole
  nothing but the fact is kept.
-/
inductive Data
  | null
  | bool (b : Bool)
  | int (n : Int)
  | real
  | text (s : String)
  | list (items : List Data)
  | map (entries : List (String × Data))
deriving Repr, Inhabited

namespace Data

------------------------------------------------------------
-- Plain values
------------------------------------------------------------

/- A text. -/
def text? : Data → Option String
  | text s => some s
  | _ => none

/- A truth value. -/
def bool? : Data → Option Bool
  | bool b => some b
  | _ => none

/- A number below a bound. -/
def natBelow? (bound : Nat) : Data → Option Nat
  | int n =>
      if 0 ≤ n ∧ n < (bound : Int) then some n.toNat else none
  | _ => none

/- A number of 64 bits. -/
def size? (d : Data) : Option Nat :=
  d.natBelow? 0x10000000000000000

/- A number of 8 bits. -/
def byte? (d : Data) : Option UInt8 :=
  (d.natBelow? 0x100).map UInt8.ofNat

/- Texts by name. -/
def texts? : Data → Option (Assoc String)
  | map entries =>
      entries.mapM fun (key, d) => d.text?.map (fun s => (key, s))
  | _ => none

/-
  A value known by its name, given as the name or as an
  entry of that name without a value.
-/
def named? {α : Type} (ofName : String → Option α) :
    Data → Option α
  | text name => ofName name
  | map [(name, null)] => ofName name
  | _ => none

------------------------------------------------------------
-- Records
------------------------------------------------------------

/- The fields that are given for a record. -/
abbrev Record := Assoc Data

/-
  The fields given for a record with the given field names:
  entries by name, or a list of values in the order of the
  names. When `strict`, a list may not be longer than that.
-/
def record? (strict : Bool) (names : List String) :
    Data → Option Record
  | map entries => some entries
  | list items =>
      if strict && decide (names.length < items.length) then
        none
      else
        some (names.zip items)
  | _ => none

namespace Record

/- A field that has to be given. -/
def required {α : Type} (r : Record) (name : String)
    (decode : Data → Option α) : Option α :=
  (Assoc.get? name r).bind decode

/- A field with a value of its own when it is not given. -/
def optional {α : Type} (r : Record) (name : String)
    (decode : Data → Option α) (fallback : α) : Option α :=
  match Assoc.get? name r with
  | none => some fallback
  | some d => decode d

end Record

end Data

end Highlighter

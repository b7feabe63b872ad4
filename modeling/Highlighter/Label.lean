/-
  The classes that highlighted tokens fall into.

  Key definitions include:
    * `Label`
    * `Label.all`
    * `Label.name`
    * `Label.ofName?`
-/

namespace Highlighter

/-
  The class of a token, named like the style class that a
  theme gives a colour to.
-/
inductive Label
  | string
  | string2
  | number
  | keyword
  | atom
  | builtin
  | definition
  | metadata
  | comment
  | operator
  | identifier
  | identifier3
deriving DecidableEq, Repr

namespace Label

/- Every label, in order of declaration. -/
def all : List Label :=
  [string, string2, number, keyword, atom, builtin,
   definition, metadata, comment, operator, identifier,
   identifier3]

/- The name of a style class. -/
def name : Label → String
  | string => "string"
  | string2 => "string-2"
  | number => "number"
  | keyword => "keyword"
  | atom => "atom"
  | builtin => "builtin"
  | definition => "def"
  | metadata => "meta"
  | comment => "comment"
  | operator => "operator"
  | identifier => "variable"
  | identifier3 => "variable-3"

/- The label with a name. -/
def ofName? (name : String) : Option Label :=
  all.find? (fun label => label.name == name)

end Label

end Highlighter

/-
  Association lists: values by name in order of insertion.

  Key definitions include:
    * `Assoc`
    * `Assoc.get?`
    * `Assoc.put`
    * `Assoc.keys`
    * `sortNames`
-/

namespace Highlighter

/- Values by name, each name at most once. -/
abbrev Assoc (α : Type) := List (String × α)

namespace Assoc

variable {α : Type}

/- The value of a name. -/
def get? (key : String) : Assoc α → Option α
  | [] => none
  | (k, a) :: rest => if k = key then some a else get? key rest

/- Give a name a value, in place of the one it had. -/
def put (key : String) (a : α) : Assoc α → Assoc α
  | [] => [(key, a)]
  | (k, b) :: rest =>
      if k = key then
        (key, a) :: rest
      else
        (k, b) :: put key a rest

/- The names that have a value. -/
def keys (entries : Assoc α) : List String :=
  entries.map Prod.fst

end Assoc

/- Names in rising order of their characters. -/
def sortNames (names : List String) : List String :=
  names.mergeSort (fun a b => decide (a ≤ b))

end Highlighter

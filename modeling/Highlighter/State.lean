/-
  The states of a scan: which kind of text the scan is
  inside of.

  Key definitions include:
    * `State`
    * `State.all`
    * `State.name`
    * `State.ofName?`
-/

namespace Highlighter

/-
  A state of a scan, each with rules of its own. `start` is
  the state at first and the one to return to when a string
  or comment closes.
-/
inductive State
  | start
  | string
  | rawString
  | hashString
  | comment
deriving DecidableEq, Repr

namespace State

/- Every state, in order of declaration. -/
def all : List State :=
  [start, string, rawString, hashString, comment]

/- The name of a state in rule tables. -/
def name : State → String
  | start => "start"
  | string => "string"
  | rawString => "string_raw"
  | hashString => "string_raw_hash"
  | comment => "comment"

/- The state with a name. -/
def ofName? (name : String) : Option State :=
  all.find? (fun state => state.name == name)

/- A name that no state has. -/
structure UnknownError where
  name : String
deriving DecidableEq, Repr

/- What is said about an unknown name. -/
def UnknownError.message (e : UnknownError) : String :=
  "Unknown scanner state: " ++ e.name

/- The state with a name, or the complaint about it. -/
def parse (name : String) : Except UnknownError State :=
  match ofName? name with
  | some state => Except.ok state
  | none => Except.error ⟨name⟩

end State

end Highlighter

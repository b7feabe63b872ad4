import Highlighter.Assoc
import Highlighter.Path
import Highlighter.Qhantoom

/-
  Registries of modes, which are looked up by name or by
  content type.

  Key definitions include:
    * `Registry`
    * `Registry.define`
    * `Registry.defineType`
    * `Registry.get`
    * `Registry.typesFor`
    * `Registry.names`
    * `Registry.builtIn`
    * `detectLanguage`
-/

namespace Highlighter

/-
  Modes by name, and content types that stand for names of
  modes, defined or not.
-/
structure Registry where
  modes : Assoc Mode
  types : Assoc String

namespace Registry

/- What is looked up in vain, by the key asked for. -/
structure UnknownLanguage where
  key : String
deriving DecidableEq, Repr

/- What is said about an unknown language. -/
def UnknownLanguage.message (e : UnknownLanguage) : String :=
  "Unknown language: " ++ e.key

/- The registry without entries. -/
def empty : Registry := ⟨[], []⟩

/- Add a mode in place of the one of its name. -/
def define (m : Mode) (r : Registry) : Registry :=
  { r with modes := r.modes.put m.name m }

/- Let a content type stand for the name of a mode. -/
def defineType (type name : String) (r : Registry) :
    Registry :=
  { r with types := r.types.put type name }

/- The name that a key stands for. -/
def resolve (r : Registry) (key : String) : String :=
  (r.types.get? key).getD key

/- The mode with a name or content type. -/
def get (r : Registry) (key : String) :
    Except UnknownLanguage Mode :=
  match r.modes.get? (r.resolve key) with
  | some m => Except.ok m
  | none => Except.error ⟨key⟩

/- The content types that stand for a name, in order. -/
def typesFor (r : Registry) (name : String) : List String :=
  sortNames
    ((r.types.filter (fun e => e.2 == name)).map Prod.fst)

/- The names of all modes, in order. -/
def names (r : Registry) : List String :=
  sortNames r.modes.keys

/- The registry of the built-in mode. -/
def builtIn : Registry :=
  Qhantoom.contentTypes.foldl
    (fun r type => r.defineType type Qhantoom.name)
    (empty.define Qhantoom.mode)

end Registry

/- The name of the mode for files of a path's extension. -/
def detectLanguage (path : Text) : Option String :=
  match Path.extension? path with
  | none => none
  | some ext =>
      if ext = "qh".toList then some Qhantoom.name else none

end Highlighter

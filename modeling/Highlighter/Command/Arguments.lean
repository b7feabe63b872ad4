import Highlighter.State
import Highlighter.Text

/-
  The arguments of the command line.

  Key definitions include:
    * `Command.View`
    * `Command.Arguments`
    * `Command.Given`
    * `Command.collect`
    * `Command.Arguments.parse?`
-/

namespace Highlighter

namespace Command

------------------------------------------------------------
-- Arguments
------------------------------------------------------------

/- What the command can print. -/
inductive View
  | highlight
  | tokens
  | json
  | folds
  | indent
  | reindent
deriving DecidableEq, Repr

namespace View

/- Every view. -/
def all : List View :=
  [highlight, tokens, json, folds, indent, reindent]

/- The name of a view. -/
def name : View → String
  | highlight => "highlight"
  | tokens => "tokens"
  | json => "json"
  | folds => "folds"
  | indent => "indent"
  | reindent => "reindent"

/- The view with a name. -/
def ofName? (name : String) : Option View :=
  all.find? (fun view => view.name == name)

end View

/-
  What a command is asked for: the file to read, the view to
  print, the state to start in, and, if they are given, the
  mode and the file of settings.
-/
structure Arguments where
  file : Option Text
  view : View
  state : State
  mode : Option String
  config : Option Text
deriving DecidableEq, Repr

------------------------------------------------------------
-- Collecting
------------------------------------------------------------

/- The options that take a value. -/
inductive Valued
  | emit
  | state
  | mode
  | config
deriving DecidableEq, Repr

namespace Valued

/- The option with a long name. -/
def ofLong? (name : Text) : Option Valued :=
  if name = "emit".toList then some emit
  else if name = "state".toList then some state
  else if name = "mode".toList then some mode
  else if name = "config".toList then some config
  else none

/- The option with a letter. -/
def ofShort? : Char → Option Valued
  | 'e' => some emit
  | 's' => some state
  | 'm' => some mode
  | 'c' => some config
  | _ => none

end Valued

/- The values given so far. -/
structure Given where
  file : Option Text := none
  emit : Option Text := none
  state : Option Text := none
  mode : Option Text := none
  config : Option Text := none
deriving DecidableEq, Repr

namespace Given

/- Note the value of an option, which may be given once. -/
def set (g : Given) (value : Text) : Valued → Option Given
  | Valued.emit =>
      if g.emit.isSome then none
      else some { g with emit := some value }
  | Valued.state =>
      if g.state.isSome then none
      else some { g with state := some value }
  | Valued.mode =>
      if g.mode.isSome then none
      else some { g with mode := some value }
  | Valued.config =>
      if g.config.isSome then none
      else some { g with config := some value }

/- Note the file, which may be given once. -/
def setFile (g : Given) (value : Text) : Option Given :=
  if g.file.isSome then none
  else some { g with file := some value }

end Given

/-
  What the next argument is taken for: anything, the value
  of an option, or a file whatever it looks like.
-/
inductive Expecting
  | anything
  | value (option : Valued)
  | file
deriving DecidableEq, Repr

/- Does an argument look like options? -/
def looksLikeOption (arg : Text) : Bool :=
  arg.head? == some '-' && arg != ['-']

/- Take an argument in long form, its hyphens left out. -/
def takeLong (arg : Text) (g : Given) :
    Option (Given × Expecting) :=
  let name := arg.takeWhile (· != '=')
  match Valued.ofLong? name, arg.drop name.length with
  | some option, [] => some (g, Expecting.value option)
  | some option, _ :: value =>
      (g.set value option).map fun g => (g, Expecting.anything)
  | none, [] =>
      if name = "verbose".toList then
        some (g, Expecting.anything)
      else
        none
  | none, _ :: _ => none

/-
  Take letters behind one hyphen. The text after the letter
  of an option with a value is its value, with an equals
  sign in front or without.
-/
def takeShort : Text → Given → Option (Given × Expecting)
  | [], g => some (g, Expecting.anything)
  | c :: rest, g =>
      match Valued.ofShort? c with
      | some option =>
          match rest with
          | [] => some (g, Expecting.value option)
          | '=' :: value =>
              (g.set value option).map
                fun g => (g, Expecting.anything)
          | value =>
              (g.set value option).map
                fun g => (g, Expecting.anything)
      | none => if c = 'v' then takeShort rest g else none

/- Take arguments up to the last. -/
def collect : Expecting → List Text → Given → Option Given
  | Expecting.value _, [], _ => none
  | _, [], g => some g
  | Expecting.file, arg :: rest, g =>
      (g.setFile arg).bind (collect Expecting.file rest)
  | Expecting.value option, arg :: rest, g =>
      if looksLikeOption arg then
        none
      else
        (g.set arg option).bind
          (collect Expecting.anything rest)
  | Expecting.anything, arg :: rest, g =>
      if arg = ['-', '-'] then
        collect Expecting.file rest g
      else if looksLikeOption arg then
        let taken :=
          match arg with
          | '-' :: '-' :: long => takeLong long g
          | _ => takeShort arg.tail g
        match taken with
        | none => none
        | some (g, next) => collect next rest g
      else
        (g.setFile arg).bind (collect Expecting.anything rest)

------------------------------------------------------------
-- Checking
------------------------------------------------------------

/- A path, which may not be empty. -/
def path? : Option Text → Option (Option Text)
  | none => some none
  | some path => if path = [] then none else some (some path)

/- A value by its name, or the one to use if it is missing. -/
def named? {α : Type} (ofName? : String → Option α)
    (fallback : α) : Option Text → Option α
  | none => some fallback
  | some name => ofName? (String.ofList name)

/- The arguments in a list, unless it is at fault. -/
def Arguments.parse? (args : List Text) : Option Arguments := do
  let g ← collect Expecting.anything args {}
  let file ← path? g.file
  let view ← named? View.ofName? View.highlight g.emit
  let state ← named? State.ofName? State.start g.state
  let config ← path? g.config
  some ⟨file, view, state, g.mode.map String.ofList, config⟩

end Command

end Highlighter

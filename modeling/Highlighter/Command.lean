import Highlighter.Buffer
import Highlighter.Command.Arguments
import Highlighter.Config.File
import Highlighter.Data.Json
import Highlighter.Records
import Highlighter.Text.Quoted

/-
  The highlighter as a command: what it prints for its
  arguments and the files it reads, or how it fails.

  Key definitions include:
    * `Command.Failure`
    * `Command.loadConfig`
    * `Command.openBuffer`
    * `Command.display`
    * `Command.run`
    * `Command.runIn`
-/

namespace Highlighter

namespace Command

------------------------------------------------------------
-- Failures
------------------------------------------------------------

/- Why the command fails, by the stage that does. -/
inductive Failure
  | config (path : Text) (e : Config.LoadError)
  | file (path : Text) (e : Files.ReadError)
  | input (e : Files.ReadError)
  | language (e : Registry.UnknownLanguage)
  | theme (e : Theme.InvalidColor)
deriving DecidableEq, Repr

namespace Failure

/- What is said about a failure. -/
def message : Failure → String
  | config path _ =>
      "failed to load config " ++ String.ofList path
  | file path _ => "failed to read " ++ String.ofList path
  | input _ => "failed to read stdin"
  | language e => e.message
  | theme _ => "invalid theme"

/- What is said about its cause, if it has one. -/
def cause : Failure → Option String
  | config _ e => some e.message
  | file _ e => some e.message
  | input e => some e.message
  | language _ => none
  | theme e => some e.message

end Failure

------------------------------------------------------------
-- Views
------------------------------------------------------------

/- The fields of a line with tabs between them. -/
def tabbed : List Text → Text
  | [] => ['\n']
  | [last] => last ++ ['\n']
  | first :: rest => first ++ '\t' :: tabbed rest

/- A range of two numbers. -/
def range (low high : Nat) : Text :=
  Text.decimal low ++ '.' :: '.' :: Text.decimal high

/- A token on a line. -/
def tokenLine (t : Token) : Text :=
  let label :=
    match t.label with
    | none => "-".toList
    | some label => label.name.toList
  tabbed
    [range t.start t.stop, label, t.stateAfter.name.toList,
     t.text.quoted]

/- A fold on a line, lines being counted from one. -/
def foldLine (f : FoldRange) : Text :=
  tabbed
    [Text.decimal (f.startLine + 1) ++
       '-' :: Text.decimal (f.endLine + 1),
     range f.opener f.closer]

/- The indentation of a line on a line. -/
def indentLine (i : LineIndent) : Text :=
  let column :=
    match i.indent with
    | none => "-".toList
    | some column => Text.decimal column
  tabbed
    [Text.decimal (i.line + 1), i.startState.name.toList,
     Text.decimal i.depth, column]

/- What a view shows of a buffer. -/
def display (b : Buffer) (theme : Theme) : View → Text
  | View.highlight => theme.render b.document.tokens
  | View.tokens => b.document.tokens.flatMap tokenLine
  | View.json =>
      Json.write 0 b.document.highlight.toData ++ ['\n']
  | View.folds => b.folds.1.flatMap foldLine
  | View.indent => b.indents.1.flatMap indentLine
  | View.reindent => b.reindented.1

------------------------------------------------------------
-- Stages
------------------------------------------------------------

/-
  The settings to use, given the reading of their file. One
  that was not asked for need not be right.
-/
def loadConfig (a : Arguments)
    (reading : Except Files.ReadError Text) :
    Except Failure Config :=
  match a.config with
  | none => Except.ok (Config.loadOrDefault reading)
  | some path =>
      match Config.load reading with
      | Except.error e => Except.error (Failure.config path e)
      | Except.ok c => Except.ok c

/- The text to show, given the reading of it. -/
def loadText (a : Arguments)
    (reading : Except Files.ReadError Text) :
    Except Failure Text :=
  match reading with
  | Except.ok t => Except.ok t
  | Except.error e =>
      match a.file with
      | none => Except.error (Failure.input e)
      | some path => Except.error (Failure.file path e)

/-
  The mode to use: the one asked for, or that of the file's
  extension, or that of the settings.
-/
def modeKey (a : Arguments) (c : Config) : String :=
  match a.mode with
  | some mode => mode
  | none => (a.file.bind detectLanguage).getD c.editor.mode

/- The buffer to show. -/
def openBuffer (a : Arguments) (c : Config) (t : Text) :
    Except Failure Buffer :=
  match Registry.builtIn.get (modeKey a c) with
  | Except.error e => Except.error (Failure.language e)
  | Except.ok mode =>
      let b := Buffer.ofDocument (Document.withMode t mode)
      Except.ok
        ((b.setStartState a.state).setOptions
          c.editor.indentOptions)

/- The colours to use. -/
def loadTheme (c : Config) : Except Failure Theme :=
  match Theme.ofSettings c.theme with
  | Except.error e => Except.error (Failure.theme e)
  | Except.ok t => Except.ok t

/-
  What the command prints, given the readings of the
  settings and of the text. The first stage that fails
  decides.
-/
def run (a : Arguments)
    (config text : Except Files.ReadError Text) :
    Except Failure Text := do
  let c ← loadConfig a config
  let t ← loadText a text
  let b ← openBuffer a c t
  let theme ← loadTheme c
  Except.ok (display b theme a.view)

/-
  What the command prints in a directory of files with the
  user's settings below `configDir`.
-/
def runIn (tree : FileTree) (configDir : Text)
    (input : Except Files.ReadError Text) (a : Arguments) :
    Except Failure Text :=
  let configPath :=
    a.config.getD (configDir ++ '/' :: Config.defaultPath)
  let text :=
    match a.file with
    | none => input
    | some path => tree.read path
  run a (tree.read configPath) text

end Command

end Highlighter

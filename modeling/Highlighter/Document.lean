import Highlighter.Fold
import Highlighter.Indent
import Highlighter.Registry

/-
  Documents: a text with the mode, the state and the
  settings that it is highlighted with.

  Key definitions include:
    * `Document`
    * `Document.ofText`
    * `Document.ofFile`
    * `Document.tokens`
    * `Document.lineStates`
    * `Document.indents`
    * `Document.folds`
    * `Document.reindented`
-/

namespace Highlighter

/-
  A document. Its name is the name of the file it was read
  from, if it was read from one.
-/
structure Document where
  text : Text
  path : Option Text
  name : String
  mode : Mode
  startState : State
  options : IndentOptions

namespace Document

------------------------------------------------------------
-- Making documents
------------------------------------------------------------

/- A document in a mode. -/
def withMode (text : Text) (mode : Mode) : Document where
  text := text
  path := none
  name := "Untitled"
  mode := mode
  startState := State.start
  options := {}

/- A Qhantoom document. -/
def ofText (text : Text) : Document :=
  withMode text Qhantoom.mode

/-
  The document for a file with the given text. Its extension
  decides on the mode, Qhantoom unless it says otherwise.
-/
def ofFile (path text : Text) (registry : Registry) :
    Except Registry.UnknownLanguage Document :=
  let language := (detectLanguage path).getD Qhantoom.name
  match registry.get language with
  | Except.error e => Except.error e
  | Except.ok mode =>
      let name :=
        ((Path.fileName? path).map String.ofList).getD "Unknown"
      Except.ok
        { withMode text mode with path := some path, name := name }

------------------------------------------------------------
-- What follows from a document
------------------------------------------------------------

/- The number of lines. An empty document has one. -/
def lineCount (d : Document) : Nat := d.text.lines.length

/- The tokens of the text. -/
def tokens (d : Document) : List Token :=
  d.mode.rules.scan d.text d.startState

/- The tokens with the states of the lines. -/
def highlight (d : Document) : Highlight :=
  d.mode.rules.highlight d.text d.startState

/- The state that each line starts in. -/
def lineStates (d : Document) : List State :=
  d.mode.rules.lineStates d.text d.startState

/- The indentation of each line. -/
def indents (d : Document) : List LineIndent :=
  d.mode.rules.lineIndents d.mode.info d.text d.startState
    d.options

/- The regions to fold, in order of their openings. -/
def folds (d : Document) : List FoldRange :=
  FoldRange.ofTokens d.tokens

/- The outermost fold that starts on a line. -/
def foldAt (d : Document) (line : Nat) : Option FoldRange :=
  FoldRange.atLine d.folds line

------------------------------------------------------------
-- Indenting anew
------------------------------------------------------------

/-
  Move a line to the column suggested for it. A blank line
  and one without suggestion stay as they are.
-/
def moveLine
    (options : IndentOptions)
    (line : Text.Line)
    (column : Option Nat) : Text :=
  match column with
  | none => line.body ++ line.terminator
  | some column =>
      if line.body.isBlankText then
        line.body ++ line.terminator
      else
        line.body.reindent column options ++ line.terminator

/- Move lines to the columns suggested for them. -/
def moveLines (options : IndentOptions) :
    List Text.Line → List LineIndent → Text
  | [], _ => []
  | line :: lines, indents =>
      moveLine options line (indents.head?.bind (·.indent)) ++
        moveLines options lines indents.tail

/-
  The text with every line where it is meant to stand, given
  that there is room for each of the lines.
-/
def reindented (d : Document) : Text :=
  moveLines d.options d.text.lines d.indents

end Document

end Highlighter

import Highlighter.Document

/-
  Buffers: documents that keep what was computed from them
  until it may have changed.

  Key definitions include:
    * `Buffer`
    * `Buffer.ofDocument`
    * `Buffer.setText`
    * `Buffer.setStartState`
    * `Buffer.setOptions`
    * `Buffer.lineStates`
    * `Buffer.indents`
    * `Buffer.folds`
    * `Buffer.foldAt`
    * `Buffer.reindented`
-/

namespace Highlighter

/-
  A document with the results kept from earlier questions.
-/
structure Buffer where
  document : Document
  keptStates : Option (List State) := none
  keptIndents : Option (List LineIndent) := none
  keptFolds : Option (List FoldRange) := none

namespace Buffer

/- A buffer that has not been asked anything. -/
def ofDocument (d : Document) : Buffer := { document := d }

------------------------------------------------------------
-- Changes
------------------------------------------------------------

/- Forget all results. -/
def forget (b : Buffer) : Buffer := ofDocument b.document

/- Replace the text. -/
def setText (text : Text) (b : Buffer) : Buffer :=
  { b with document := { b.document with text := text } }.forget

/- Set the state that the first line starts in. -/
def setStartState (state : State) (b : Buffer) : Buffer :=
  { b with
    document := { b.document with startState := state } }.forget

/- Set the settings of indentation, all else being kept. -/
def setOptions (options : IndentOptions) (b : Buffer) : Buffer :=
  { b with
    document := { b.document with options := options }
    keptIndents := none }

------------------------------------------------------------
-- Questions
------------------------------------------------------------

/- The state that each line starts in. -/
def lineStates (b : Buffer) : List State × Buffer :=
  match b.keptStates with
  | some states => (states, b)
  | none =>
      let states := b.document.lineStates
      (states, { b with keptStates := some states })

/- The indentation of each line. -/
def indents (b : Buffer) : List LineIndent × Buffer :=
  match b.keptIndents with
  | some indents => (indents, b)
  | none =>
      let indents := b.document.indents
      (indents, { b with keptIndents := some indents })

/- The regions to fold. -/
def folds (b : Buffer) : List FoldRange × Buffer :=
  match b.keptFolds with
  | some folds => (folds, b)
  | none =>
      let folds := b.document.folds
      (folds, { b with keptFolds := some folds })

/- The outermost fold that starts on a line. -/
def foldAt (line : Nat) (b : Buffer) :
    Option FoldRange × Buffer :=
  let (folds, b) := b.folds
  (FoldRange.atLine folds line, b)

/- The text with every line where it is meant to stand. -/
def reindented (b : Buffer) : Text × Buffer :=
  let (indents, b) := b.indents
  (Document.moveLines b.document.options b.document.text.lines
    indents, b)

end Buffer

end Highlighter

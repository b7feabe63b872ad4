import Highlighter.Buffer

/-
  Sessions: buffers that are changed, copied and asked one
  after the other, in any order.

  Key definitions include:
    * `Buffer.Change`
    * `Buffer.Question`
    * `Buffer.ask`
    * `Session`
    * `Session.act`
    * `Session.run`
-/

namespace Highlighter

namespace Buffer

------------------------------------------------------------
-- Changes
------------------------------------------------------------

/- What can be changed about a buffer. -/
inductive Change
  | text (text : Text)
  | startState (state : State)
  | options (options : IndentOptions)
deriving DecidableEq, Repr

/- Make a change. -/
def change (b : Buffer) : Change → Buffer
  | Change.text text => b.setText text
  | Change.startState state => b.setStartState state
  | Change.options options => b.setOptions options

------------------------------------------------------------
-- Questions
------------------------------------------------------------

/- What a buffer can be asked for. -/
inductive Question
  | lineStates
  | indents
  | folds
  | foldAt (line : Nat)
  | reindented
  | tokens
  | highlight
deriving DecidableEq, Repr

/- What it answers. -/
inductive Answer
  | states (states : List State)
  | indents (indents : List LineIndent)
  | folds (folds : List FoldRange)
  | fold (fold : Option FoldRange)
  | text (text : Text)
  | tokens (tokens : List Token)
  | highlight (h : Highlight)
deriving DecidableEq, Repr

/-
  Ask a buffer. Tokens and highlighted texts are computed
  each time, all else is kept.
-/
def ask (b : Buffer) : Question → Answer × Buffer
  | Question.lineStates =>
      (Answer.states b.lineStates.1, b.lineStates.2)
  | Question.indents =>
      (Answer.indents b.indents.1, b.indents.2)
  | Question.folds => (Answer.folds b.folds.1, b.folds.2)
  | Question.foldAt line =>
      (Answer.fold (b.foldAt line).1, (b.foldAt line).2)
  | Question.reindented =>
      (Answer.text b.reindented.1, b.reindented.2)
  | Question.tokens => (Answer.tokens b.document.tokens, b)
  | Question.highlight =>
      (Answer.highlight b.document.highlight, b)

end Buffer

------------------------------------------------------------
-- Sessions
------------------------------------------------------------

/- The buffers that are open, by their numbers. -/
abbrev Session := List Buffer

namespace Session

/- What can be done with a buffer. -/
inductive Deed
  | change (c : Buffer.Change)
  | clone
  | ask (q : Buffer.Question)
deriving DecidableEq, Repr

/- Something done with the buffer of a number. -/
structure Action where
  number : Nat
  deed : Deed
deriving DecidableEq, Repr

/-
  Do something and note the answer, if it is a question. A
  copy of a buffer takes along the results kept in it and
  gets the next free number. Where no buffer has the number,
  nothing is done.
-/
def act (s : Session) (a : Action) :
    Option Buffer.Answer × Session :=
  match s[a.number]? with
  | none => (none, s)
  | some b =>
      match a.deed with
      | Deed.change c => (none, s.set a.number (b.change c))
      | Deed.clone => (none, s ++ [b])
      | Deed.ask q =>
          (some (b.ask q).1, s.set a.number (b.ask q).2)

/- Do one thing after the other and note all answers. -/
def run (s : Session) :
    List Action → List (Option Buffer.Answer) × Session
  | [] => ([], s)
  | a :: actions =>
      let (answer, s) := s.act a
      let (answers, s) := run s actions
      (answer :: answers, s)

end Session

end Highlighter

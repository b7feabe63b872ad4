import Highlighter.Scan

/-
  Highlighting: the tokens of a text with the states that
  its lines start in, and runs of equal label.

  Key definitions include:
    * `RuleTable.lineStates`
    * `Highlight`
    * `Highlight.runs`
    * `RuleTable.highlight`
-/

namespace Highlighter

namespace Token

/- The states that lines after the first start in. -/
def statesAfterBreaks (tokens : List Token) : List State :=
  (tokens.filter isLineBreak).map stateAfter

/- The state after some tokens that follow a state. -/
def endState (state : State) (tokens : List Token) : State :=
  (tokens.getLast?.map stateAfter).getD state

end Token

namespace RuleTable

/- The state that each line of a text starts in. -/
def lineStates (table : RuleTable) (text : Text)
    (state : State) : List State :=
  state :: Token.statesAfterBreaks (table.scan text state)

end RuleTable

/-
  A highlighted text: its tokens, the state each line starts
  in, and the state at the end.
-/
structure Highlight where
  tokens : List Token
  lineStates : List State
  endState : State
deriving DecidableEq, Repr

/- Adjacent tokens of one label, as a span of bytes. -/
structure Run where
  label : Option Label
  start : Nat
  stop : Nat
deriving DecidableEq, Repr

namespace Run

/- The run of one token. -/
def ofToken (t : Token) : Run := ⟨t.label, t.start, t.stop⟩

/- A token and a token after it share a run. -/
def joins (t next : Token) : Bool :=
  !t.isLineBreak && !next.isLineBreak && t.label == next.label

/-
  Extend the run of a token to the front by the runs after
  it, the first of which it may join.
-/
def push (t : Token) (next : Option Token) :
    List Run → List Run
  | [] => [ofToken t]
  | run :: runs =>
      if next.any (joins t) then
        ⟨t.label, t.start, run.stop⟩ :: runs
      else
        ofToken t :: run :: runs

/-
  The runs of some tokens. Line breaks are runs of their
  own, so no run crosses one.
-/
def ofTokens : List Token → List Run
  | [] => []
  | t :: rest => push t rest.head? (ofTokens rest)

end Run

namespace Highlight

/- The runs of a highlighted text. -/
def runs (h : Highlight) : List Run := Run.ofTokens h.tokens

end Highlight

namespace RuleTable

/- Scan a text and note the states of its lines. -/
def highlight (table : RuleTable) (text : Text)
    (state : State) : Highlight :=
  let tokens := table.scan text state
  ⟨tokens, state :: Token.statesAfterBreaks tokens,
    Token.endState state tokens⟩

end RuleTable

end Highlighter

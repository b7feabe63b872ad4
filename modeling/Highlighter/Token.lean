import Highlighter.Rule

/-
  Tokens: the labelled spans that a text is scanned into.

  Key definitions include:
    * `Cursor`
    * `Token`
    * `Token.stop`
    * `Token.isLineBreak`
    * `Token.layOut`
-/

namespace Highlighter

/- A byte offset and the state of the scan there. -/
structure Cursor where
  offset : Nat
  state : State
deriving DecidableEq, Repr

/-
  A span of a text with its label, if it has one, the state
  of the scan after it, and its effect on indentation.
-/
structure Token where
  label : Option Label
  text : Text
  start : Nat
  stateAfter : State
  effect : Effect
deriving DecidableEq, Repr

namespace Token

/- The byte offset just after a token. -/
def stop (t : Token) : Nat := t.start + t.text.size

/- Is the token one that stands at the end of a line? -/
def isLineBreak (t : Token) : Bool := t.text.isLineBreak

/- The same token further on in a text. -/
def shift (n : Nat) (t : Token) : Token :=
  { t with start := t.start + n }

/-
  The tokens of some pieces laid end to end from a byte
  offset on. The effect goes to the first of them.
-/
def layOut (stateAfter : State) :
    Effect → Nat → List Piece → List Token
  | _, _, [] => []
  | effect, offset, piece :: rest =>
      ⟨piece.label, piece.text, offset, stateAfter, effect⟩ ::
        layOut stateAfter Effect.none
          (offset + piece.text.size) rest

end Token

end Highlighter

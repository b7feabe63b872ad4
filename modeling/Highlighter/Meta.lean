import Highlighter.Regex.Match
import Highlighter.Regex.Source
import Highlighter.State

/-
  What an editor has to know about a language: its comment
  markers and where it indents.

  Key definitions include:
    * `FoldStrategy`
    * `LanguageMeta`
    * `LanguageMeta.indentsIn`
    * `LanguageMeta.isElectric`
    * `LanguageMeta.commentLine`
    * `LanguageMeta.uncommentLine`
    * `LanguageMeta.wrapBlockComment`
-/

namespace Highlighter

/- How the regions to fold are found. -/
inductive FoldStrategy
  | brace
deriving DecidableEq, Repr

namespace FoldStrategy

/- Every strategy. -/
def all : List FoldStrategy := [brace]

/- The name of a strategy. -/
def name : FoldStrategy → String
  | brace => "brace"

end FoldStrategy

/-
  The constants of a language. Lines that start in one of
  the states `dontIndent` are left alone by indentation, and
  an input that `electric` matches makes an editor indent
  the line anew.
-/
structure LanguageMeta where
  dontIndent : List State
  lineComment : Text
  blockStart : Text
  blockEnd : Text
  electric : Regex
  fold : FoldStrategy
deriving DecidableEq, Repr

namespace LanguageMeta

/- A closing brace alone on its line. -/
def loneClosingBrace : Regex :=
  Regex.concat
    [Regex.assert Assertion.textStart,
     Regex.many (Regex.set CharSet.blank),
     Regex.char '}',
     Regex.assert Assertion.textEnd]

/- Is a line just typed to be indented anew? -/
def isElectric (m : LanguageMeta) (line : Text) : Bool :=
  (m.electric.find line).isSome

/- Do lines that start in a state take part in indentation? -/
def indentsIn (m : LanguageMeta) (state : State) : Bool :=
  !m.dontIndent.contains state

/-
  Turn a line into a comment, its indentation staying in
  front.
-/
def commentLine (m : LanguageMeta) (line : Text) : Text :=
  line.leadingBlanks ++ m.lineComment ++
    ' ' :: line.trimStart

/-
  Take the comment marker off a line, and one space after
  it, if the line has the marker.
-/
def uncommentLine (m : LanguageMeta) (line : Text) :
    Option Text :=
  let body := line.trimStart
  if m.lineComment.isPrefixOf body then
    let rest := body.drop m.lineComment.length
    let rest := if rest.head? == some ' ' then rest.tail else rest
    some (line.leadingBlanks ++ rest)
  else
    none

/- Put a text between the markers of block comments. -/
def wrapBlockComment (m : LanguageMeta) (text : Text) : Text :=
  m.blockStart ++ text ++ m.blockEnd

end LanguageMeta

end Highlighter

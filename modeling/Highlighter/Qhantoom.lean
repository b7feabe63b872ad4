import Highlighter.Mode
import Highlighter.Qhantoom.Rules

/-
  The Qhantoom language as a mode.

  Key definitions include:
    * `Qhantoom.name`
    * `Qhantoom.contentTypes`
    * `Qhantoom.info`
    * `Qhantoom.mode`
-/

namespace Highlighter

namespace Qhantoom

/- The name of the mode. -/
def name : String := "qhantoom"

/- The content types that files of the language go by. -/
def contentTypes : List String :=
  ["text/x-qhantoomsrc", "text/qhantoom"]

/- The metadata: comments are not indented. -/
def info : LanguageMeta where
  dontIndent := [State.comment]
  lineComment := "//".toList
  blockStart := "/*".toList
  blockEnd := "*/".toList
  electric := LanguageMeta.loneClosingBrace
  fold := FoldStrategy.brace

/- The mode. -/
def mode : Mode := ⟨name, table, info⟩

end Qhantoom

end Highlighter

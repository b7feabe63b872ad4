import Highlighter.Meta
import Highlighter.RuleTable

/-
  Modes: the rules of a language with its metadata.

  Key definitions include:
    * `Mode`
-/

namespace Highlighter

/- A language by name, with its rules and its metadata. -/
structure Mode where
  name : String
  rules : RuleTable
  info : LanguageMeta

end Highlighter

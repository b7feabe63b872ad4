import Highlighter.RuleTable

/-
  The rules of the Qhantoom language.

  Key definitions include:
    * `Qhantoom.startRules`
    * `Qhantoom.stringRules`
    * `Qhantoom.rawStringRules`
    * `Qhantoom.hashStringRules`
    * `Qhantoom.commentRules`
    * `Qhantoom.entries`
    * `Qhantoom.table`
-/

namespace Highlighter

namespace Qhantoom

------------------------------------------------------------
-- Building rules
------------------------------------------------------------

/- A rule that labels a match of an expression. -/
def regex (source : Text) (label : Option Label) :
    Rule Pattern.Source where
  pattern := Pattern.Source.regex source
  labelling := Labelling.whole label

/- A rule that labels all text up to a literal. -/
def upTo (literal : Text) (label : Option Label) :
    Rule Pattern.Source where
  pattern := Pattern.Source.upTo literal
  labelling := Labelling.whole label

/-
  A rule for a keyword, blanks and the name that the keyword
  defines, in three groups.
-/
def defining (source : Text) : Rule Pattern.Source where
  pattern := Pattern.Source.regex source
  labelling :=
    Labelling.captures
      [(1, some Label.keyword), (2, none),
       (3, some Label.definition)]

/- The same rule moving to a state. -/
def moving (state : State) (r : Rule Pattern.Source) :
    Rule Pattern.Source :=
  { r with next := some state }

/- The same rule opening a level of indentation. -/
def indenting (r : Rule Pattern.Source) :
    Rule Pattern.Source :=
  { r with indents := true }

/- The same rule closing a level of indentation. -/
def dedenting (r : Rule Pattern.Source) :
    Rule Pattern.Source :=
  { r with dedents := true }

------------------------------------------------------------
-- Sources
------------------------------------------------------------

/- A quoted character, plain or escaped. -/
def characterSource : Text :=
  Text.ofParts
    ["'(?:[^'\\\\]|\\\\(?:[nrt0'\"]|x[0-9a-fA-F]\x7b2\x7d",
     "|u\\\x7b[0-9a-fA-F]\x7b6\x7d\\\x7d))'"]

/- A quoted byte, plain or escaped. -/
def byteSource : Text :=
  Text.ofParts
    ["b'(?:[^']|\\\\(?:['\\\\nrt0]|x[0-9a-fA-F]\x7b2\x7d))'"]

/- A number with an optional type at its end. -/
def numberSource : Text :=
  Text.ofParts
    ["(?:(?:[0-9][0-9_]*)",
     "(?:(?:[Ee][+-]?[0-9_]+)",
     "|\\.[0-9_]+(?:[Ee][+-]?[0-9_]+)?)(?:f32|f64)?)",
     "|(?:0(?:b[01_]+|(?:o[0-7_]+)|(?:x[0-9a-fA-F_]+))",
     "|(?:[0-9][0-9_]*))",
     "(?:u8|u16|u32|u64|s8|s16|s32|s64|sint|uint)?"]

/- A keyword that defines the name after it. -/
def definitionSource : Text :=
  Text.ofParts
    ["(val(?:\\s+mut)?|imu|mut|fun|enum|mod|exp|ext|struct",
     "|type|union)(\\s+)([a-zA-Z_][a-zA-Z0-9_]*)"]

/- The reserved words. -/
def keywordSource : Text :=
  Text.ofParts
    ["(?:abstract|alignof|as|async|await|box|break|capsule",
     "|chan|continue|const|crate|do|dyn|else|enum|exp|ext",
     "|fun|for|final|if|imp|impl|imu|in|load|loop|macro",
     "|match|mock|mod|move|offsetof|override|proc|pub|pure",
     "|ref|return|self|set|sizeof|spawn|static|struct|super",
     "|test|trait|type|typeof|union|unit|unsafe|unsized|use",
     "|val|virtual|wasm|where|while|yield)(?-u:\\b)"]

/- The built-in types. -/
def atomSource : Text :=
  Text.ofParts
    ["(?-u:\\b)(?:Self|sint|uint|char|bool|u8|u16|u32|u64",
     "|f16|f32|f64|s8|s16|s32|s64|str|Option)(?-u:\\b)"]

/- The built-in values and functions. -/
def builtinSource : Text :=
  Text.ofParts
    ["(?-u:\\b)(?:true|false|Some|None|Ok|Err|print)(?-u:\\b)"]

/- A function and its name. -/
def functionSource : Text :=
  Text.ofParts
    ["(?-u:\\b)(fun)(\\s+)([a-zA-Z_][a-zA-Z0-9_]*)"]

------------------------------------------------------------
-- Rules
------------------------------------------------------------

/- The rules outside of strings and comments. -/
def startRules : List (Rule Pattern.Source) :=
  [moving State.string
     (regex "b?\"".toList (some Label.string)),
   moving State.rawString
     (regex "b?r\"".toList (some Label.string)),
   moving State.hashString
     (regex "b?r#+\"".toList (some Label.string)),
   regex characterSource (some Label.string2),
   regex byteSource (some Label.string2),
   regex numberSource (some Label.number),
   defining definitionSource,
   regex keywordSource (some Label.keyword),
   regex atomSource (some Label.atom),
   regex builtinSource (some Label.builtin),
   defining functionSource,
   regex "#!?\\[.*\\]".toList (some Label.metadata),
   regex "//.*".toList (some Label.comment),
   moving State.comment
     (regex "/\\*".toList (some Label.comment)),
   regex "[-+/*=<>!:.]+".toList (some Label.operator),
   regex "[a-zA-Z_][a-zA-Z0-9_]*!".toList
     (some Label.identifier3),
   regex "[a-zA-Z_][a-zA-Z0-9_]*".toList
     (some Label.identifier),
   indenting (regex "[\x7b\\[(]".toList none),
   dedenting (regex "[\x7d\\])]".toList none)]

/- The rules inside of a string. -/
def stringRules : List (Rule Pattern.Source) :=
  [moving State.start
     (regex "\"".toList (some Label.string)),
   regex "(?:[^\\\\\"]|\\\\(?:.|$))*".toList (some Label.string)]

/- The rules inside of a raw string. -/
def rawStringRules : List (Rule Pattern.Source) :=
  [moving State.start
     (regex "\"".toList (some Label.string)),
   regex "[^\"]*".toList (some Label.string)]

/- The rules inside of a raw string with hashes. -/
def hashStringRules : List (Rule Pattern.Source) :=
  [moving State.start
     (regex "\"#+".toList (some Label.string)),
   upTo "\"#".toList (some Label.string)]

/- The rules inside of a block comment. -/
def commentRules : List (Rule Pattern.Source) :=
  [moving State.start
     (regex "(?:.*?)\\*/".toList (some Label.comment)),
   regex ".*".toList (some Label.comment)]

/- The rules of a state. -/
def rulesOf : State → List (Rule Pattern.Source)
  | State.start => startRules
  | State.string => stringRules
  | State.rawString => rawStringRules
  | State.hashString => hashStringRules
  | State.comment => commentRules

/- The table in written form. -/
def entries : List RuleTable.Entry :=
  State.all.map fun state => ⟨state, rulesOf state⟩

/- The table. -/
def table : RuleTable :=
  match RuleTable.compile entries with
  | Except.ok table => table
  | Except.error _ => RuleTable.empty

end Qhantoom

end Highlighter

import Highlighter.Proofs.Qhantoom.Table

/-
  The compiled rules of the start state and, with those of
  the other states, the whole compiled table, written out as
  expressions.

  Key definitions include:
    * `Qhantoom.startExprs`
    * `Qhantoom.compiled`

  Main statements:
    * `Qhantoom.rules_start`
    * `Qhantoom.table_eq_compiled`
-/

namespace Highlighter

namespace Qhantoom

open Regex

------------------------------------------------------------
-- Building expressions
------------------------------------------------------------

/- An expression or nothing. -/
def optional (a : Regex) : Regex := repeated true 0 (some 1) a

/- At least one round, as many as possible. -/
def some1 (a : Regex) : Regex := repeated true 1 none a

/- A number of rounds. -/
def exactly (n : Nat) (a : Regex) : Regex :=
  repeated true n (some n) a

/- A group without a number. -/
def bracketed (parts : List Regex) : Regex :=
  group none (concat parts)

/- A choice between expressions in a group. -/
def oneOf (branches : List Regex) : Regex :=
  group none (choice branches)

/- Any character of a text. -/
def anyOf (chars : String) : CharSet :=
  CharSet.unions (chars.toList.map CharSet.single)

/- The characters of a text one after the other. -/
def word (text : String) : Regex :=
  concat (text.toList.map char)

/- Any of some words, an earlier one preferred. -/
def anyWord (words : List String) : Regex :=
  choice (words.map word)

/- The edge of a word of ASCII characters. -/
def wordEdge : Regex :=
  group none (assert (Assertion.asciiWord WordEdge.boundary))

------------------------------------------------------------
-- Characters
------------------------------------------------------------

/- The letters a name may begin with. -/
def nameStart : CharSet :=
  CharSet.unions
    [CharSet.range 'a' 'z', CharSet.range 'A' 'Z',
      CharSet.single '_']

/- The characters of a name. -/
def nameChar : CharSet :=
  CharSet.unions
    [CharSet.range 'a' 'z', CharSet.range 'A' 'Z',
      CharSet.asciiDigit, CharSet.single '_']

/- A name. -/
def nameExpr : Regex :=
  cat (set nameStart) (many (set nameChar))

/- A hexadecimal digit. -/
def hexDigit : CharSet :=
  CharSet.unions
    [CharSet.asciiDigit, CharSet.range 'a' 'f',
      CharSet.range 'A' 'F']

/- A digit, or an underscore between digits. -/
def digitOrGap : CharSet :=
  CharSet.unions [CharSet.asciiDigit, CharSet.single '_']

------------------------------------------------------------
-- Expressions of the start state
------------------------------------------------------------

/- A quoted character, plain or escaped. -/
def characterExpr : Regex :=
  concat
    [char '\'',
      oneOf
        [set (CharSet.compl (anyOf "'\\")),
          concat
            [char '\\',
              oneOf
                [set (anyOf "nrt0'\""),
                  concat [char 'x', exactly 2 (set hexDigit)],
                  concat
                    [char 'u', char (Char.ofNat 0x7b),
                      exactly 6 (set hexDigit),
                      char (Char.ofNat 0x7d)]]]],
      char '\'']

/- A quoted byte, plain or escaped. -/
def byteExpr : Regex :=
  concat
    [char 'b', char '\'',
      oneOf
        [set (CharSet.compl (CharSet.single '\'')),
          concat
            [char '\\',
              oneOf
                [set (anyOf "'\\nrt0"),
                  concat [char 'x', exactly 2 (set hexDigit)]]]],
      char '\'']

/- Digits with underscores between them. -/
def digitsExpr : Regex :=
  bracketed [set CharSet.asciiDigit, many (set digitOrGap)]

/- The power of ten at the end of a number. -/
def exponentExpr : Regex :=
  bracketed
    [set (anyOf "Ee"), optional (set (anyOf "+-")),
      some1 (set digitOrGap)]

/- A number with an optional type at its end. -/
def numberExpr : Regex :=
  alt
    (bracketed
      [digitsExpr,
        oneOf
          [exponentExpr,
            concat
              [char '.', some1 (set digitOrGap),
                optional exponentExpr]],
        optional (oneOf [word "f32", word "f64"])])
    (cat
      (oneOf
        [concat
          [char '0',
            oneOf
              [concat [char 'b', some1 (set (anyOf "01_"))],
                bracketed
                  [char 'o',
                    some1 (set (CharSet.unions
                      [CharSet.range '0' '7',
                        CharSet.single '_']))],
                bracketed
                  [char 'x',
                    some1 (set (CharSet.unions
                      [CharSet.asciiDigit,
                        CharSet.range 'a' 'f',
                        CharSet.range 'A' 'F',
                        CharSet.single '_']))]]],
          digitsExpr])
      (optional
        (group none
          (anyWord
            ["u8", "u16", "u32", "u64", "s8", "s16", "s32",
              "s64", "sint", "uint"]))))

/- Blanks and the name that a keyword before them defines. -/
def definedName : List Regex :=
  [group (some 2) (some1 (set CharSet.blank)),
    group (some 3) nameExpr]

/- A keyword that defines the name after it. -/
def definitionExpr : Regex :=
  concat
    (group (some 1)
      (choice
        (concat
            ("val".toList.map char ++
              [optional
                (bracketed
                  (some1 (set CharSet.blank) ::
                    "mut".toList.map char))]) ::
          ["imu", "mut", "fun", "enum", "mod", "exp", "ext",
            "struct", "type", "union"].map word)) ::
      definedName)

/- A function and its name. -/
def functionExpr : Regex :=
  concat
    (wordEdge :: group (some 1) (word "fun") :: definedName)

/- The reserved words. -/
def keywords : List String :=
  ["abstract", "alignof", "as", "async", "await", "box",
    "break", "capsule", "chan", "continue", "const", "crate",
    "do", "dyn", "else", "enum", "exp", "ext", "fun", "for",
    "final", "if", "imp", "impl", "imu", "in", "load", "loop",
    "macro", "match", "mock", "mod", "move", "offsetof",
    "override", "proc", "pub", "pure", "ref", "return", "self",
    "set", "sizeof", "spawn", "static", "struct", "super",
    "test", "trait", "type", "typeof", "union", "unit",
    "unsafe", "unsized", "use", "val", "virtual", "wasm",
    "where", "while", "yield"]

/- The built-in types. -/
def atoms : List String :=
  ["Self", "sint", "uint", "char", "bool", "u8", "u16", "u32",
    "u64", "f16", "f32", "f64", "s8", "s16", "s32", "s64",
    "str", "Option"]

/- The built-in values and functions. -/
def builtins : List String :=
  ["true", "false", "Some", "None", "Ok", "Err", "print"]

/- The characters of operators. -/
def operatorChars : CharSet := anyOf "-+/*=<>!:."

/- The opening brackets. -/
def openers : CharSet :=
  CharSet.unions
    [CharSet.single (Char.ofNat 0x7b), CharSet.single '[',
      CharSet.single '(']

/- The closing brackets. -/
def closingBrackets : CharSet :=
  CharSet.unions
    [CharSet.single (Char.ofNat 0x7d), CharSet.single ']',
      CharSet.single ')']

/- The expressions of the start state in order. -/
def startExprs : List Regex :=
  [cat (optional (char 'b')) quote,
    concat [optional (char 'b'), char 'r', quote],
    concat
      [optional (char 'b'), char 'r', some1 (char '#'), quote],
    characterExpr,
    byteExpr,
    numberExpr,
    definitionExpr,
    cat (group none (anyWord keywords)) wordEdge,
    concat [wordEdge, group none (anyWord atoms), wordEdge],
    concat [wordEdge, group none (anyWord builtins), wordEdge],
    functionExpr,
    concat
      [char '#', optional (char '!'), char '[', lineText,
        char ']'],
    concat [char '/', char '/', lineText],
    word "/*",
    some1 (set operatorChars),
    concat [set nameStart, many (set nameChar), char '!'],
    nameExpr,
    set openers,
    set closingBrackets]

------------------------------------------------------------
-- The table
------------------------------------------------------------

/- The rules of the start state, compiled. -/
def compiledStart : List (Rule Pattern) :=
  List.zipWith
    (fun r a => r.withPattern (Pattern.regex (anchored a)))
    startRules startExprs

theorem rules_start :
    table.rules State.start = compiledStart := by
  apply rules_table
  decide +kernel

/- The rules of a state, compiled. -/
def compiledOf (state : State) : List (Rule Pattern) :=
  if state = State.start then compiledStart
  else
    [ruleIn state (closing state) (some State.start),
      ruleIn state (filling state) none]

theorem rules_eq_compiledOf (state : State) :
    table.rules state = compiledOf state := by
  unfold compiledOf
  split
  · rename_i hState
    rw [hState, rules_start]
  · rename_i hState
    exact rules_of_ne_start hState

/- The compiled table. -/
def compiled : RuleTable := ⟨fun state => some (compiledOf state)⟩

theorem compiledOf_ne_nil (state : State) :
    compiledOf state ≠ [] := by
  unfold compiledOf
  split
  · apply List.ne_nil_of_length_pos
    rw [compiledStart, List.length_zipWith]
    decide
  · exact List.cons_ne_nil _ _

/- The table is what its entries are compiled to. -/
theorem table_eq_compiled : table = compiled := by
  apply RuleTable.eq_of_rulesFor?_eq
  intro state
  have hEq := rules_eq_compiledOf state
  have hSome := compiledOf_ne_nil state
  rw [RuleTable.rules] at hEq
  rw [compiled]
  cases hFor : table.rulesFor? state with
  | none =>
      rw [hFor, Option.getD_none] at hEq
      rw [← hEq] at hSome
      exact absurd rfl hSome
  | some rules =>
      rw [hFor, Option.getD_some] at hEq
      rw [hEq]

end Qhantoom

end Highlighter

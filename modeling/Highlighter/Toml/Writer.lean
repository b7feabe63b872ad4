import Highlighter.Data
import Highlighter.Text.Numeral
import Highlighter.Toml.Basic

/-
  Data written as a TOML document.

  Key definitions include:
    * `Toml.Style`
    * `Toml.styleOf`
    * `Toml.writeString`
    * `Toml.writeKey`
    * `Toml.write`
-/

namespace Highlighter

namespace Toml

------------------------------------------------------------
-- Strings
------------------------------------------------------------

/- The forms in which strings are written. -/
inductive Style
  | basic
  | literal
  | longBasic
  | longLiteral
deriving DecidableEq, Repr

/- A control character, other than a tab or a line feed. -/
def isControl (c : Char) : Bool :=
  (c.toNat < 0x20 && c != '\t' && c != '\n') ||
    c.toNat == 0x7F

/- Does a character stand three times in a row somewhere? -/
def hasThree (mark : Char) : Text → Bool
  | [] => false
  | c :: rest =>
      [mark, mark, mark].isPrefixOf (c :: rest) ||
        hasThree mark rest

/-
  The form for a string: the first of those in order that
  needs no escapes. Where all need some, quotation marks,
  three of them if the string has several lines.
-/
def styleOf (t : Text) : Style :=
  let isPlain := !t.any isControl
  let isLong := t.contains '\n'
  let hasBackslash := t.contains '\\'
  if isPlain && !isLong && !hasBackslash &&
      !t.contains '"' then
    Style.basic
  else if isPlain && !isLong && !t.contains '\'' then
    Style.literal
  else if isPlain && !hasBackslash && !hasThree '"' t then
    Style.longBasic
  else if isPlain && !hasThree '\'' t then
    Style.longLiteral
  else if isLong then
    Style.longBasic
  else
    Style.basic

/-
  A string with escapes for what cannot stand for itself. A
  line feed can in the long form, and so can two quotation
  marks in a row, which `quotes` counts.
-/
def escape (isLong : Bool) (quotes : Nat) : Text → Text
  | [] => []
  | c :: rest =>
      if c = '"' then
        if isLong ∧ quotes < 2 then
          c :: escape isLong (quotes + 1) rest
        else
          '\\' :: c :: escape isLong 0 rest
      else if c = '\n' then
        if isLong then
          c :: escape isLong 0 rest
        else
          '\\' :: 'n' :: escape isLong 0 rest
      else if c = '\t' then
        '\\' :: 't' :: escape isLong 0 rest
      else if c = '\r' then
        '\\' :: 'r' :: escape isLong 0 rest
      else if c = '\\' then
        '\\' :: '\\' :: escape isLong 0 rest
      else if c.toNat = 0x08 then
        '\\' :: 'b' :: escape isLong 0 rest
      else if c.toNat = 0x0C then
        '\\' :: 'f' :: escape isLong 0 rest
      else if isControl c then
        '\\' :: 'u' ::
          Text.paddedHex Text.upperDigit 4 c.toNat ++
            escape isLong 0 rest
      else
        c :: escape isLong 0 rest

/-
  What follows the opening marks of a long form: a string
  of several lines starts on a line of its own.
-/
def opening (t : Text) : Text :=
  if t.contains '\n' then ['\n'] else []

/- A string in a form. -/
def writeStyled (t : Text) : Style → Text
  | Style.basic => '"' :: escape false 0 t ++ ['"']
  | Style.literal => '\'' :: t ++ ['\'']
  | Style.longBasic =>
      ['"', '"', '"'] ++ opening t ++ escape true 0 t ++
        ['"', '"', '"']
  | Style.longLiteral =>
      ['\'', '\'', '\''] ++ opening t ++ t ++
        ['\'', '\'', '\'']

/- A string. -/
def writeString (t : Text) : Text := writeStyled t (styleOf t)

------------------------------------------------------------
-- Keys
------------------------------------------------------------

/- The characters of keys in apostrophes. -/
def isLiteralKeyChar (c : Char) : Bool :=
  !isControl c && c != '\n' && c != '\''

/-
  A key: bare if it can be, in apostrophes if quotation
  marks or backslashes are in it and they will do, else in
  quotation marks.
-/
def writeKey (key : String) : Text :=
  let t := key.toList
  if t ≠ [] ∧ t.all isBareKeyChar then
    t
  else if (t.contains '"' || t.contains '\\') &&
      t.all isLiteralKeyChar then
    writeStyled t Style.literal
  else
    writeStyled t Style.basic

------------------------------------------------------------
-- Documents
------------------------------------------------------------

/- A whole number, which has to fit into 64 bits. -/
def writeInteger (n : Int) : Option Text :=
  if fitsInteger n then
    if n < 0 then
      some ('-' :: Text.decimal n.natAbs)
    else
      some (Text.decimal n.natAbs)
  else
    none

/- A value on one line, if it is one that can be written. -/
def writeScalar : Data → Option Text
  | Data.text s => some (writeString s.toList)
  | Data.int n => writeInteger n
  | Data.bool b =>
      some (if b then "true" else "false").toList
  | _ => none

/- The lines of the entries of a table that are no tables. -/
def writeLines : List (String × Data) → Option Text
  | [] => some []
  | (_, Data.map _) :: rest => writeLines rest
  | (key, d) :: rest => do
      let value ← writeScalar d
      let others ← writeLines rest
      some
        (writeKey key ++ [' ', '=', ' '] ++ value ++
          '\n' :: others)

/- Keys with dots between them. -/
def writePath : List String → Text
  | [] => []
  | [key] => writeKey key
  | key :: rest => writeKey key ++ '.' :: writePath rest

/-
  The header and the lines of a table. The outermost table
  has no header, and a table of nothing but tables is shown
  by them alone.
-/
def ownBlock (path : List String) (isEmpty : Bool)
    (lines : Text) : List Text :=
  if lines = [] ∧ (path = [] ∨ ¬isEmpty) then
    []
  else if path = [] then
    [lines]
  else
    ['[' :: writePath path ++ [']', '\n'] ++ lines]

mutual

/- The blocks of the table at a path and of those in it. -/
def writeBlocks (path : List String) :
    Data → Option (List Text)
  | Data.map entries => do
      let lines ← writeLines entries
      let inner ← writeInner path entries
      some (ownBlock path entries.isEmpty lines ++ inner)
  | _ => some []

/- The blocks of the tables among some entries. -/
def writeInner (path : List String) :
    List (String × Data) → Option (List Text)
  | [] => some []
  | (key, d) :: rest => do
      let first ← writeBlocks (path ++ [key]) d
      let others ← writeInner path rest
      some (first ++ others)

end

/- Blocks with an empty line between them. -/
def joinBlocks : List Text → Text
  | [] => []
  | [block] => block
  | block :: rest => block ++ '\n' :: joinBlocks rest

/-
  Data as a document, if all its values can be written.
-/
def write (d : Data) : Option Text :=
  (writeBlocks [] d).map joinBlocks

end Toml

end Highlighter

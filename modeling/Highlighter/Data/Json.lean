import Highlighter.Data
import Highlighter.Text.Numeral

/-
  Data written as JSON, one entry a line and indented by two
  spaces a level.

  Key definitions include:
    * `Json.quote`
    * `Json.write`
-/

namespace Highlighter

namespace Json

/-
  A character inside a quoted text. Quotation marks,
  backslashes and control characters below the space are
  escaped.
-/
def quoteChar (c : Char) : Text :=
  match c with
  | '"' => ['\\', '"']
  | '\\' => ['\\', '\\']
  | '\n' => ['\\', 'n']
  | '\r' => ['\\', 'r']
  | '\t' => ['\\', 't']
  | _ =>
      if c.toNat = 0x08 then
        ['\\', 'b']
      else if c.toNat = 0x0C then
        ['\\', 'f']
      else if c.toNat < 0x20 then
        '\\' :: 'u' :: Text.paddedHex Text.lowerDigit 4 c.toNat
      else
        [c]

/- A text in quotation marks. -/
def quote (t : Text) : Text :=
  '"' :: t.flatMap quoteChar ++ ['"']

/- A line break and the indentation of a level after it. -/
def lineAt (level : Nat) : Text :=
  '\n' :: List.replicate (2 * level) ' '

/- A number in decimal, with its sign if it is negative. -/
def integer (n : Int) : Text :=
  if n < 0 then
    '-' :: Text.decimal n.natAbs
  else
    Text.decimal n.natAbs

mutual

/- Data that starts on a line of the given level. -/
def write (level : Nat) : Data → Text
  | Data.null => "null".toList
  | Data.bool b => (if b then "true" else "false").toList
  | Data.int n => integer n
  | Data.real => "null".toList
  | Data.text s => quote s.toList
  | Data.list [] => "[]".toList
  | Data.list (d :: rest) =>
      '[' :: lineAt (level + 1) ++ write (level + 1) d ++
        writeItems level rest
  | Data.map [] => ['{', '}']
  | Data.map ((key, d) :: rest) =>
      '{' :: lineAt (level + 1) ++ quote key.toList ++
        ':' :: ' ' :: write (level + 1) d ++
        writeEntries level rest

/- The items after the first and the end of their list. -/
def writeItems (level : Nat) : List Data → Text
  | [] => lineAt level ++ [']']
  | d :: rest =>
      ',' :: lineAt (level + 1) ++ write (level + 1) d ++
        writeItems level rest

/- The entries after the first and the end of their map. -/
def writeEntries (level : Nat) : List (String × Data) → Text
  | [] => lineAt level ++ ['}']
  | (key, d) :: rest =>
      ',' :: lineAt (level + 1) ++ quote key.toList ++
        ':' :: ' ' :: write (level + 1) d ++
        writeEntries level rest

end

end Json

end Highlighter

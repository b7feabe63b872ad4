import Highlighter.Text.Numeral
import Highlighter.Text.Printable

/-
  Texts quoted so that every character of them shows.

  Key definitions include:
    * `Text.quoteChar`
    * `Text.quoted`
-/

namespace Highlighter

namespace Text

/-
  A character inside of quotation marks. Those that do not
  show by themselves are given by their code points.
-/
def quoteChar (c : Char) : Text :=
  match c with
  | '\x00' => ['\\', '0']
  | '\t' => ['\\', 't']
  | '\r' => ['\\', 'r']
  | '\n' => ['\\', 'n']
  | '"' => ['\\', '"']
  | '\\' => ['\\', '\\']
  | _ =>
      if isPrintable c then
        [c]
      else
        '\\' :: 'u' :: '{' :: hex c.toNat ++ ['}']

/- A text in quotation marks. -/
def quoted (t : Text) : Text :=
  '"' :: t.flatMap quoteChar ++ ['"']

end Text

end Highlighter

import Highlighter.Assoc
import Highlighter.Color
import Highlighter.Token

/-
  Themes: a colour for every label, and text coloured by
  them for a terminal.

  Key definitions include:
    * `Theme`
    * `Theme.monokai`
    * `Theme.light`
    * `Theme.byName?`
    * `Theme.Settings`
    * `Theme.ofSettings`
    * `Theme.color`
    * `Theme.render`
-/

namespace Highlighter

/- The colours of the labels. -/
structure LabelColors where
  string : Color
  string2 : Color
  number : Color
  keyword : Color
  atom : Color
  builtin : Color
  definition : Color
  metadata : Color
  comment : Color
  operator : Color
  identifier : Color
  identifier3 : Color
deriving DecidableEq, Repr

namespace LabelColors

/- The colour of a label. -/
def get (c : LabelColors) : Label → Color
  | Label.string => c.string
  | Label.string2 => c.string2
  | Label.number => c.number
  | Label.keyword => c.keyword
  | Label.atom => c.atom
  | Label.builtin => c.builtin
  | Label.definition => c.definition
  | Label.metadata => c.metadata
  | Label.comment => c.comment
  | Label.operator => c.operator
  | Label.identifier => c.identifier
  | Label.identifier3 => c.identifier3

/- Give a label another colour. -/
def set (c : LabelColors) (color : Color) :
    Label → LabelColors
  | Label.string => { c with string := color }
  | Label.string2 => { c with string2 := color }
  | Label.number => { c with number := color }
  | Label.keyword => { c with keyword := color }
  | Label.atom => { c with atom := color }
  | Label.builtin => { c with builtin := color }
  | Label.definition => { c with definition := color }
  | Label.metadata => { c with metadata := color }
  | Label.comment => { c with comment := color }
  | Label.operator => { c with operator := color }
  | Label.identifier => { c with identifier := color }
  | Label.identifier3 => { c with identifier3 := color }

end LabelColors

/-
  A theme: its name, whether it is dark, the colour of text
  without a label, and the colours of the labels.
-/
structure Theme where
  name : String
  isDark : Bool
  foreground : Color
  colors : LabelColors
deriving DecidableEq, Repr

namespace Theme

------------------------------------------------------------
-- Built-in themes
------------------------------------------------------------

/- The dark theme. -/
def monokai : Theme where
  name := "monokai"
  isDark := true
  foreground := ⟨0xF8, 0xF8, 0xF2⟩
  colors :=
    { string := ⟨0xE6, 0xDB, 0x74⟩
      string2 := ⟨0xE6, 0xDB, 0x74⟩
      number := ⟨0xAE, 0x81, 0xFF⟩
      keyword := ⟨0xF9, 0x26, 0x72⟩
      atom := ⟨0xAE, 0x81, 0xFF⟩
      builtin := ⟨0x66, 0xD9, 0xEF⟩
      definition := ⟨0xFD, 0x97, 0x1F⟩
      metadata := ⟨0xA6, 0xE2, 0x2E⟩
      comment := ⟨0x75, 0x71, 0x5E⟩
      operator := ⟨0xF8, 0xF8, 0xF2⟩
      identifier := ⟨0xF8, 0xF8, 0xF2⟩
      identifier3 := ⟨0x66, 0xD9, 0xEF⟩ }

/- The light theme. -/
def light : Theme where
  name := "light"
  isDark := false
  foreground := ⟨0x00, 0x00, 0x00⟩
  colors :=
    { string := ⟨0xAA, 0x11, 0x11⟩
      string2 := ⟨0xFF, 0x55, 0x00⟩
      number := ⟨0x11, 0x66, 0x44⟩
      keyword := ⟨0x77, 0x00, 0x88⟩
      atom := ⟨0x22, 0x11, 0x99⟩
      builtin := ⟨0x33, 0x00, 0xAA⟩
      definition := ⟨0x00, 0x00, 0xFF⟩
      metadata := ⟨0x55, 0x55, 0x55⟩
      comment := ⟨0xAA, 0x55, 0x00⟩
      operator := ⟨0x00, 0x00, 0x00⟩
      identifier := ⟨0x00, 0x00, 0x00⟩
      identifier3 := ⟨0x00, 0x88, 0x55⟩ }

/- A built-in theme by one of its names. -/
def byName? (name : String) : Option Theme :=
  if name = "monokai" ∨ name = "dark" then
    some monokai
  else if name = "light" ∨ name = "default" then
    some light
  else
    none

------------------------------------------------------------
-- Settings
------------------------------------------------------------

/-
  The settings of a theme: a built-in theme by name, and
  colours to put in place of its own, by the name of a label
  or `foreground`.
-/
structure Settings where
  name : String := "monokai"
  overrides : Assoc String := []
deriving DecidableEq, Repr

/- An override with a bad key or a bad colour. -/
structure InvalidColor where
  key : String
  value : String
deriving DecidableEq, Repr

/- What is said about a bad override. -/
def InvalidColor.message (e : InvalidColor) : String :=
  "Invalid color for " ++ e.key ++ ": " ++ e.value

/- Put a colour in place of the one under a key. -/
def override (key : String) (value : String) (t : Theme) :
    Except InvalidColor Theme :=
  match Color.ofHex? value.toList with
  | none => Except.error ⟨key, value⟩
  | some color =>
      if key = "foreground" then
        Except.ok { t with foreground := color }
      else
        match Label.ofName? key with
        | none => Except.error ⟨key, value⟩
        | some label =>
            Except.ok { t with colors := t.colors.set color label }

/- Apply overrides one after the other. -/
def overrideAll :
    Assoc String → Theme → Except InvalidColor Theme
  | [], t => Except.ok t
  | (key, value) :: rest, t =>
      match t.override key value with
      | Except.error e => Except.error e
      | Except.ok t => overrideAll rest t

/- The theme that settings ask for, dark for unknown names. -/
def ofSettings (s : Settings) : Except InvalidColor Theme :=
  overrideAll s.overrides ((byName? s.name).getD monokai)

------------------------------------------------------------
-- Colouring
------------------------------------------------------------

/- The colour of tokens with a label or without one. -/
def color (t : Theme) : Option Label → Color
  | none => t.foreground
  | some label => t.colors.get label

/- The escape sequence that ends a colour. -/
def reset : Text := Char.ofNat 0x1B :: "[0m".toList

/-
  A token for a terminal. Labelled text is put between its
  colour and a reset, other text and line breaks are left
  plain.
-/
def renderToken (t : Theme) (token : Token) : Text :=
  if token.isLineBreak || token.label.isNone then
    token.text
  else
    (t.color token.label).ansi ++ token.text ++ reset

/- Tokens for a terminal. -/
def render (t : Theme) (tokens : List Token) : Text :=
  tokens.flatMap t.renderToken

end Theme

end Highlighter

import Highlighter.Config
import Highlighter.Meta

/-
  Names, options, colours and themes as data.

  Key definitions include:
    * `Data.label?`
    * `Data.state?`
    * `Data.effect?`
    * `Data.foldStrategy?`
    * `IndentOptions.ofData?`
    * `Color.ofData?`
    * `Theme.ofData?`
    * `Token.toData`
    * `Highlight.toData`
-/

namespace Highlighter

------------------------------------------------------------
-- Names
------------------------------------------------------------

namespace Data

/- A label by its name. -/
def label? : Data → Option Label := named? Label.ofName?

/- A state by its name. -/
def state? : Data → Option State := named? State.ofName?

/- An effect by its name. -/
def effect? : Data → Option Effect :=
  named? fun name => Effect.all.find? (·.name == name)

/- A strategy to fold by its name. -/
def foldStrategy? : Data → Option FoldStrategy :=
  named? fun name => FoldStrategy.all.find? (·.name == name)

end Data

------------------------------------------------------------
-- Options
------------------------------------------------------------

namespace IndentOptions

/- Options from data. Fields not given have defaults. -/
def ofData? (d : Data) : Option IndentOptions := do
  let r ← d.record? true
    ["indent_unit", "tab_size", "use_tabs"]
  let indentUnit ← r.optional "indent_unit" Data.size? 2
  let tabSize ← r.optional "tab_size" Data.size? 2
  let useTabs ← r.optional "use_tabs" Data.bool? true
  some ⟨indentUnit, tabSize, useTabs⟩

/- Options as data. -/
def toData (o : IndentOptions) : Data :=
  Data.map
    [("indent_unit", Data.int o.indentUnit),
     ("tab_size", Data.int o.tabSize),
     ("use_tabs", Data.bool o.useTabs)]

end IndentOptions

------------------------------------------------------------
-- Colours and themes
------------------------------------------------------------

namespace Color

/- A colour from data. -/
def ofData? (d : Data) : Option Color := do
  let r ← d.record? true ["r", "g", "b"]
  let red ← r.required "r" Data.byte?
  let green ← r.required "g" Data.byte?
  let blue ← r.required "b" Data.byte?
  some ⟨red, green, blue⟩

/- A colour as data. -/
def toData (c : Color) : Data :=
  Data.map
    [("r", Data.int c.r.toNat), ("g", Data.int c.g.toNat),
     ("b", Data.int c.b.toNat)]

end Color

namespace LabelColors

/- The names of the fields. -/
def fieldNames : List String :=
  ["string", "string_2", "number", "keyword", "atom",
   "builtin", "def", "meta", "comment", "operator",
   "variable", "variable_3"]

/- Colours from data, one for every label. -/
def ofData? (d : Data) : Option LabelColors := do
  let r ← d.record? true fieldNames
  let field := fun (name : String) =>
    r.required name Color.ofData?
  some
    { string := ← field "string"
      string2 := ← field "string_2"
      number := ← field "number"
      keyword := ← field "keyword"
      atom := ← field "atom"
      builtin := ← field "builtin"
      definition := ← field "def"
      metadata := ← field "meta"
      comment := ← field "comment"
      operator := ← field "operator"
      identifier := ← field "variable"
      identifier3 := ← field "variable_3" }

/- Colours as data. -/
def toData (c : LabelColors) : Data :=
  Data.map
    (fieldNames.zip
      (Label.all.map fun label => (c.get label).toData))

end LabelColors

namespace Theme

/- A theme from data. -/
def ofData? (d : Data) : Option Theme := do
  let r ← d.record? true
    ["name", "is_dark", "foreground", "syntax"]
  let name ← r.required "name" Data.text?
  let isDark ← r.required "is_dark" Data.bool?
  let foreground ← r.required "foreground" Color.ofData?
  let colors ← r.required "syntax" LabelColors.ofData?
  some ⟨name, isDark, foreground, colors⟩

/- A theme as data. -/
def toData (t : Theme) : Data :=
  Data.map
    [("name", Data.text t.name),
     ("is_dark", Data.bool t.isDark),
     ("foreground", t.foreground.toData),
     ("syntax", t.colors.toData)]

end Theme

------------------------------------------------------------
-- Highlighted texts
------------------------------------------------------------

/- A text as data. -/
def Text.toData (t : Text) : Data :=
  Data.text (String.ofList t)

/- A token as data. -/
def Token.toData (t : Token) : Data :=
  Data.map
    [("kind",
        match t.label with
        | none => Data.null
        | some label => Data.text label.name),
     ("text", t.text.toData),
     ("start", Data.int t.start),
     ("end", Data.int t.stop),
     ("state_after", Data.text t.stateAfter.name),
     ("effect", Data.text t.effect.name)]

/- A highlighted text as data. -/
def Highlight.toData (h : Highlight) : Data :=
  Data.map
    [("tokens", Data.list (h.tokens.map Token.toData)),
     ("line_states", Data.list
        (h.lineStates.map fun s => Data.text s.name)),
     ("end_state", Data.text h.endState.name)]

end Highlighter

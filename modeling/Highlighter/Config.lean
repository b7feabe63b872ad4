import Highlighter.Data
import Highlighter.Indent
import Highlighter.Theme

/-
  Settings of the highlighter.

  Key definitions include:
    * `EditorSettings`
    * `EditorSettings.indentOptions`
    * `Config`
    * `Config.ofData?`
    * `Config.toData`
-/

namespace Highlighter

/-
  Settings of the editor: the name or content type of the
  mode, and of the indentation the columns between tab
  stops, the columns of a level, and whether to write tabs.
-/
structure EditorSettings where
  mode : String := "qhantoom"
  tabSize : Nat := 2
  indentUnit : Nat := 2
  indentWithTabs : Bool := true
deriving DecidableEq, Repr

/- All settings. -/
structure Config where
  editor : EditorSettings := {}
  theme : Theme.Settings := {}
deriving DecidableEq, Repr

namespace EditorSettings

/- The settings of indentation for a scan. -/
def indentOptions (e : EditorSettings) : IndentOptions :=
  ⟨e.indentUnit, e.tabSize, e.indentWithTabs⟩

/- The names of the fields. -/
def fieldNames : List String :=
  ["mode", "tab_size", "indent_unit", "indent_with_tabs"]

/- Settings from data. Fields not given have defaults. -/
def ofData? (strict : Bool) (d : Data) :
    Option EditorSettings := do
  let r ← d.record? strict fieldNames
  let mode ← r.optional "mode" Data.text? "qhantoom"
  let tabSize ← r.optional "tab_size" Data.size? 2
  let indentUnit ← r.optional "indent_unit" Data.size? 2
  let tabs ← r.optional "indent_with_tabs" Data.bool? true
  some ⟨mode, tabSize, indentUnit, tabs⟩

/- Settings as data. -/
def toData (e : EditorSettings) : Data :=
  Data.map
    [("mode", Data.text e.mode),
     ("tab_size", Data.int e.tabSize),
     ("indent_unit", Data.int e.indentUnit),
     ("indent_with_tabs", Data.bool e.indentWithTabs)]

end EditorSettings

namespace Theme.Settings

/- The names of the fields. -/
def fieldNames : List String := ["name", "overrides"]

/- Settings from data. Fields not given have defaults. -/
def ofData? (strict : Bool) (d : Data) :
    Option Theme.Settings := do
  let r ← d.record? strict fieldNames
  let name ← r.optional "name" Data.text? "monokai"
  let overrides ← r.optional "overrides" Data.texts? []
  some ⟨name, overrides⟩

/- Settings as data. -/
def toData (s : Theme.Settings) : Data :=
  Data.map
    [("name", Data.text s.name),
     ("overrides", Data.map
        (s.overrides.map fun (key, value) =>
          (key, Data.text value)))]

end Theme.Settings

namespace Config

/- The names of the fields. -/
def fieldNames : List String := ["editor", "theme"]

/- Settings from data. Fields not given have defaults. -/
def ofData? (strict : Bool) (d : Data) : Option Config := do
  let r ← d.record? strict fieldNames
  let editor ←
    r.optional "editor" (EditorSettings.ofData? strict) {}
  let theme ←
    r.optional "theme" (Theme.Settings.ofData? strict) {}
  some ⟨editor, theme⟩

/- Settings as data. -/
def toData (c : Config) : Data :=
  Data.map
    [("editor", c.editor.toData), ("theme", c.theme.toData)]

end Config

end Highlighter

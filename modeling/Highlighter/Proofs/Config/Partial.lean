import Highlighter.Proofs.Config
import Highlighter.Proofs.Toml.Keys

/-
  Settings from documents that give some of them: what is
  given replaces a default, and a document with one value of
  a wrong kind gives no settings at all.

  Key definitions include:
    * `Config.Setting`
    * `Config.Setting.Accepts`
    * `Config.Gives`
    * `Config.RightlyTyped`
    * `Config.Overlays`

  Main statements:
    * `Config.ofData?_eq_some_iff`
    * `Config.exists_overlays`
    * `Config.load_partial`
-/

namespace Highlighter

/- Settings are read field by field. -/
theorem EditorSettings.ofData?_eq_some_iff
    {strict : Bool}
    {d : Data}
    {e : EditorSettings} :
    ofData? strict d = some e ↔
      ∃ r, d.record? strict fieldNames = some r ∧
        r.optional "mode" Data.text? "qhantoom" =
          some e.mode ∧
        r.optional "tab_size" Data.size? 2 =
          some e.tabSize ∧
        r.optional "indent_unit" Data.size? 2 =
          some e.indentUnit ∧
        r.optional "indent_with_tabs" Data.bool? true =
          some e.indentWithTabs := by
  rcases e with ⟨mode, tabSize, indentUnit, tabs⟩
  simp [ofData?, Option.bind_eq_some_iff, -Bool.exists_bool]

theorem Theme.Settings.ofData?_eq_some_iff
    {strict : Bool}
    {d : Data}
    {s : Theme.Settings} :
    ofData? strict d = some s ↔
      ∃ r, d.record? strict fieldNames = some r ∧
        r.optional "name" Data.text? "monokai" =
          some s.name ∧
        r.optional "overrides" Data.texts? [] =
          some s.overrides := by
  rcases s with ⟨name, overrides⟩
  simp [ofData?, Option.bind_eq_some_iff]

namespace Config

theorem ofData?_eq_some_iff_record
    {strict : Bool}
    {d : Data}
    {c : Config} :
    ofData? strict d = some c ↔
      ∃ r, d.record? strict fieldNames = some r ∧
        r.optional "editor" (EditorSettings.ofData? strict)
          {} = some c.editor ∧
        r.optional "theme" (Theme.Settings.ofData? strict)
          {} = some c.theme := by
  rcases c with ⟨editor, theme⟩
  simp [ofData?, Option.bind_eq_some_iff]

------------------------------------------------------------
-- Settings
------------------------------------------------------------

/- What a document can set. -/
inductive Setting
  | mode
  | tabSize
  | indentUnit
  | indentWithTabs
  | themeName
  | overrides
deriving DecidableEq, Repr

namespace Setting

/- The section of a setting. -/
def heading : Setting → String
  | mode => "editor"
  | tabSize => "editor"
  | indentUnit => "editor"
  | indentWithTabs => "editor"
  | themeName => "theme"
  | overrides => "theme"

theorem heading_eq (s : Setting) :
    s.heading = "editor" ∨ s.heading = "theme" := by
  cases s <;> simp [heading]

/- Its key in a section that is a table. -/
def key : Setting → String
  | mode => "mode"
  | tabSize => "tab_size"
  | indentUnit => "indent_unit"
  | indentWithTabs => "indent_with_tabs"
  | themeName => "name"
  | overrides => "overrides"

/- Its place in a section that is an array. -/
def place : Setting → Nat
  | mode => 0
  | tabSize => 1
  | indentUnit => 2
  | indentWithTabs => 3
  | themeName => 0
  | overrides => 1

/- The values of a setting. -/
def Kind : Setting → Type
  | mode => String
  | tabSize => Nat
  | indentUnit => Nat
  | indentWithTabs => Bool
  | themeName => String
  | overrides => Assoc String

/- A value in a document, as it is read. -/
def decode? : (s : Setting) → Data → Option s.Kind
  | mode => Data.text?
  | tabSize => Data.size?
  | indentUnit => Data.size?
  | indentWithTabs => Data.bool?
  | themeName => Data.text?
  | overrides => Data.texts?

/- A value as it stands in a document. -/
def encode : (s : Setting) → s.Kind → Data
  | mode, name => Data.text name
  | tabSize, columns => Data.int (Int.ofNat columns)
  | indentUnit, columns => Data.int (Int.ofNat columns)
  | indentWithTabs, tabs => Data.bool tabs
  | themeName, name => Data.text name
  | overrides, colors =>
      Data.map (List.map (fun e => (e.1, Data.text e.2)) colors)

/-
  The data of the right kind: texts for names, numbers of 64
  bits without a sign for sizes, and for overrides a table
  of texts.
-/
def Accepts : Setting → Data → Prop
  | mode, v => ∃ name, v = Data.text name
  | tabSize, v =>
      ∃ n : Nat, v = Data.int n ∧ n < 0x10000000000000000
  | indentUnit, v =>
      ∃ n : Nat, v = Data.int n ∧ n < 0x10000000000000000
  | indentWithTabs, v => ∃ tabs, v = Data.bool tabs
  | themeName, v => ∃ name, v = Data.text name
  | overrides, v =>
      ∃ colors : Assoc String,
        v = Data.map (colors.map fun e => (e.1, Data.text e.2))

theorem encode_injective
    (s : Setting)
    {a b : s.Kind}
    (h : s.encode a = s.encode b) : a = b := by
  cases s with
  | mode | themeName => exact Data.text.inj h
  | tabSize | indentUnit => exact Int.ofNat.inj (Data.int.inj h)
  | indentWithTabs => exact Data.bool.inj h
  | overrides =>
      apply List.map_injective_iff.mpr _ (Data.map.inj h)
      rintro ⟨key, color⟩ ⟨key', color'⟩ hEntry
      cases hEntry
      rfl

/- What is read is of the right kind, and all of that is. -/
theorem decode?_eq_some_iff
    (s : Setting)
    {v : Data}
    {a : s.Kind} :
    s.decode? v = some a ↔ s.Accepts v ∧ v = s.encode a := by
  cases s with
  | mode | themeName =>
      refine Data.text?_eq_some_iff.trans ?_
      exact (and_iff_right_of_imp fun h => ⟨a, h⟩).symm
  | tabSize | indentUnit =>
      refine Data.size?_eq_some_iff.trans ?_
      constructor
      · exact fun h => ⟨⟨a, h⟩, h.1⟩
      · rintro ⟨⟨n, hNat, hBound⟩, hValue⟩
        cases Int.ofNat.inj (Data.int.inj (hNat.symm.trans hValue))
        exact ⟨hNat, hBound⟩
  | indentWithTabs =>
      refine Data.bool?_eq_some_iff.trans ?_
      exact (and_iff_right_of_imp fun h => ⟨a, h⟩).symm
  | overrides =>
      refine Data.texts?_eq_some_iff.trans ?_
      exact (and_iff_right_of_imp fun h => ⟨a, h⟩).symm

/- So what is of the right kind is the data of a value. -/
theorem Accepts.exists_encode
    {s : Setting}
    {v : Data}
    (h : s.Accepts v) : ∃ a, v = s.encode a := by
  cases s with
  | mode | indentWithTabs | themeName | overrides => exact h
  | tabSize | indentUnit =>
      rcases h with ⟨n, hNat, _⟩
      exact ⟨n, hNat⟩

end Setting

/- What settings have for one setting. -/
def get (c : Config) : (s : Setting) → s.Kind
  | Setting.mode => c.editor.mode
  | Setting.tabSize => c.editor.tabSize
  | Setting.indentUnit => c.editor.indentUnit
  | Setting.indentWithTabs => c.editor.indentWithTabs
  | Setting.themeName => c.theme.name
  | Setting.overrides => c.theme.overrides

/- And its data. -/
def value (c : Config) (s : Setting) : Data :=
  s.encode (c.get s)

section

variable
  {c c' : Config}
  {s : Setting}

theorem value_eq_iff :
    c.value s = c'.value s ↔ c.get s = c'.get s :=
  ⟨s.encode_injective, congrArg s.encode⟩

theorem editor_eq_iff
    (c c' : Config) :
    c.editor = c'.editor ↔
      ∀ s : Setting, s.heading = "editor" →
        c.value s = c'.value s := by
  simp only [value_eq_iff]
  constructor
  · intro h s hHeading
    cases s with
    | mode => exact congrArg EditorSettings.mode h
    | tabSize => exact congrArg EditorSettings.tabSize h
    | indentUnit => exact congrArg EditorSettings.indentUnit h
    | indentWithTabs =>
        exact congrArg EditorSettings.indentWithTabs h
    | themeName | overrides =>
        exact absurd hHeading (by decide)
  · intro h
    have hMode := h Setting.mode rfl
    have hTabSize := h Setting.tabSize rfl
    have hUnit := h Setting.indentUnit rfl
    have hTabs := h Setting.indentWithTabs rfl
    rcases c with ⟨⟨_, _, _, _⟩, _⟩
    rcases c' with ⟨⟨_, _, _, _⟩, _⟩
    cases hMode
    cases hTabSize
    cases hUnit
    cases hTabs
    rfl

theorem theme_eq_iff
    (c c' : Config) :
    c.theme = c'.theme ↔
      ∀ s : Setting, s.heading = "theme" →
        c.value s = c'.value s := by
  simp only [value_eq_iff]
  constructor
  · intro h s hHeading
    cases s with
    | themeName => exact congrArg Theme.Settings.name h
    | overrides => exact congrArg Theme.Settings.overrides h
    | mode | tabSize | indentUnit | indentWithTabs =>
        exact absurd hHeading (by decide)
  · intro h
    have hName := h Setting.themeName rfl
    have hOverrides := h Setting.overrides rfl
    rcases c with ⟨_, ⟨_, _⟩⟩
    rcases c' with ⟨_, ⟨_, _⟩⟩
    cases hName
    cases hOverrides
    rfl

/- Settings are told by their values. -/
theorem eq_of_value_eq
    (h : ∀ s, c.value s = c'.value s) : c = c' := by
  have hEditor := (editor_eq_iff c c').mpr fun s _ => h s
  have hTheme := (theme_eq_iff c c').mpr fun s _ => h s
  cases c
  cases c'
  cases hEditor
  cases hTheme
  rfl

/- And there are some for values of the right kind. -/
theorem exists_value_eq
    {values : Setting → Data}
    (h : ∀ s : Setting, s.Accepts (values s)) :
    ∃ c : Config, ∀ s, c.value s = values s := by
  have hEncode : ∀ s, ∃ a, values s = s.encode a :=
    fun s => (h s).exists_encode
  choose a ha using hEncode
  refine ⟨⟨⟨a Setting.mode, a Setting.tabSize,
    a Setting.indentUnit, a Setting.indentWithTabs⟩,
    ⟨a Setting.themeName, a Setting.overrides⟩⟩, ?_⟩
  intro s
  rw [ha s]
  cases s <;> rfl

/- The defaults are of the right kind. -/
theorem accepts_default (s : Setting) :
    s.Accepts (({} : Config).value s) := by
  cases s with
  | mode | indentWithTabs | themeName | overrides =>
      exact ⟨_, rfl⟩
  | tabSize | indentUnit => exact ⟨2, rfl, by decide⟩

end

------------------------------------------------------------
-- Documents
------------------------------------------------------------

/- A document gives a setting a value. -/
def Gives (d : Data) (s : Setting) (v : Data) : Prop :=
  ∃ part, d.HasEntry s.heading part ∧
    part.Field s.key s.place v

/- All that a document gives settings is of the right kind. -/
structure RightlyTyped (d : Data) : Prop where
  sections :
    ∀ (s : Setting) (part : Data),
      d.HasEntry s.heading part → part.IsSection
  settings : ∀ s v, Gives d s v → s.Accepts v

/-
  Settings have what a document gives, and the defaults for
  all that it does not give.
-/
structure Overlays (c : Config) (d : Data) : Prop where
  given : ∀ s v, Gives d s v → c.value s = v
  notGiven :
    ∀ s, (∀ v, ¬Gives d s v) →
      c.value s = ({} : Config).value s

section

variable
  {c : Config}
  {d part : Data}
  {s : Setting}

/- A document gives a setting one value. -/
theorem Gives.unique
    {v w : Data}
    (h : Gives d s v)
    (h' : Gives d s w)
    (hKeyed : d.KeyedOnce) : v = w := by
  rcases h with ⟨part, hPart, hField⟩
  rcases h' with ⟨part', hPart', hField'⟩
  cases hPart.unique hPart' hKeyed
  exact hField.unique hField' (hPart.keyedOnce hKeyed)

/- There is one way to lay a document over the defaults. -/
theorem Overlays.unique
    {c' : Config}
    (h : c.Overlays d)
    (h' : c'.Overlays d) : c = c' := by
  apply eq_of_value_eq
  intro s
  by_cases hGiven : ∃ v, Gives d s v
  · rcases hGiven with ⟨v, hGives⟩
    rw [h.given s v hGives, h'.given s v hGives]
  · have hNone : ∀ v, ¬Gives d s v := not_exists.mp hGiven
    rw [h.notGiven s hNone, h'.notGiven s hNone]

/- And there is one if it has no value of a wrong kind. -/
theorem exists_overlays
    (hTyped : RightlyTyped d)
    (hKeyed : d.KeyedOnce) :
    ∃ c : Config, c.Overlays d := by
  have hValue :
      ∀ s : Setting, ∃ w, s.Accepts w ∧
        (∀ v, Gives d s v → w = v) ∧
        ((∀ v, ¬Gives d s v) → w = ({} : Config).value s) := by
    intro s
    by_cases hGiven : ∃ v, Gives d s v
    · rcases hGiven with ⟨w, hGives⟩
      exact ⟨w, hTyped.settings s w hGives,
        fun v hv => hGives.unique hv hKeyed,
        fun hNone => absurd hGives (hNone w)⟩
    · exact ⟨_, accepts_default s,
        fun v hv => absurd ⟨v, hv⟩ hGiven, fun _ => rfl⟩
  choose values hAccepts hGiven hNotGiven using hValue
  rcases exists_value_eq hAccepts with ⟨c, hc⟩
  exact ⟨c, fun s v hv => (hc s).trans (hGiven s v hv),
    fun s hNone => (hc s).trans (hNotGiven s hNone)⟩

------------------------------------------------------------
-- Reading
------------------------------------------------------------

/-
  A section settles a setting: the value that it gives is of
  the right kind, and without one the default is kept.
-/
structure SettledIn
    (s : Setting)
    (c : Config)
    (part : Data) : Prop where
  given :
    ∀ v, part.Field s.key s.place v →
      s.Accepts v ∧ v = c.value s
  notGiven :
    (∀ v, ¬part.Field s.key s.place v) →
      ({} : Config).value s = c.value s

/- An optional field settles a setting. -/
theorem optional_iff_settledIn
    {names : List String}
    {r : Data.Record}
    (hRecord : part.record? false names = some r)
    (hNames : names.Nodup)
    (hKeyed : part.KeyedOnce)
    (s : Setting)
    (hKey : names[s.place]? = some s.key) :
    r.optional s.key s.decode? (({} : Config).get s) =
        some (c.get s) ↔
      SettledIn s c part := by
  rw [Data.Record.optional_eq_some_iff
    (Data.nodup_keys_record? hRecord hNames hKeyed)]
  simp only [Data.mem_record?_iff hRecord hNames hKey,
    s.decode?_eq_some_iff, ← value_eq_iff]
  exact ⟨fun h => ⟨h.1, h.2⟩, fun h => ⟨h.given, h.notGiven⟩⟩

theorem ofData?_editor_iff
    (hKeyed : part.KeyedOnce) :
    EditorSettings.ofData? false part = some c.editor ↔
      part.IsSection ∧
        ∀ s : Setting, s.heading = "editor" →
          SettledIn s c part := by
  have hNames : EditorSettings.fieldNames.Nodup := by decide
  rw [EditorSettings.ofData?_eq_some_iff]
  apply Data.exists_record?_iff
  intro r hRecord
  have hField := optional_iff_settledIn (c := c) hRecord hNames
    hKeyed
  constructor
  · rintro ⟨hMode, hTabSize, hUnit, hTabs⟩ s hHeading
    cases s with
    | mode => exact (hField Setting.mode rfl).mp hMode
    | tabSize => exact (hField Setting.tabSize rfl).mp hTabSize
    | indentUnit =>
        exact (hField Setting.indentUnit rfl).mp hUnit
    | indentWithTabs =>
        exact (hField Setting.indentWithTabs rfl).mp hTabs
    | themeName | overrides =>
        exact absurd hHeading (by decide)
  · intro h
    exact ⟨(hField Setting.mode rfl).mpr (h _ rfl),
      (hField Setting.tabSize rfl).mpr (h _ rfl),
      (hField Setting.indentUnit rfl).mpr (h _ rfl),
      (hField Setting.indentWithTabs rfl).mpr (h _ rfl)⟩

theorem ofData?_theme_iff
    (hKeyed : part.KeyedOnce) :
    Theme.Settings.ofData? false part = some c.theme ↔
      part.IsSection ∧
        ∀ s : Setting, s.heading = "theme" →
          SettledIn s c part := by
  have hNames : Theme.Settings.fieldNames.Nodup := by decide
  rw [Theme.Settings.ofData?_eq_some_iff]
  apply Data.exists_record?_iff
  intro r hRecord
  have hField := optional_iff_settledIn (c := c) hRecord hNames
    hKeyed
  constructor
  · rintro ⟨hName, hOverrides⟩ s hHeading
    cases s with
    | themeName => exact (hField Setting.themeName rfl).mp hName
    | overrides =>
        exact (hField Setting.overrides rfl).mp hOverrides
    | mode | tabSize | indentUnit | indentWithTabs =>
        exact absurd hHeading (by decide)
  · intro h
    exact ⟨(hField Setting.themeName rfl).mpr (h _ rfl),
      (hField Setting.overrides rfl).mpr (h _ rfl)⟩

/-
  A document settles a setting: by its section or, without
  one, by the default.
-/
structure Settled
    (s : Setting)
    (c : Config)
    (d : Data) : Prop where
  present :
    ∀ part, d.HasEntry s.heading part →
      part.IsSection ∧ SettledIn s c part
  absent :
    (∀ part, ¬d.HasEntry s.heading part) →
      ({} : Config).value s = c.value s

/- An optional section settles the settings in it. -/
theorem optional_iff_settled
    {entries : List (String × Data)}
    (hKeyed : (Data.map entries).KeyedOnce)
    {heading : String}
    (hHeading : ∃ s : Setting, s.heading = heading)
    {α : Type}
    {decode : Data → Option α}
    {fallback a : α}
    (hDecode :
      ∀ part : Data, part.KeyedOnce →
        (decode part = some a ↔
          part.IsSection ∧
            ∀ s : Setting, s.heading = heading →
              SettledIn s c part))
    (hFallback :
      fallback = a ↔
        ∀ s : Setting, s.heading = heading →
          ({} : Config).value s = c.value s) :
    Data.Record.optional entries heading decode fallback =
        some a ↔
      ∀ s : Setting, s.heading = heading →
        Settled s c (Data.map entries) := by
  have hEntry :
      ∀ part, (heading, part) ∈ entries ↔
        (Data.map entries).HasEntry heading part :=
    fun part => Data.hasEntry_map.symm
  have hKeys : (Assoc.keys entries).Nodup := by
    cases hKeyed
    assumption
  rw [Data.Record.optional_eq_some_iff hKeys]
  simp only [hEntry]
  constructor
  · rintro ⟨hPresent, hAbsent⟩ s rfl
    refine ⟨fun part hPart => ?_,
      fun hNone => hFallback.mp (hAbsent hNone) s rfl⟩
    have hPartKeyed := hPart.keyedOnce hKeyed
    rcases (hDecode part hPartKeyed).mp (hPresent part hPart)
      with ⟨hSection, hSettled⟩
    exact ⟨hSection, hSettled s rfl⟩
  · intro h
    constructor
    · intro part hPart
      rw [hDecode part (hPart.keyedOnce hKeyed)]
      rcases hHeading with ⟨s, rfl⟩
      refine ⟨((h s rfl).present part hPart).1, ?_⟩
      intro s' hSame
      exact ((h s' hSame).present part (hSame ▸ hPart)).2
    · intro hNone
      rw [hFallback]
      rintro s rfl
      exact (h s rfl).absent hNone

/-
  Every setting is settled if no value is of a wrong kind and
  the settings are the document laid over the defaults.
-/
theorem forall_settled_iff
    (hKeyed : d.KeyedOnce) :
    (∀ s, Settled s c d) ↔ RightlyTyped d ∧ c.Overlays d := by
  constructor
  · intro h
    refine ⟨⟨?_, ?_⟩, ⟨?_, ?_⟩⟩
    · exact fun s part hPart => ((h s).present part hPart).1
    · rintro s v ⟨part, hPart, hField⟩
      exact (((h s).present part hPart).2.given v hField).1
    · rintro s v ⟨part, hPart, hField⟩
      exact (((h s).present part hPart).2.given v hField).2.symm
    · intro s hNone
      by_cases hPresent : ∃ part, d.HasEntry s.heading part
      · rcases hPresent with ⟨part, hPart⟩
        refine (((h s).present part hPart).2.notGiven ?_).symm
        exact fun v hField => hNone v ⟨part, hPart, hField⟩
      · exact ((h s).absent (not_exists.mp hPresent)).symm
  · rintro ⟨hTyped, hOver⟩ s
    refine ⟨fun part hPart => ?_, fun hNone => ?_⟩
    · refine ⟨hTyped.sections s part hPart, ⟨?_, ?_⟩⟩
      · intro v hField
        have hGives : Gives d s v := ⟨part, hPart, hField⟩
        exact ⟨hTyped.settings s v hGives,
          (hOver.given s v hGives).symm⟩
      · intro hNone
        refine (hOver.notGiven s ?_).symm
        rintro v ⟨part', hPart', hField⟩
        cases hPart.unique hPart' hKeyed
        exact hNone v hField
    · refine (hOver.notGiven s ?_).symm
      rintro v ⟨part, hPart, _⟩
      exact hNone part hPart

/-
  Settings are those of a document if it has no value of a
  wrong kind and they are it laid over the defaults.
-/
theorem ofData?_eq_some_iff
    {entries : List (String × Data)}
    (hKeyed : (Data.map entries).KeyedOnce) :
    ofData? false (Data.map entries) = some c ↔
      RightlyTyped (Data.map entries) ∧
        c.Overlays (Data.map entries) := by
  have hEditor := optional_iff_settled hKeyed
    ⟨Setting.mode, rfl⟩ (fun _ h => ofData?_editor_iff h)
    (editor_eq_iff {} c)
  have hTheme := optional_iff_settled hKeyed
    ⟨Setting.themeName, rfl⟩ (fun _ h => ofData?_theme_iff h)
    (theme_eq_iff {} c)
  rw [← forall_settled_iff hKeyed, ofData?_eq_some_iff_record]
  constructor
  · rintro ⟨_, hRecord, hParts⟩ s
    cases hRecord
    rcases s.heading_eq with hHeading | hHeading
    · exact hEditor.mp hParts.1 s hHeading
    · exact hTheme.mp hParts.2 s hHeading
  · intro h
    exact ⟨entries, rfl, hEditor.mpr fun s _ => h s,
      hTheme.mpr fun s _ => h s⟩

------------------------------------------------------------
-- Files
------------------------------------------------------------

theorem load_eq_ok_iff
    {t : Text}
    (hRead : Toml.read t = some d) :
    load (Except.ok t) = Except.ok c ↔
      ofData? false d = some c := by
  rw [load, ofToml?, hRead, Option.bind_some]
  cases ofData? false d <;> simp

theorem load_eq_parse_iff
    {t : Text}
    (hRead : Toml.read t = some d) :
    load (Except.ok t) = Except.error LoadError.parse ↔
      ∀ c, ofData? false d ≠ some c := by
  rw [load, ofToml?, hRead, Option.bind_some]
  cases ofData? false d <;> simp

end

/-
  A document with no value of a wrong kind is laid over the
  defaults, whatever the order of its entries and whatever
  else is in it. One value of a wrong kind, and nothing of
  the document is used.
-/
theorem load_partial
    {t : Text}
    {d : Data}
    (hRead : Toml.read t = some d) :
    (RightlyTyped d →
      ∃ c, load (Except.ok t) = Except.ok c ∧
        c.Overlays d ∧
        ∀ c' : Config, c'.Overlays d → c' = c) ∧
    (¬RightlyTyped d →
      load (Except.ok t) = Except.error LoadError.parse ∧
        loadOrDefault (Except.ok t) = {}) := by
  rcases Toml.keyedOnce_read hRead with ⟨entries, rfl, hKeyed⟩
  constructor
  · intro hTyped
    rcases exists_overlays hTyped hKeyed with ⟨c, hOver⟩
    refine ⟨c, ?_, hOver, fun c' hOver' => hOver'.unique hOver⟩
    rw [load_eq_ok_iff hRead, ofData?_eq_some_iff hKeyed]
    exact ⟨hTyped, hOver⟩
  · intro hTyped
    have hParse :
        load (Except.ok t) = Except.error LoadError.parse := by
      rw [load_eq_parse_iff hRead]
      intro c hData
      exact hTyped ((ofData?_eq_some_iff hKeyed).mp hData).1
    refine ⟨hParse, ?_⟩
    rw [loadOrDefault, hParse]

/- A size and an unknown key are read as they are written. -/
theorem read_tabSize
    {n : Int}
    {t : Text}
    (hText :
      Toml.write
          (Data.map
            [("editor", Data.map
                [("bell", Data.int 0), ("tab_size", Data.int n)])]) =
        some t) :
    Toml.read t =
      some
        (Data.map
          [("editor", Data.map
              [("bell", Data.int 0), ("tab_size", Data.int n)])]) := by
  have hNone : Toml.LaidOut Toml.pathLimit [] :=
    Toml.LaidOut.values (by simp) (by simp [Assoc.keys])
  have hSizes :
      Toml.LaidOut 78
        [("bell", Data.int 0), ("tab_size", Data.int n)] := by
    refine Toml.LaidOut.values ?_ (by simp [Assoc.keys])
    rintro e he ⟨entries, hData⟩
    simp only [List.mem_cons, List.not_mem_nil, or_false] at he
    rcases he with rfl | rfl <;> cases hData
  exact Toml.read_write
    (hNone.table (by simp [Assoc.keys]) hSizes) hText

/- A size among unknown keys, and one that is negative. -/
theorem load_partial_sizes :
    let four : Text :=
      "[editor]\nbell = 0\ntab_size = 4\n".toList
    let negative : Text :=
      "[editor]\nbell = 0\ntab_size = -4\n".toList
    load (Except.ok four) =
      Except.ok { editor := { tabSize := 4 } } ∧
    load (Except.ok negative) =
      Except.error LoadError.parse ∧
    loadOrDefault (Except.ok negative) = {} := by
  intro four negative
  have hFour :=
    read_tabSize (n := 4) (t := four) (by decide +kernel)
  have hNegative :=
    read_tabSize (n := -4) (t := negative) (by decide +kernel)
  constructor
  · rcases Toml.keyedOnce_read hFour with ⟨_, hEntries, hKeyed⟩
    cases hEntries
    rcases (ofData?_eq_some_iff hKeyed).mp rfl with
      ⟨hTyped, hOver⟩
    rcases (load_partial hFour).1 hTyped with
      ⟨c, hLoad, _, hUnique⟩
    cases hUnique _ hOver
    exact hLoad
  · refine (load_partial hNegative).2 ?_
    intro hTyped
    have hAccepts :
        Setting.tabSize.Accepts (Data.int (-4)) := by
      refine hTyped.settings _ _
        ⟨_, ⟨_, rfl, List.mem_cons_self ..⟩,
          Data.Field.entry ?_⟩
      exact List.mem_cons_of_mem _ (List.mem_cons_self ..)
    rcases hAccepts with ⟨n, hInt, _⟩
    have hSize : (-4 : Int) = n := Data.int.inj hInt
    omega

/-
  A section may be an array, which need not be full: with
  `editor = []` all is as by default.
-/
theorem load_section_in_array :
    ¬∀ (t : Text) (d part : Data),
      Toml.read t = some d →
      d.HasEntry "editor" part →
      (∀ entries, part ≠ Data.map entries) →
      load (Except.ok t) = Except.error LoadError.parse := by
  intro h
  have hRead :
      Toml.read
          ['e', 'd', 'i', 't', 'o', 'r', ' ', '=', ' ', '[',
            ']'] =
        some (Data.map [("editor", Data.list [])]) := rfl
  have hParse := h _ _ (Data.list []) hRead
    ⟨_, rfl, List.mem_cons_self ..⟩
    (fun _ hMap => by cases hMap)
  have hLoad := (load_eq_ok_iff (c := {}) hRead).mpr rfl
  cases hParse.symm.trans hLoad

end Config

end Highlighter

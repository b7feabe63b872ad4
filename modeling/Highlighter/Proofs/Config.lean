import Highlighter.Config.File
import Highlighter.Proofs.Data
import Highlighter.Proofs.Toml.Documents

/-
  Settings that are saved and loaded: what is written for
  them is read as the settings they were, and what cannot be
  written leaves the file as it was.

  Key definitions include:
    * `Files.Target.IsWritable`
    * `Config.entries`
    * `Config.FitsIntegers`

  Main statements:
    * `Config.ofData?_toData`
    * `Config.laidOut_entries`
    * `Config.isSome_toToml?_iff`
    * `Config.ofToml?_of_toToml?`
    * `Config.save_unchanged`
    * `Config.load_save`
-/

namespace Highlighter

------------------------------------------------------------
-- Files
------------------------------------------------------------

/- A text is what its own bytes stand for. -/
theorem Files.decode_encode (t : Text) :
    decode (encode t) = Except.ok t := by
  have hValid : (encode t).IsValidUTF8 :=
    (String.ofList t).isValidUTF8
  have hBytes :
      String.fromUTF8? (encode t) = some (String.ofList t) := by
    rw [String.fromUTF8?, dif_pos hValid]
    rfl
  rw [decode, hBytes]
  simp only [String.toList_ofList]

namespace Files.Target

/-
  The directories above a file can be made, and it can be
  opened for writing.
-/
def IsWritable (target : Target) : Prop :=
  target.noDirectory = none ∧ target.noAccess = none

end Files.Target

------------------------------------------------------------
-- Entries
------------------------------------------------------------

/- The entries of the data of settings. -/
def EditorSettings.entries (e : EditorSettings) :
    List (String × Data) :=
  [("mode", Data.text e.mode),
   ("tab_size", Data.int e.tabSize),
   ("indent_unit", Data.int e.indentUnit),
   ("indent_with_tabs", Data.bool e.indentWithTabs)]

def Theme.Settings.texts (s : Theme.Settings) :
    List (String × Data) :=
  s.overrides.map fun e => (e.1, Data.text e.2)

def Theme.Settings.entries (s : Theme.Settings) :
    List (String × Data) :=
  [("name", Data.text s.name), ("overrides", Data.map s.texts)]

def Config.entries (c : Config) : List (String × Data) :=
  [("editor", Data.map c.editor.entries),
   ("theme", Data.map c.theme.entries)]

theorem Config.toData_eq (c : Config) :
    c.toData = Data.map c.entries := rfl

theorem EditorSettings.not_isTable_entries
    (e : EditorSettings) :
    ∀ f ∈ e.entries, ¬Toml.IsTable f.2 := by
  rintro f hf ⟨entries, hData⟩
  simp only [EditorSettings.entries, List.mem_cons,
    List.not_mem_nil, or_false] at hf
  rcases hf with rfl | rfl | rfl | rfl <;> cases hData

theorem Theme.Settings.not_isTable_texts
    (s : Theme.Settings) :
    ∀ f ∈ s.texts, ¬Toml.IsTable f.2 := by
  rintro f hf ⟨entries, hData⟩
  rcases List.mem_map.mp hf with ⟨entry, _, rfl⟩
  cases hData

section

variable
  (strict : Bool)
  (a b c d : Data)

/- Settings of the editor from all fields, in order. -/
theorem EditorSettings.ofData?_map :
    ofData? strict
        (Data.map
          [("mode", a), ("tab_size", b), ("indent_unit", c),
           ("indent_with_tabs", d)]) =
      a.text?.bind fun mode => b.size?.bind fun tabSize =>
        c.size?.bind fun indentUnit => d.bool?.bind fun tabs =>
          some ⟨mode, tabSize, indentUnit, tabs⟩ := by
  simp [ofData?, Data.record?, Data.Record.optional,
    Assoc.get?]

/- Settings of the theme from all fields, in order. -/
theorem Theme.Settings.ofData?_map :
    ofData? strict
        (Data.map [("name", a), ("overrides", b)]) =
      a.text?.bind fun name => b.texts?.bind fun overrides =>
        some ⟨name, overrides⟩ := by
  simp [ofData?, Data.record?, Data.Record.optional,
    Assoc.get?]

/- All settings from both fields, in order. -/
theorem Config.ofData?_map :
    ofData? strict (Data.map [("editor", a), ("theme", b)]) =
      (EditorSettings.ofData? strict a).bind fun editor =>
        (Theme.Settings.ofData? strict b).bind fun theme =>
          some ⟨editor, theme⟩ := by
  simp [ofData?, Data.record?, Data.Record.optional,
    Assoc.get?]

end

namespace Config

/- The sizes of settings fit into 64 bits with a sign. -/
def FitsIntegers (c : Config) : Prop :=
  c.editor.tabSize ≤ 0x7FFFFFFFFFFFFFFF ∧
    c.editor.indentUnit ≤ 0x7FFFFFFFFFFFFFFF

theorem fitsInteger_iff (n : Nat) :
    Toml.fitsInteger n = true ↔ n ≤ 0x7FFFFFFFFFFFFFFF := by
  simp only [Toml.fitsInteger, Bool.and_eq_true,
    decide_eq_true_eq]
  omega

/- Settings are the settings of their data. -/
theorem ofData?_toData
    {c : Config}
    (h : c.FitsIntegers)
    (strict : Bool) :
    ofData? strict c.toData = some c := by
  rcases h with ⟨hTabSize, hIndentUnit⟩
  have hTab := Data.size?_int
    (Nat.lt_of_le_of_lt hTabSize (by decide))
  have hUnit := Data.size?_int
    (Nat.lt_of_le_of_lt hIndentUnit (by decide))
  have hOverrides := Data.texts?_map c.theme.overrides
  rw [toData, ofData?_map, EditorSettings.toData,
    EditorSettings.ofData?_map, hTab, hUnit,
    Theme.Settings.toData, Theme.Settings.ofData?_map,
    hOverrides]
  rfl

/- Settings are laid out as documents are. -/
theorem laidOut_entries
    {c : Config}
    (hNames : (Assoc.keys c.theme.overrides).Nodup) :
    Toml.LaidOut Toml.pathLimit c.entries := by
  have hKeys :
      Assoc.keys c.theme.texts = Assoc.keys c.theme.overrides := by
    simp [Assoc.keys, Theme.Settings.texts]
  have hTheme : Toml.LaidOut 78 c.theme.entries := by
    have hName :
        Toml.LaidOut 78 [("name", Data.text c.theme.name)] := by
      refine Toml.LaidOut.values ?_ (by simp [Assoc.keys])
      rintro e he ⟨entries, hData⟩
      cases List.mem_singleton.mp he
      cases hData
    exact hName.table (by simp [Assoc.keys])
      (Toml.LaidOut.values c.theme.not_isTable_texts
        (hKeys ▸ hNames))
  have hEditor : Toml.LaidOut 78 c.editor.entries :=
    Toml.LaidOut.values c.editor.not_isTable_entries
      (by simp [Assoc.keys, EditorSettings.entries])
  have hNone : Toml.LaidOut Toml.pathLimit [] :=
    Toml.LaidOut.values (by simp) (by simp [Assoc.keys])
  exact (hNone.table (by simp [Assoc.keys]) hEditor).table
    (by simp [Assoc.keys]) hTheme

------------------------------------------------------------
-- Documents
------------------------------------------------------------

/- A size can be written if it fits. -/
theorem isSome_writeScalar_int (n : Nat) :
    (Toml.writeScalar (Data.int n)).isSome ↔
      n ≤ 0x7FFFFFFFFFFFFFFF := by
  rw [← fitsInteger_iff, Toml.writeScalar, Toml.writeInteger]
  cases Toml.fitsInteger n
  · simp
  · simp only [if_true, iff_true]
    split <;> rfl

/- The table of the editor is written if its sizes fit. -/
theorem isSome_writeBlocks_editor
    (path : List String)
    (e : EditorSettings) :
    (Toml.writeBlocks path (Data.map e.entries)).isSome ↔
      e.tabSize ≤ 0x7FFFFFFFFFFFFFFF ∧
        e.indentUnit ≤ 0x7FFFFFFFFFFFFFFF := by
  have hValue :
      ∀ f ∈ e.entries,
        Toml.IsTable f.2 ∨ (Toml.writeScalar f.2).isSome ↔
          (Toml.writeScalar f.2).isSome :=
    fun f hf => or_iff_right (e.not_isTable_entries f hf)
  have hText : ∀ s, (Toml.writeScalar (Data.text s)).isSome :=
    fun _ => rfl
  have hBool : ∀ b, (Toml.writeScalar (Data.bool b)).isSome :=
    fun _ => rfl
  rw [Toml.isSome_writeBlocks_iff,
    Toml.writeInner_values e.not_isTable_entries,
    Toml.isSome_writeLines_iff, forall₂_congr hValue]
  simp only [EditorSettings.entries, List.forall_mem_cons,
    isSome_writeScalar_int, hText, hBool, Option.isSome_some,
    true_and, and_true]
  simp

/- The tables of the theme are always written. -/
theorem isSome_writeBlocks_theme
    (path : List String)
    (s : Theme.Settings) :
    (Toml.writeBlocks path (Data.map s.entries)).isSome := by
  have hTexts :
      (Toml.writeBlocks (path ++ ["overrides"])
        (Data.map s.texts)).isSome := by
    rw [Toml.isSome_writeBlocks_iff,
      Toml.writeInner_values s.not_isTable_texts,
      Toml.isSome_writeLines_iff]
    refine ⟨?_, rfl⟩
    intro f hf
    rcases List.mem_map.mp hf with ⟨entry, _, rfl⟩
    exact Or.inr rfl
  rw [Toml.isSome_writeBlocks_iff, Theme.Settings.entries,
    Toml.isSome_writeInner_cons, Toml.isSome_writeInner_cons,
    Toml.isSome_writeLines_iff]
  refine ⟨?_, rfl, hTexts, rfl⟩
  simp only [List.forall_mem_cons]
  exact ⟨Or.inr rfl, Or.inl ⟨_, rfl⟩, by simp⟩

/- Settings have a document if their sizes are in range. -/
theorem isSome_toToml?_iff (c : Config) :
    c.toToml?.isSome ↔ c.FitsIntegers := by
  have hLines : (Toml.writeLines c.entries).isSome := by
    rw [Toml.isSome_writeLines_iff]
    simp only [entries, List.forall_mem_cons]
    exact ⟨Or.inl ⟨_, rfl⟩, Or.inl ⟨_, rfl⟩, by simp⟩
  rw [toToml?, Toml.write, Option.isSome_map, toData_eq,
    Toml.isSome_writeBlocks_iff, entries,
    Toml.isSome_writeInner_cons, Toml.isSome_writeInner_cons,
    isSome_writeBlocks_editor]
  have hTheme := isSome_writeBlocks_theme ([] ++ ["theme"])
    c.theme
  exact ⟨fun h => h.2.1, fun h => ⟨hLines, h, hTheme, rfl⟩⟩

/- The document of settings is read as the settings. -/
theorem ofToml?_of_toToml?
    {c : Config}
    (hNames : (Assoc.keys c.theme.overrides).Nodup)
    {t : Text}
    (hText : c.toToml? = some t) : ofToml? t = some c := by
  have hFits : c.FitsIntegers := by
    rw [← isSome_toToml?_iff, hText]
    rfl
  have hRead :
      Toml.read t = some (Data.map c.entries) :=
    Toml.read_write (laidOut_entries hNames) hText
  rw [ofToml?, hRead, Option.bind_some, ← toData_eq]
  exact ofData?_toData hFits false

------------------------------------------------------------
-- Saving and loading
------------------------------------------------------------

section

variable
  {c : Config}
  {target : Files.Target}

theorem save_of_noDirectory
    {message : String}
    (h : target.noDirectory = some message) :
    c.save target =
      (Except.error (SaveError.io message), target) := by
  rw [save, h]

theorem save_of_noDocument
    (hDirectory : target.noDirectory = none)
    (hNone : c.toToml? = none) :
    c.save target =
      (Except.error SaveError.serialize, target) := by
  rw [save, hDirectory, hNone]

theorem save_of_noAccess
    (hDirectory : target.noDirectory = none)
    {t : Text}
    (hText : c.toToml? = some t)
    {message : String}
    (h : target.noAccess = some message) :
    c.save target =
      (Except.error (SaveError.io message), target) := by
  rw [save, hDirectory, hText]
  simp only [Files.Target.write, h]

theorem save_of_isWritable
    (hWritable : target.IsWritable)
    {t : Text}
    (hText : c.toToml? = some t) :
    c.save target =
      (Except.ok (),
        { target with bytes := some (Files.encode t) }) := by
  rw [save, hWritable.1, hText]
  simp only [Files.Target.write, hWritable.1, hWritable.2]

/- A saving that fails leaves the file as it was. -/
theorem save_unchanged
    {e : SaveError}
    (h : (c.save target).1 = Except.error e) :
    (c.save target).2 = target := by
  cases hDirectory : target.noDirectory with
  | some message => rw [save_of_noDirectory hDirectory]
  | none =>
      cases hText : c.toToml? with
      | none => rw [save_of_noDocument hDirectory hText]
      | some t =>
          cases hAccess : target.noAccess with
          | some message =>
              rw [save_of_noAccess hDirectory hText hAccess]
          | none =>
              rw [save_of_isWritable ⟨hDirectory, hAccess⟩
                hText] at h
              cases h

end

/-
  Settings that are saved to a file that can be written are
  the settings loaded from it, whatever the texts in them
  and whatever was in the file. The saving fails for sizes
  that do not fit, and for nothing else, and then the file
  stays as it was. Names of overrides are distinct as those
  of a map are, which no or one override always has.
-/
theorem load_save
    (c : Config)
    (hNames : (Assoc.keys c.theme.overrides).Nodup)
    (target : Files.Target)
    (hWritable : target.IsWritable) :
    ((c.save target).1 = Except.ok () ↔ c.FitsIntegers) ∧
    (c.FitsIntegers →
      load (c.save target).2.reading = Except.ok c) ∧
    (¬c.FitsIntegers →
      (c.save target).1 = Except.error SaveError.serialize ∧
        (c.save target).2 = target) := by
  cases hText : c.toToml? with
  | none =>
      have hNot : ¬c.FitsIntegers := by
        rw [← isSome_toToml?_iff, hText]
        exact Bool.false_ne_true
      rw [save_of_noDocument hWritable.1 hText]
      refine ⟨⟨fun hOk => ?_, fun hFits => absurd hFits hNot⟩,
        fun hFits => absurd hFits hNot, fun _ => ⟨rfl, rfl⟩⟩
      cases hOk
  | some t =>
      have hFits : c.FitsIntegers := by
        rw [← isSome_toToml?_iff, hText]
        rfl
      have hLoad :
          load (c.save target).2.reading = Except.ok c := by
        rw [save_of_isWritable hWritable hText]
        simp only [Files.Target.reading, Files.decode_encode,
          load, ofToml?_of_toToml? hNames hText]
      refine ⟨⟨fun _ => hFits, fun _ => ?_⟩, fun _ => hLoad,
        fun hNot => absurd hFits hNot⟩
      rw [save_of_isWritable hWritable hText]

/- An override in which every kind of mark has to be kept. -/
theorem load_save_marks :
    let c : Config :=
      ⟨{ mode := "a\\b\n\x07", tabSize := 0x7FFFFFFFFFFFFFFF },
        { name := "", overrides :=
            [("'\"", "'''\n\"\"\"\"\\")] }⟩
    let target : Files.Target := { bytes := none }
    (Assoc.keys c.theme.overrides).Nodup ∧
      target.IsWritable ∧
      load (c.save target).2.reading = Except.ok c := by
  intro c target
  have hNames : (Assoc.keys c.theme.overrides).Nodup := by
    decide
  have hWritable : target.IsWritable := ⟨rfl, rfl⟩
  have hFits : c.FitsIntegers := ⟨by decide, by decide⟩
  exact ⟨hNames, hWritable,
    (load_save c hNames target hWritable).2.1 hFits⟩

end Config

end Highlighter

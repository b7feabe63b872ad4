import Highlighter.Command
import Highlighter.Proofs.Session
import Highlighter.Proofs.Theme

/-
  The command prints what the library computes: a view of a
  document made anew of the text, the mode and the settings
  it was called with, or the failure of the first stage that
  fails.

  Key definitions include:
    * `Command.View.ofDocument`
    * `Command.UsesConfig`
    * `Command.UsesMode`
    * `Command.Outcome`

  Main statements:
    * `Command.display_eq`
    * `Command.runIn_eq_iff`
    * `Command.run_refines`
-/

namespace Highlighter

namespace Command

------------------------------------------------------------
-- Views
------------------------------------------------------------

/- What a view shows of a document. -/
def View.ofDocument (d : Document) (theme : Theme) :
    View → Text
  | highlight => theme.render d.tokens
  | tokens => d.tokens.flatMap tokenLine
  | json => Json.write 0 d.highlight.toData ++ ['\n']
  | folds => d.folds.flatMap foldLine
  | indent => d.indents.flatMap indentLine
  | reindent => d.reindented

/- It shows the same of a coherent buffer. -/
theorem display_eq
    {b : Buffer}
    (h : b.Coherent)
    (theme : Theme)
    (view : View) :
    display b theme view =
      view.ofDocument b.document theme := by
  cases view with
  | highlight => rfl
  | tokens => rfl
  | json => rfl
  | folds =>
      simp only [display, View.ofDocument, h.folds_eq.1]
  | indent =>
      simp only [display, View.ofDocument, h.indents_eq.1]
  | reindent =>
      rcases h.indents_eq with ⟨hIndents, hDocument, -⟩
      simp only [display, View.ofDocument, Buffer.reindented,
        Document.reindented, hIndents, hDocument]

------------------------------------------------------------
-- What a run uses
------------------------------------------------------------

/- The document that is shown. -/
def shown (a : Arguments) (c : Config) (t : Text)
    (mode : Mode) : Document :=
  { Document.withMode t mode with
    startState := a.state
    options := c.editor.indentOptions }

/- Has the file that is asked for the extension `qh`? -/
def HasExtension (a : Arguments) : Prop :=
  ∃ path, a.file = some path ∧
    Path.extension? path = some "qh".toList

/-
  The name or content type of the mode to use: the one asked
  for; without it that of the extension; without that the
  one in the settings.
-/
inductive UsesMode (a : Arguments) (c : Config) :
    String → Prop
  | asked
      {key : String}
      (hMode : a.mode = some key) : UsesMode a c key
  | extension
      (hMode : a.mode = none)
      (hFile : HasExtension a) : UsesMode a c "qhantoom"
  | settings
      (hMode : a.mode = none)
      (hFile : ¬ HasExtension a) :
      UsesMode a c c.editor.mode

section

variable
  (tree : FileTree)
  (configDir : Text)
  (input : Except Files.ReadError Text)
  (a : Arguments)

/- Where the settings are that nobody asks for. -/
def defaultPath : Text := configDir ++ '/' :: Config.defaultPath

/-
  The settings to use: those in the file asked for; without
  it those in the user's file; and if that is missing or
  broken, all defaults.
-/
inductive UsesConfig : Config → Prop
  | asked
      {path : Text}
      {c : Config}
      (hPath : a.config = some path)
      (hLoad : Config.load (tree.read path) = Except.ok c) :
      UsesConfig c
  | found
      {c : Config}
      (hPath : a.config = none)
      (hLoad :
        Config.load (tree.read (defaultPath configDir)) =
          Except.ok c) : UsesConfig c
  | defaults
      {e : Config.LoadError}
      (hPath : a.config = none)
      (hLoad :
        Config.load (tree.read (defaultPath configDir)) =
          Except.error e) : UsesConfig {}

/- The reading of the text to show. -/
def source : Except Files.ReadError Text :=
  match a.file with
  | none => input
  | some path => tree.read path

/-
  What becomes of a run, one case for each stage at which it
  may end. A stage is reached when all before it succeed.
-/
inductive Outcome : Except Failure Text → Prop
  | config
      {path : Text}
      {e : Config.LoadError}
      (hPath : a.config = some path)
      (hLoad :
        Config.load (tree.read path) = Except.error e) :
      Outcome (Except.error (Failure.config path e))
  | input
      {c : Config}
      {e : Files.ReadError}
      (hConfig : UsesConfig tree configDir a c)
      (hFile : a.file = none)
      (hText : input = Except.error e) :
      Outcome (Except.error (Failure.input e))
  | file
      {c : Config}
      {path : Text}
      {e : Files.ReadError}
      (hConfig : UsesConfig tree configDir a c)
      (hFile : a.file = some path)
      (hText : tree.read path = Except.error e) :
      Outcome (Except.error (Failure.file path e))
  | language
      {c : Config}
      {t : Text}
      {key : String}
      {e : Registry.UnknownLanguage}
      (hConfig : UsesConfig tree configDir a c)
      (hText : source tree input a = Except.ok t)
      (hKey : UsesMode a c key)
      (hMode : Registry.builtIn.get key = Except.error e) :
      Outcome (Except.error (Failure.language e))
  | theme
      {c : Config}
      {t : Text}
      {key : String}
      {mode : Mode}
      {e : Theme.InvalidColor}
      (hConfig : UsesConfig tree configDir a c)
      (hText : source tree input a = Except.ok t)
      (hKey : UsesMode a c key)
      (hMode : Registry.builtIn.get key = Except.ok mode)
      (hTheme : Theme.ofSettings c.theme = Except.error e) :
      Outcome (Except.error (Failure.theme e))
  | view
      {c : Config}
      {t : Text}
      {key : String}
      {mode : Mode}
      {theme : Theme}
      (hConfig : UsesConfig tree configDir a c)
      (hText : source tree input a = Except.ok t)
      (hKey : UsesMode a c key)
      (hMode : Registry.builtIn.get key = Except.ok mode)
      (hTheme : Theme.ofSettings c.theme = Except.ok theme) :
      Outcome
        (Except.ok (a.view.ofDocument (shown a c t mode) theme))

end

------------------------------------------------------------
-- Stages
------------------------------------------------------------

variable
  {tree : FileTree}
  {configDir : Text}
  {input : Except Files.ReadError Text}
  {a : Arguments}

/- The reading of the settings that a run starts with. -/
def configReading
    (tree : FileTree)
    (configDir : Text)
    (a : Arguments) : Except Files.ReadError Text :=
  tree.read (a.config.getD (defaultPath configDir))

/- A run goes by the readings of the settings and the text. -/
theorem runIn_eq_run :
    runIn tree configDir input a =
      run a (configReading tree configDir a)
        (source tree input a) := rfl

/-
  The stage of the settings yields those to use, or it fails
  for a file that was asked for.
-/
theorem loadConfig_cases
    (tree : FileTree)
    (configDir : Text)
    (a : Arguments) :
    (∃ c, loadConfig a (configReading tree configDir a) =
        Except.ok c ∧ UsesConfig tree configDir a c) ∨
      ∃ path e,
        loadConfig a (configReading tree configDir a) =
          Except.error (Failure.config path e) ∧
        a.config = some path ∧
        Config.load (tree.read path) = Except.error e := by
  unfold loadConfig configReading
  cases hPath : a.config with
  | none =>
      left
      simp only [Option.getD_none]
      unfold Config.loadOrDefault
      cases hLoad :
          Config.load (tree.read (defaultPath configDir)) with
      | error e =>
          exact ⟨{}, rfl, UsesConfig.defaults hPath hLoad⟩
      | ok c => exact ⟨c, rfl, UsesConfig.found hPath hLoad⟩
  | some path =>
      simp only [Option.getD_some]
      cases hLoad : Config.load (tree.read path) with
      | error e =>
          right
          exact ⟨path, e, rfl, rfl, hLoad⟩
      | ok c =>
          left
          exact ⟨c, rfl, UsesConfig.asked hPath hLoad⟩

/- The settings to use are those that the stage yields. -/
theorem UsesConfig.loadConfig_eq
    {c : Config}
    (h : UsesConfig tree configDir a c) :
    loadConfig a (configReading tree configDir a) =
      Except.ok c := by
  unfold loadConfig configReading Config.loadOrDefault
  cases h with
  | asked hPath hLoad =>
      simp only [hPath, Option.getD_some, hLoad]
  | found hPath hLoad =>
      simp only [hPath, Option.getD_none, hLoad]
  | defaults hPath hLoad =>
      simp only [hPath, Option.getD_none, hLoad]

/- For a file asked for that is wrong the stage fails. -/
theorem loadConfig_eq_error
    {path : Text}
    {e : Config.LoadError}
    (hPath : a.config = some path)
    (hLoad : Config.load (tree.read path) = Except.error e) :
    loadConfig a (configReading tree configDir a) =
      Except.error (Failure.config path e) := by
  unfold loadConfig configReading
  simp only [hPath, Option.getD_some, hLoad]

/- Only the extension `qh` tells the mode of a file. -/
theorem detectLanguage_eq (path : Text) :
    detectLanguage path =
      if Path.extension? path = some "qh".toList then
        some "qhantoom"
      else
        none := by
  unfold detectLanguage
  cases Path.extension? path with
  | none => rfl
  | some ext => simp only [Option.some.injEq]; rfl

theorem detectLanguage_of_hasExtension
    (h : HasExtension a) :
    a.file.bind detectLanguage = some "qhantoom" := by
  rcases h with ⟨path, hFile, hExtension⟩
  rw [hFile, Option.bind_some, detectLanguage_eq,
    if_pos hExtension]

theorem detectLanguage_of_not_hasExtension
    (h : ¬ HasExtension a) :
    a.file.bind detectLanguage = none := by
  cases hFile : a.file with
  | none => rfl
  | some path =>
      rw [Option.bind_some, detectLanguage_eq, if_neg]
      intro hExtension
      exact h ⟨path, hFile, hExtension⟩

/- The key that is looked up is the one to use. -/
theorem usesMode_modeKey (a : Arguments) (c : Config) :
    UsesMode a c (modeKey a c) := by
  unfold modeKey
  cases hMode : a.mode with
  | some key => exact UsesMode.asked hMode
  | none =>
      simp only
      by_cases hFile : HasExtension a
      · rw [detectLanguage_of_hasExtension hFile]
        exact UsesMode.extension hMode hFile
      · rw [detectLanguage_of_not_hasExtension hFile]
        exact UsesMode.settings hMode hFile

/- There is one key to use. -/
theorem UsesMode.modeKey_eq
    {c : Config}
    {key : String}
    (h : UsesMode a c key) : modeKey a c = key := by
  unfold modeKey
  cases h with
  | asked hMode => rw [hMode]
  | extension hMode hFile =>
      simp only [hMode]
      rw [detectLanguage_of_hasExtension hFile]
      rfl
  | settings hMode hFile =>
      simp only [hMode]
      rw [detectLanguage_of_not_hasExtension hFile]
      rfl

/- The buffer to show is one made anew. -/
theorem openBuffer_eq
    {c : Config}
    {mode : Mode}
    (h : Registry.builtIn.get (modeKey a c) = Except.ok mode)
    (t : Text) :
    openBuffer a c t =
      Except.ok (Buffer.fresh t mode a.state
        c.editor.indentOptions) := by
  unfold openBuffer
  rw [h]
  rfl

theorem display_fresh
    (a : Arguments)
    (c : Config)
    (t : Text)
    (mode : Mode)
    (theme : Theme) :
    display
        (Buffer.fresh t mode a.state c.editor.indentOptions)
        theme a.view =
      a.view.ofDocument (shown a c t mode) theme :=
  display_eq (Buffer.coherent_fresh ..) theme a.view

------------------------------------------------------------
-- Whole runs
------------------------------------------------------------

/- What becomes of a run is one of the cases. -/
theorem outcome_runIn
    (tree : FileTree)
    (configDir : Text)
    (input : Except Files.ReadError Text)
    (a : Arguments) :
    Outcome tree configDir input a
      (runIn tree configDir input a) := by
  rw [runIn_eq_run]
  rcases loadConfig_cases tree configDir a with
    ⟨c, hLoad, hConfig⟩ | ⟨path, e, hLoad, hPath, hError⟩
  · simp only [run, hLoad, bind, Except.bind]
    cases hText : source tree input a with
    | error e =>
        unfold source at hText
        cases hFile : a.file with
        | none =>
            rw [hFile] at hText
            simp only [loadText, hFile]
            exact Outcome.input hConfig hFile hText
        | some path =>
            rw [hFile] at hText
            simp only [loadText, hFile]
            exact Outcome.file hConfig hFile hText
    | ok t =>
        have hKey := usesMode_modeKey a c
        simp only [loadText]
        cases hMode : Registry.builtIn.get (modeKey a c) with
        | error e =>
            simp only [openBuffer, hMode]
            exact Outcome.language hConfig hText hKey hMode
        | ok mode =>
            simp only [openBuffer_eq hMode, loadTheme]
            cases hTheme : Theme.ofSettings c.theme with
            | error e =>
                exact Outcome.theme hConfig hText hKey hMode
                  hTheme
            | ok theme =>
                simp only [display_fresh]
                exact Outcome.view hConfig hText hKey hMode
                  hTheme
  · simp only [run, hLoad, bind, Except.bind]
    exact Outcome.config hPath hError

/- And in each case a run comes to that. -/
theorem Outcome.runIn_eq
    {r : Except Failure Text}
    (h : Outcome tree configDir input a r) :
    runIn tree configDir input a = r := by
  rw [runIn_eq_run]
  cases h with
  | config hPath hLoad =>
      simp only [run, loadConfig_eq_error hPath hLoad, bind,
        Except.bind]
  | input hConfig hFile hText =>
      simp only [run, hConfig.loadConfig_eq, source, loadText,
        hFile, hText, bind, Except.bind]
  | file hConfig hFile hText =>
      simp only [run, hConfig.loadConfig_eq, source, loadText,
        hFile, hText, bind, Except.bind]
  | language hConfig hText hKey hMode =>
      rw [← hKey.modeKey_eq] at hMode
      simp only [run, hConfig.loadConfig_eq, hText, loadText,
        openBuffer, hMode, bind, Except.bind]
  | theme hConfig hText hKey hMode hTheme =>
      rw [← hKey.modeKey_eq] at hMode
      simp only [run, hConfig.loadConfig_eq, hText, loadText,
        openBuffer_eq hMode, loadTheme, hTheme, bind,
        Except.bind]
  | view hConfig hText hKey hMode hTheme =>
      rw [← hKey.modeKey_eq] at hMode
      simp only [run, hConfig.loadConfig_eq, hText, loadText,
        openBuffer_eq hMode, loadTheme, hTheme, display_fresh,
        bind, Except.bind]

theorem runIn_eq_iff {r : Except Failure Text} :
    runIn tree configDir input a = r ↔
      Outcome tree configDir input a r := by
  constructor
  · rintro rfl
    exact outcome_runIn tree configDir input a
  · exact Outcome.runIn_eq

/- The mode of the extension is always there. -/
theorem get_qhantoom :
    Registry.builtIn.get "qhantoom" =
      Except.ok Qhantoom.mode := rfl

/- A run reaches the colours with some settings and mode. -/
structure ReachesTheme
    (tree : FileTree)
    (configDir : Text)
    (input : Except Files.ReadError Text)
    (a : Arguments)
    (c : Config) : Prop where
  config : UsesConfig tree configDir a c
  text : ∃ t, source tree input a = Except.ok t
  mode :
    ∃ key mode, UsesMode a c key ∧
      Registry.builtIn.get key = Except.ok mode

/- What is to be printed has no part in that. -/
theorem ReachesTheme.withView
    {c : Config}
    (h : ReachesTheme tree configDir input a c)
    (view : View) :
    ReachesTheme tree configDir input { a with view := view }
      c := by
  rcases h with ⟨hConfig, hText, key, mode, hKey, hGet⟩
  refine ⟨?_, hText, key, mode, ?_, hGet⟩
  · cases hConfig with
    | asked hPath hLoad => exact UsesConfig.asked hPath hLoad
    | found hPath hLoad => exact UsesConfig.found hPath hLoad
    | defaults hPath hLoad =>
        exact UsesConfig.defaults hPath hLoad
  · cases hKey with
    | asked hMode => exact UsesMode.asked hMode
    | extension hMode hFile =>
        exact UsesMode.extension hMode hFile
    | settings hMode hFile =>
        exact UsesMode.settings hMode hFile

/- A wrong override makes the run fail there, and is named. -/
theorem ReachesTheme.runIn_eq_error
    {c : Config}
    (h : ReachesTheme tree configDir input a c)
    (hWrong :
      ¬ ∀ o ∈ c.theme.overrides, Theme.IsOverride o.1 o.2) :
    ∃ e, runIn tree configDir input a =
        Except.error (Failure.theme e) ∧
      (e.key, e.value) ∈ c.theme.overrides ∧
      ¬ Theme.IsOverride e.key e.value := by
  rcases h with ⟨hConfig, ⟨t, hText⟩, key, mode, hKey, hMode⟩
  rcases Theme.overrideAll_eq_error hWrong
      ((Theme.byName? c.theme.name).getD Theme.monokai) with
    ⟨e, hTheme, hNamed⟩
  exact ⟨e,
    (Outcome.theme hConfig hText hKey hMode hTheme).runIn_eq,
    hNamed⟩

/- The stage of the settings fails for a file asked for. -/
theorem runIn_eq_config_iff
    {path : Text}
    {e : Config.LoadError} :
    runIn tree configDir input a =
        Except.error (Failure.config path e) ↔
      a.config = some path ∧
        Config.load (tree.read path) = Except.error e := by
  rw [runIn_eq_iff]
  constructor
  · intro h
    cases h with
    | config hPath hLoad => exact ⟨hPath, hLoad⟩
  · rintro ⟨hPath, hLoad⟩
    exact Outcome.config hPath hLoad

/-
  The stage of the mode fails for a key asked for or one in
  the settings, the mode of the extension being there.
-/
theorem runIn_eq_language_iff
    {e : Registry.UnknownLanguage} :
    runIn tree configDir input a =
        Except.error (Failure.language e) ↔
      ∃ c t key,
        UsesConfig tree configDir a c ∧
        source tree input a = Except.ok t ∧
        Registry.builtIn.get key = Except.error e ∧
        (a.mode = some key ∨
          a.mode = none ∧ ¬ HasExtension a ∧
            key = c.editor.mode) := by
  rw [runIn_eq_iff]
  constructor
  · intro h
    cases h with
    | language hConfig hText hKey hGet =>
        refine ⟨_, _, _, hConfig, hText, hGet, ?_⟩
        cases hKey with
        | asked hMode => exact Or.inl hMode
        | extension hMode hFile =>
            rw [get_qhantoom] at hGet
            cases hGet
        | settings hMode hFile =>
            exact Or.inr ⟨hMode, hFile, rfl⟩
  · rintro ⟨c, t, key, hConfig, hText, hGet, hAsked⟩
    refine Outcome.language hConfig hText ?_ hGet
    rcases hAsked with hMode | ⟨hMode, hFile, rfl⟩
    · exact UsesMode.asked hMode
    · exact UsesMode.settings hMode hFile

/-
  For all arguments, files and standard input: a run comes
  to what its first failing stage says, in the order of
  settings, text, mode and colours, and else to the view of
  the document shown. The stage of the settings fails only
  for a file that was asked for; that of the mode only for
  the key asked for or, without it and without the extension
  `qh`, for the key in the settings; and that of the colours
  for any override that is wrong, whatever is to be printed.
-/
theorem run_refines
    (tree : FileTree)
    (configDir : Text)
    (input : Except Files.ReadError Text)
    (a : Arguments) :
    let outcome := runIn tree configDir input a
    (∀ r, outcome = r ↔ Outcome tree configDir input a r) ∧
    (∀ path e,
      outcome = Except.error (Failure.config path e) ↔
        a.config = some path ∧
          Config.load (tree.read path) = Except.error e) ∧
    (∀ e, outcome = Except.error (Failure.language e) ↔
      ∃ c t key,
        UsesConfig tree configDir a c ∧
        source tree input a = Except.ok t ∧
        Registry.builtIn.get key = Except.error e ∧
        (a.mode = some key ∨
          a.mode = none ∧ ¬ HasExtension a ∧
            key = c.editor.mode)) ∧
    (∀ c, ReachesTheme tree configDir input a c →
      (¬ ∀ o ∈ c.theme.overrides, Theme.IsOverride o.1 o.2) →
      ∀ view, ∃ e,
        runIn tree configDir input { a with view := view } =
          Except.error (Failure.theme e) ∧
        (e.key, e.value) ∈ c.theme.overrides ∧
        ¬ Theme.IsOverride e.key e.value) := by
  intro outcome
  refine ⟨fun r => runIn_eq_iff,
    fun path e => runIn_eq_config_iff,
    fun e => runIn_eq_language_iff, ?_⟩
  intro c hReaches hWrong view
  exact (hReaches.withView view).runIn_eq_error hWrong

end Command

end Highlighter

import Highlighter.Config
import Highlighter.Files
import Highlighter.Toml.Reader
import Highlighter.Toml.Writer

/-
  Settings in files, written in TOML.

  Key definitions include:
    * `Config.ofToml?`
    * `Config.toToml?`
    * `Config.LoadError`
    * `Config.load`
    * `Config.loadOrDefault`
    * `Config.SaveError`
    * `Config.save`
-/

namespace Highlighter

namespace Config

/-
  The settings that a document gives. What it does not give
  has its default, and what is no setting is ignored.
-/
def ofToml? (t : Text) : Option Config :=
  (Toml.read t).bind (ofData? false)

/-
  The document of settings, unless a number is too large.
-/
def toToml? (c : Config) : Option Text :=
  Toml.write c.toData

/- Why settings cannot be loaded. -/
inductive LoadError
  | io (e : Files.ReadError)
  | parse
deriving DecidableEq, Repr

/- What is said about settings that cannot be loaded. -/
def LoadError.message : LoadError → String
  | io e => "IO error: " ++ e.message
  | parse => "Parse error"

/- The settings in a file, given the reading of it. -/
def load (reading : Except Files.ReadError Text) :
    Except LoadError Config :=
  match reading with
  | Except.error e => Except.error (LoadError.io e)
  | Except.ok t =>
      match ofToml? t with
      | none => Except.error LoadError.parse
      | some c => Except.ok c

/-
  The settings in a file that need not be there or be right:
  one that fails gives all defaults.
-/
def loadOrDefault (reading : Except Files.ReadError Text) :
    Config :=
  match load reading with
  | Except.ok c => c
  | Except.error _ => {}

/- Why settings cannot be saved. -/
inductive SaveError
  | io (message : String)
  | serialize
deriving DecidableEq, Repr

/- What is said about settings that cannot be saved. -/
def SaveError.message : SaveError → String
  | io message => "IO error: " ++ message
  | serialize => "Serialize error"

/-
  Save settings to a file, and the file as it is after that.
  The directories above it are made first, and the document
  is complete before the file is opened.
-/
def save (c : Config) (target : Files.Target) :
    Except SaveError Unit × Files.Target :=
  match target.noDirectory with
  | some message => (Except.error (SaveError.io message), target)
  | none =>
      match c.toToml? with
      | none => (Except.error SaveError.serialize, target)
      | some t =>
          match target.write t with
          | Except.error message =>
              (Except.error (SaveError.io message), target)
          | Except.ok target => (Except.ok (), target)

/- Where the settings are, below the user's directory. -/
def defaultPath : Text := "qhantoom/config.toml".toList

end Config

end Highlighter

import Highlighter.Command

/-
  The command line program.
-/

namespace Highlighter

namespace Main

/- The reading of a file that failed, by its cause. -/
def readError : IO.Error → Files.ReadError
  | .noFileOrDirectory _ _ _ => Files.ReadError.notFound
  | .noSuchThing _ _ _ => Files.ReadError.notFound
  | .inappropriateType _ _ _ => Files.ReadError.isDirectory
  | e => Files.ReadError.other (toString e)

/- Read a file. -/
def readFile (path : Text) :
    IO (Except Files.ReadError Text) := do
  try
    let bytes ← IO.FS.readBinFile (String.ofList path)
    return Files.decode bytes
  catch e =>
    return Except.error (readError e)

/- Read the standard input to its end. -/
def readInput : IO (Except Files.ReadError Text) := do
  try
    let bytes ← (← IO.getStdin).readBinToEnd
    return Files.decode bytes
  catch e =>
    return Except.error (readError e)

/- The directory of the user's settings. -/
def configDir : IO Text := do
  match ← IO.getEnv "XDG_CONFIG_HOME" with
  | some dir =>
      if dir.startsWith "/" then
        return dir.toList
  | none => pure ()
  match ← IO.getEnv "HOME" with
  | some home => return (home ++ "/.config").toList
  | none => return []

/- Read the settings that the arguments ask for. -/
def readConfig (a : Command.Arguments) :
    IO (Except Files.ReadError Text) := do
  match a.config with
  | some path => readFile path
  | none =>
      readFile ((← configDir) ++ '/' :: Config.defaultPath)

/- Read the text that the arguments ask for. -/
def readText (a : Command.Arguments) :
    IO (Except Files.ReadError Text) :=
  match a.file with
  | some path => readFile path
  | none => readInput

/- Say on standard error why the command failed. -/
def report (f : Command.Failure) : IO UInt32 := do
  IO.eprintln ("Error: " ++ f.message)
  match f.cause with
  | some cause => IO.eprintln ("\nCaused by:\n    " ++ cause)
  | none => pure ()
  return 1

end Main

end Highlighter

open Highlighter in
def main (args : List String) : IO UInt32 := do
  match Command.Arguments.parse? (args.map String.toList) with
  | none =>
      IO.eprintln "error: the arguments cannot be understood"
      return 2
  | some a =>
      let config ← Main.readConfig a
      match Command.loadConfig a config with
      | Except.error f => Main.report f
      | Except.ok _ =>
          match Command.run a config (← Main.readText a) with
          | Except.error f => Main.report f
          | Except.ok out =>
              let stdout ← IO.getStdout
              stdout.putStr (String.ofList out)
              stdout.flush
              return 0

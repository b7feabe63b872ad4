import Highlighter.Path

/-
  Files and the reading of them, and a directory of files
  as a value.

  Key definitions include:
    * `Files.ReadError`
    * `Files.decode`
    * `Files.encode`
    * `Files.Target`
    * `FileTree`
    * `FileTree.lookup`
    * `FileTree.read`
-/

namespace Highlighter

namespace Files

/- Why a text cannot be read. -/
inductive ReadError
  | notFound
  | notDirectory
  | isDirectory
  | notText
  | other (message : String)
deriving DecidableEq, Repr

/- What is said about a failed reading. -/
def ReadError.message : ReadError → String
  | notFound => "No such file or directory (os error 2)"
  | notDirectory => "Not a directory (os error 20)"
  | isDirectory => "Is a directory (os error 21)"
  | notText => "stream did not contain valid UTF-8"
  | other message => message

/- The text that bytes stand for in UTF-8. -/
def decode (bytes : ByteArray) : Except ReadError Text :=
  match String.fromUTF8? bytes with
  | some s => Except.ok s.toList
  | none => Except.error ReadError.notText

/- The bytes of a text in UTF-8. -/
def encode (t : Text) : ByteArray :=
  (String.ofList t).toByteArray

/-
  A file to save to: its bytes, if it is there, and what is
  said if the directories above it cannot be made or if it
  cannot be opened for writing.
-/
structure Target where
  bytes : Option ByteArray
  noDirectory : Option String := none
  noAccess : Option String := none

namespace Target

/- The reading of the file. -/
def reading (target : Target) : Except ReadError Text :=
  match target.bytes with
  | none => Except.error ReadError.notFound
  | some bytes => decode bytes

/-
  Put a text in the place of what the file holds, if the
  file can be opened.
-/
def write (t : Text) (target : Target) :
    Except String Target :=
  match target.noAccess with
  | some message => Except.error message
  | none => Except.ok { target with bytes := some (encode t) }

end Target

end Files

/-
  The files below a directory, each by the segments of its
  path from there. Directories are there as far as files are
  in them.
-/
structure FileTree where
  files : List (List Text × ByteArray)

namespace FileTree

/- The tree of files by their paths. -/
def ofPaths (files : List (Text × ByteArray)) : FileTree :=
  ⟨files.map fun (path, bytes) => (Path.segments path, bytes)⟩

/- What a path leads to. -/
inductive Entry
  | file (bytes : ByteArray)
  | directory

/- What is found at the end of some segments. -/
def entryAt (tree : FileTree) (place : List Text) :
    Option Entry :=
  match tree.files.find? (fun f => f.1 == place) with
  | some (_, bytes) => some (Entry.file bytes)
  | none =>
      if place = [] ∨
          tree.files.any (fun f => place.isPrefixOf f.1) then
        some Entry.directory
      else
        none

/-
  Follow the parts of a path from a directory of the tree,
  or from outside of it, where no files are known.
-/
def follow (tree : FileTree) :
    Option (List Text) → List Text →
      Except Files.ReadError Entry
  | _, [] => Except.ok Entry.directory
  | place, part :: rest =>
      if part = [] ∨ part = ['.'] then
        tree.follow place rest
      else if part = ['.', '.'] then
        match place with
        | none => tree.follow none rest
        | some [] => tree.follow none rest
        | some (k :: place) =>
            tree.follow (some (k :: place).dropLast) rest
      else
        match place with
        | none => Except.error Files.ReadError.notFound
        | some place =>
            match tree.entryAt (place ++ [part]) with
            | none => Except.error Files.ReadError.notFound
            | some Entry.directory =>
                tree.follow (some (place ++ [part])) rest
            | some (Entry.file bytes) =>
                if rest = [] then
                  Except.ok (Entry.file bytes)
                else
                  Except.error Files.ReadError.notDirectory

/- What a path leads to, seen from the directory. -/
def lookup (tree : FileTree) (path : Text) :
    Except Files.ReadError Entry :=
  match path with
  | [] => Except.error Files.ReadError.notFound
  | '/' :: _ => tree.follow none (Path.split path)
  | _ => tree.follow (some []) (Path.split path)

/- The text of the file at a path. -/
def read (tree : FileTree) (path : Text) :
    Except Files.ReadError Text :=
  match tree.lookup path with
  | Except.error e => Except.error e
  | Except.ok Entry.directory =>
      Except.error Files.ReadError.isDirectory
  | Except.ok (Entry.file bytes) => Files.decode bytes

end FileTree

end Highlighter

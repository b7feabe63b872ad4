import Highlighter.Text

/-
  File paths as texts of segments between slashes.

  Key definitions include:
    * `Path.segments`
    * `Path.fileName?`
    * `Path.extension?`
-/

namespace Highlighter

namespace Path

/- Put a character in front of the first of some segments. -/
def extendFirst (c : Char) : List Text → List Text
  | [] => [[c]]
  | segment :: rest => (c :: segment) :: rest

/- A path split at its slashes. -/
def split : Text → List Text
  | [] => [[]]
  | c :: rest =>
      if c = '/' then
        [] :: split rest
      else
        extendFirst c (split rest)

/- The segments that lead on from a directory. -/
def segments (path : Text) : List Text :=
  (split path).filter fun s => s != [] && s != ['.']

/-
  The name that a path ends in. Slashes and dots after it do
  not count, and a path that ends by going up has none.
-/
def fileName? (path : Text) : Option Text :=
  match (segments path).getLast? with
  | none => none
  | some name => if name = ['.', '.'] then none else some name

/-
  The part of a file name after its last dot, if there is
  something before that dot.
-/
def extensionOf? (name : Text) : Option Text :=
  let ext := (name.reverse.takeWhile (· != '.')).reverse
  let stem := name.take (name.length - ext.length - 1)
  if stem = [] then none else some ext

/- The extension of the file name of a path. -/
def extension? (path : Text) : Option Text :=
  (fileName? path).bind extensionOf?

end Path

end Highlighter

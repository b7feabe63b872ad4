import Highlighter.Toml.Lexeme
import Highlighter.Toml.Table

/-
  TOML documents read from a text.

  Key definitions include:
    * `Toml.readValue`
    * `Toml.readPairs`
    * `Toml.readSections`
    * `Toml.read`
-/

namespace Highlighter

namespace Toml

------------------------------------------------------------
-- Values
------------------------------------------------------------

/-
  The values of an array up to its closing bracket, by a way
  to read one of them. A comma may stand after the last.
  `fuel` bounds their number.
-/
def readItems (readItem : Text → Option (Data × Text)) :
    Nat → Text → Option (List Data × Text)
  | 0, _ => none
  | fuel + 1, t =>
      match skipLines (t.length + 1) t with
      | none => none
      | some (']' :: rest) => some ([], rest)
      | some t =>
          match readItem t with
          | none => none
          | some (d, rest) =>
              match skipLines (rest.length + 1) rest with
              | some (',' :: rest) =>
                  (readItems readItem fuel rest).map
                    fun (items, rest) => (d :: items, rest)
              | some (']' :: rest) => some ([d], rest)
              | _ => none

/- A key, an equals sign and a value, blanks around them. -/
def readPair (readItem : Text → Option (Data × Text))
    (t : Text) : Option (Pair × Text) := do
  let ((path, key), rest) ← readKeyPath pathLimit t
  let rest ← expect '=' rest
  let (d, rest) ← readItem (skipBlanks rest)
  some (⟨path, key, d⟩, skipBlanks rest)

/-
  The pairs of a table in braces after the first of them.
  `fuel` bounds their number.
-/
def readMorePairs (readItem : Text → Option (Data × Text)) :
    Nat → Text → Option (List Pair × Text)
  | 0, _ => none
  | fuel + 1, t =>
      match t with
      | '}' :: rest => some ([], rest)
      | ',' :: rest =>
          match readPair readItem rest with
          | none => none
          | some (p, rest) =>
              (readMorePairs readItem fuel rest).map
                fun (pairs, rest) => (p :: pairs, rest)
      | _ => none

/- The pairs of a table in braces, on one line. -/
def readInline (readItem : Text → Option (Data × Text))
    (t : Text) : Option (Data × Text) := do
  let (pairs, rest) ←
    match skipBlanks t with
    | '}' :: rest => some ([], rest)
    | t => do
        let (p, rest) ← readPair readItem t
        let (pairs, rest) ←
          readMorePairs readItem (rest.length + 1) rest
        some (p :: pairs, rest)
  let entries ← insertAll pairs []
  some (Data.map (entriesData entries), rest)

/-
  A value. Arrays and tables in braces may be nested as deep
  as `depth`.
-/
def readValue : Nat → Text → Option (Data × Text)
  | depth, '[' :: rest =>
      match depth with
      | 0 => none
      | depth + 1 =>
          (readItems (readValue depth) (rest.length + 1) rest).map
            fun (items, rest) => (Data.list items, rest)
  | depth, '{' :: rest =>
      match depth with
      | 0 => none
      | depth + 1 => readInline (readValue depth) rest
  | _, t => readScalar t

/- The depth to which values may be nested. -/
def depthLimit : Nat := 79

------------------------------------------------------------
-- Documents
------------------------------------------------------------

/-
  The pairs on the lines up to the next header or the end of
  the text. `fuel` bounds the lines.
-/
def readPairs : Nat → Text → Option (List Pair × Text)
  | 0, _ => none
  | fuel + 1, t =>
      match skipLines (t.length + 1) t with
      | none => none
      | some [] => some ([], [])
      | some ('[' :: rest) => some ([], '[' :: rest)
      | some t =>
          match readPair (readValue depthLimit) t with
          | none => none
          | some (p, rest) =>
              match endLine rest with
              | none => none
              | some rest =>
                  (readPairs fuel rest).map
                    fun (pairs, rest) => (p :: pairs, rest)

/- The rest of a header after its brackets and keys. -/
def readHeader (isElement : Bool) (t : Text) :
    Option (Section × Text) := do
  let ((path, key), rest) ← readKeyPath pathLimit t
  let rest ← expect ']' rest
  let rest ← if isElement then expect ']' rest else some rest
  let rest ← endLine rest
  let (pairs, rest) ← readPairs (rest.length + 1) rest
  some (⟨isElement, path, key, pairs⟩, rest)

/-
  The sections of a document, each a header and the pairs
  under it. `fuel` bounds their number.
-/
def readSections : Nat → Text → Option (List Section)
  | 0, _ => none
  | fuel + 1, t =>
      match t with
      | [] => some []
      | '[' :: '[' :: rest =>
          match readHeader true rest with
          | none => none
          | some (s, rest) =>
              (readSections fuel rest).map (s :: ·)
      | '[' :: rest =>
          match readHeader false rest with
          | none => none
          | some (s, rest) =>
              (readSections fuel rest).map (s :: ·)
      | _ => none

/-
  The data of a document, if the text is one. A mark of the
  byte order at its start is skipped.
-/
def read (t : Text) : Option Data := do
  let t := if t.head? == some '\uFEFF' then t.tail else t
  let t ← unifyBreaks t
  let (pairs, rest) ← readPairs (t.length + 1) t
  let sections ← readSections (rest.length + 1) rest
  let entries ← insertAll pairs []
  let entries ← addSections sections entries
  some (Data.map (entriesData entries))

end Toml

end Highlighter

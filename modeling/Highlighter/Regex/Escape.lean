import Highlighter.Regex
import Highlighter.Text.Numeral

/-
  The parts of a written regular expression that follow a
  backslash, and the numbers in it.

  Key definitions include:
    * `Regex.Flags`
    * `Regex.Atom`
    * `Regex.readHex`
    * `Regex.readDecimal`
    * `Regex.readEscape`
-/

namespace Highlighter

namespace Regex

------------------------------------------------------------
-- Flags
------------------------------------------------------------

/-
  The modes that a written expression can switch: `s`, `m`,
  `U` and `u`.
-/
structure Flags where
  dotAll : Bool := false
  multiLine : Bool := false
  swapGreed : Bool := false
  unicode : Bool := true
deriving DecidableEq, Repr

namespace Flags

/- Switch one mode by its letter. -/
def switch (on : Bool) (letter : Char) (f : Flags) :
    Option Flags :=
  match letter with
  | 's' => some { f with dotAll := on }
  | 'm' => some { f with multiLine := on }
  | 'U' => some { f with swapGreed := on }
  | 'u' => some { f with unicode := on }
  | _ => none

/-
  Is a set allowed? With Unicode off, a set may not reach
  beyond ASCII.
-/
def allows (f : Flags) (s : CharSet) : Bool :=
  f.unicode || s.isAscii

/- The assertion on words for an edge. -/
def wordAssertion (f : Flags) (edge : WordEdge) : Assertion :=
  if f.unicode then Assertion.word edge
  else Assertion.asciiWord edge

end Flags

------------------------------------------------------------
-- Numbers
------------------------------------------------------------

/- The value of a text of hexadecimal digits. -/
def hexValue? (digits : Text) : Option Nat :=
  digits.foldl
    (fun value c =>
      value.bind fun n => (Text.hexDigit? c).map (16 * n + ·))
    (some 0)

/- The character with a code point, surrogates excluded. -/
def charOfCode? (n : Nat) : Option Char :=
  if n.isValidChar then some (Char.ofNat n) else none

/-
  A character given by its code point: so many hexadecimal
  digits, or any number of them in braces.
-/
def readHex (width : Nat) (t : Text) : Option (Char × Text) :=
  match t with
  | '{' :: rest =>
      let digits := rest.takeWhile (· != '}')
      match rest.drop digits.length with
      | [] => none
      | _ :: rest =>
          if digits.isEmpty then
            none
          else do
            let n ← hexValue? digits
            let c ← charOfCode? n
            some (c, rest)
  | _ =>
      let digits := t.take width
      if digits.length < width then
        none
      else do
        let n ← hexValue? digits
        let c ← charOfCode? n
        some (c, t.drop width)

/-
  A decimal number of at most 32 bits, blanks around it
  skipped.
-/
def readDecimal (t : Text) : Option (Nat × Text) :=
  let t := Text.trimStart t
  let digits := t.takeWhile Text.isAsciiDigit
  let rest := Text.trimStart (t.drop digits.length)
  let value :=
    digits.foldl (fun n c => 10 * n + (c.toNat - 48)) 0
  if digits.isEmpty || 0x100000000 ≤ value then
    none
  else
    some (value, rest)

------------------------------------------------------------
-- Escapes
------------------------------------------------------------

/- What stands for one character, a set or a condition. -/
inductive Atom
  | char (c : Char)
  | set (chars : CharSet)
  | assert (condition : Assertion)
deriving DecidableEq, Repr

/- A set named by a letter, or its complement. -/
def setAtom (flags : Flags) (negated : Bool)
    (full ascii : CharSet) : Option Atom :=
  let s := if flags.unicode then full else ascii
  let s := if negated then CharSet.compl s else s
  if flags.allows s then some (Atom.set s) else none

/- The characters of the names of word edges. -/
def isEdgeNameChar (c : Char) : Bool :=
  Text.isAsciiLetter c || c == '-'

/- A word edge by its name. -/
def edgeNamed? (name : Text) : Option WordEdge :=
  if name = "start".toList then
    some WordEdge.start
  else if name = "end".toList then
    some WordEdge.stop
  else if name = "start-half".toList then
    some WordEdge.startHalf
  else if name = "end-half".toList then
    some WordEdge.stopHalf
  else
    none

/-
  The edge that `\b` asks for. A name in braces after it
  belongs to it, other braces are a repetition.
-/
def readEdge (t : Text) : Option (WordEdge × Text) :=
  match t with
  | '{' :: c :: rest =>
      if isEdgeNameChar c then
        let name := (c :: rest).takeWhile isEdgeNameChar
        match (c :: rest).drop name.length with
        | '}' :: rest =>
            (edgeNamed? name).map (fun edge => (edge, rest))
        | _ => none
      else
        some (WordEdge.boundary, t)
  | ['{'] => none
  | _ => some (WordEdge.boundary, t)

/-
  Is the character one that stands for itself after a
  backslash? ASCII punctuation and controls do.
-/
def isEscapable (c : Char) : Bool :=
  c.toNat < 0x80 && !Text.isAsciiLetter c &&
    !Text.isAsciiDigit c && c != '<' && c != '>'

/- What a backslash and the text after it stand for. -/
def readEscape (flags : Flags) (t : Text) :
    Option (Atom × Text) :=
  match t with
  | [] => none
  | c :: rest =>
      let atom := fun (a : Atom) => some (a, rest)
      let named := fun (a : Option Atom) =>
        a.map (fun a => (a, rest))
      let edge := fun (e : WordEdge) =>
        atom (Atom.assert (flags.wordAssertion e))
      match c with
      | 'a' => atom (Atom.char (Char.ofNat 0x07))
      | 'f' => atom (Atom.char (Char.ofNat 0x0C))
      | 't' => atom (Atom.char '\t')
      | 'n' => atom (Atom.char '\n')
      | 'r' => atom (Atom.char '\r')
      | 'v' => atom (Atom.char (Char.ofNat 0x0B))
      | 'x' => do
          let (x, rest') ← readHex 2 rest
          if !flags.unicode && 0x80 ≤ x.toNat &&
              rest.head? != some '{' then
            none
          else
            some (Atom.char x, rest')
      | 'u' => do
          let (x, rest) ← readHex 4 rest
          some (Atom.char x, rest)
      | 'U' => do
          let (x, rest) ← readHex 8 rest
          some (Atom.char x, rest)
      | 'd' =>
          named (setAtom flags false CharSet.digit
            CharSet.asciiDigit)
      | 'D' =>
          named (setAtom flags true CharSet.digit
            CharSet.asciiDigit)
      | 's' =>
          named (setAtom flags false CharSet.blank
            CharSet.asciiBlank)
      | 'S' =>
          named (setAtom flags true CharSet.blank
            CharSet.asciiBlank)
      | 'w' =>
          named (setAtom flags false CharSet.word
            CharSet.asciiWord)
      | 'W' =>
          named (setAtom flags true CharSet.word
            CharSet.asciiWord)
      | 'A' => atom (Atom.assert Assertion.textStart)
      | 'z' => atom (Atom.assert Assertion.textEnd)
      | 'B' => edge WordEdge.inside
      | '<' => edge WordEdge.start
      | '>' => edge WordEdge.stop
      | 'b' => do
          let (e, rest) ← readEdge rest
          some (Atom.assert (flags.wordAssertion e), rest)
      | _ =>
          if isEscapable c then atom (Atom.char c) else none

end Regex

end Highlighter

import Highlighter.Regex.Escape

/-
  Character classes in brackets.

  Key definitions include:
    * `Regex.SetOperator`
    * `Regex.ClassPart`
    * `Regex.OpenClass`
    * `Regex.readClass`
-/

namespace Highlighter

namespace Regex

------------------------------------------------------------
-- Named classes
------------------------------------------------------------

/- The ASCII classes that go by a name. -/
def asciiClasses : List (String × CharSet) :=
  let lower := CharSet.range 'a' 'z'
  let upper := CharSet.range 'A' 'Z'
  let digits := CharSet.asciiDigit
  let control :=
    CharSet.union
      (CharSet.range (Char.ofNat 0) (Char.ofNat 0x1F))
      (CharSet.single (Char.ofNat 0x7F))
  [("alnum", CharSet.unions [digits, upper, lower]),
   ("alpha", CharSet.unions [upper, lower]),
   ("ascii",
      CharSet.range (Char.ofNat 0) (Char.ofNat 0x7F)),
   ("blank", CharSet.unions
      [CharSet.single '\t', CharSet.single ' ']),
   ("cntrl", control),
   ("digit", digits),
   ("graph", CharSet.range '!' '~'),
   ("lower", lower),
   ("print", CharSet.range ' ' '~'),
   ("punct", CharSet.unions
      [CharSet.range '!' '/', CharSet.range ':' '@',
       CharSet.range '[' (Char.ofNat 0x60),
       CharSet.range '\x7B' '~']),
   ("space", CharSet.asciiBlank),
   ("upper", upper),
   ("word", CharSet.asciiWord),
   ("xdigit", CharSet.unions
      [digits, CharSet.range 'A' 'F', CharSet.range 'a' 'f'])]

/-
  A named class such as `:alpha:]` or `:^alpha:]`, given
  the text after its opening bracket.
-/
def readNamedClass (t : Text) : Option (CharSet × Text) :=
  match t with
  | ':' :: rest =>
      let negated := rest.head? == some '^'
      let rest := if negated then rest.drop 1 else rest
      let name := rest.takeWhile (· != ':')
      match rest.drop name.length with
      | ':' :: ']' :: rest =>
          (asciiClasses.lookup (String.ofList name)).map
            fun s =>
              (if negated then CharSet.compl s else s, rest)
      | _ => none
  | _ => none

------------------------------------------------------------
-- Ranges
------------------------------------------------------------

/- One character or escape inside a class. -/
def readClassAtom (flags : Flags) (t : Text) :
    Option (Atom × Text) :=
  match t with
  | [] => none
  | '\\' :: rest => readEscape flags rest
  | c :: rest => some (Atom.char c, rest)

/- A character that may stand in a class. -/
def classChar? (flags : Flags) (c : Char) : Option CharSet :=
  let s := CharSet.single c
  if flags.allows s then some s else none

/- The set of an atom, conditions being no sets. -/
def atomSet? (flags : Flags) : Atom → Option CharSet
  | Atom.char c => classChar? flags c
  | Atom.set s => some s
  | Atom.assert _ => none

/-
  A range of characters or a single atom. A hyphen before
  a bracket or a second hyphen makes no range.
-/
def readRange (flags : Flags) (t : Text) :
    Option (CharSet × Text) := do
  let (first, rest) ← readClassAtom flags t
  let alone := (atomSet? flags first).map (fun s => (s, rest))
  match rest with
  | [] => none
  | '-' :: ']' :: _ => alone
  | '-' :: '-' :: _ => alone
  | '-' :: rest =>
      let (second, rest) ← readClassAtom flags rest
      match first, second with
      | Atom.char low, Atom.char high =>
          let s := CharSet.range low high
          if low ≤ high && flags.allows s then
            some (s, rest)
          else
            none
      | _, _ => none
  | _ => alone

------------------------------------------------------------
-- Classes
------------------------------------------------------------

/- The operators between the parts of a class. -/
inductive SetOperator
  | inter
  | diff
  | symmDiff
deriving DecidableEq, Repr

/- The set that an operator makes of two. -/
def SetOperator.apply : SetOperator → CharSet → CharSet → CharSet
  | inter => CharSet.inter
  | diff => CharSet.diff
  | symmDiff => CharSet.symmDiff

/-
  A class or a part of one: its characters, and how deep
  classes, unions and operators lie in it.
-/
structure ClassPart where
  chars : CharSet
  height : Nat
deriving DecidableEq, Repr

/- A part in which nothing lies. -/
def ClassPart.simple (chars : CharSet) : ClassPart := ⟨chars, 0⟩

/-
  A class whose closing bracket is still to come: what was
  read before the last operator, that operator, and the
  items after it, newest first.
-/
structure OpenClass where
  negated : Bool
  left : Option (ClassPart × SetOperator)
  items : List ClassPart
deriving DecidableEq, Repr

namespace OpenClass

/- The items after the last operator as one part. -/
def union (o : OpenClass) : ClassPart :=
  let height := (o.items.map ClassPart.height).foldl max 0
  ⟨CharSet.unions (o.items.reverse.map ClassPart.chars),
    if o.items.length < 2 then height else height + 1⟩

/- Everything read so far as one part. -/
def total (o : OpenClass) : ClassPart :=
  match o.left with
  | none => o.union
  | some (left, op) =>
      ⟨op.apply left.chars o.union.chars,
        max left.height o.union.height + 1⟩

/- The whole class. -/
def close (o : OpenClass) : ClassPart :=
  let chars := o.total.chars
  ⟨if o.negated then CharSet.compl chars else chars,
    o.total.height + 1⟩

/- Add an item. -/
def add (part : ClassPart) (o : OpenClass) : OpenClass :=
  { o with items := part :: o.items }

/- Add an operator. -/
def operator (op : SetOperator) (o : OpenClass) : OpenClass :=
  { o with left := some (o.total, op), items := [] }

end OpenClass

/-
  The beginning of a class after its bracket: a caret, any
  number of hyphens and, if nothing else came, a bracket
  that stands for itself.
-/
def openClass (t : Text) : OpenClass × Text :=
  let negated := t.head? == some '^'
  let t := if negated then t.drop 1 else t
  let hyphens := t.takeWhile (· == '-')
  let t := t.drop hyphens.length
  let item := fun c => ClassPart.simple (CharSet.single c)
  let items := hyphens.map item
  match items, t with
  | [], ']' :: rest => (⟨negated, none, [item ']']⟩, rest)
  | _, _ => (⟨negated, none, items⟩, t)

/-
  Read a class up to the bracket that closes it; `outer`
  are the classes around it. Each item takes up a character
  of the text `ahead`, in which the class lies.
-/
def readClassItems (flags : Flags) :
    Text → OpenClass → List OpenClass → Text →
      Option (ClassPart × Text)
  | [], _, _, _ => none
  | _ :: ahead, o, outer, t =>
      match t with
      | [] => none
      | '[' :: rest =>
          match readNamedClass rest with
          | some (s, rest) =>
              readClassItems flags ahead
                (o.add (ClassPart.simple s)) outer rest
          | none =>
              let (inner, rest) := openClass rest
              readClassItems flags ahead inner (o :: outer) rest
      | ']' :: rest =>
          match outer with
          | [] =>
              if flags.allows o.close.chars then
                some (o.close, rest)
              else
                none
          | around :: outer =>
              readClassItems flags ahead (around.add o.close)
                outer rest
      | '&' :: '&' :: rest =>
          readClassItems flags ahead
            (o.operator SetOperator.inter) outer rest
      | '-' :: '-' :: rest =>
          readClassItems flags ahead
            (o.operator SetOperator.diff) outer rest
      | '~' :: '~' :: rest =>
          readClassItems flags ahead
            (o.operator SetOperator.symmDiff) outer rest
      | _ =>
          match readRange flags t with
          | none => none
          | some (s, rest) =>
              readClassItems flags ahead
                (o.add (ClassPart.simple s)) outer rest

/- Read a class, given the text after its bracket. -/
def readClass (flags : Flags) (t : Text) :
    Option (ClassPart × Text) :=
  let (o, rest) := openClass t
  readClassItems flags t o [] rest

end Regex

end Highlighter

import Highlighter.Regex.Shape

/-
  The memory that automata for an expression take: one that
  reads a text forwards and notes groups, and one that reads
  backwards and does not. Both have one state for each byte
  or condition that is read and one for each fork, and both
  have to fit into ten mebibytes.

  Key definitions include:
    * `Footprint`
    * `Footprint.limit`
    * `Footprint.addTimes`
    * `Regex.footprint`
    * `Regex.bulk`
    * `Regex.fits`
-/

namespace Highlighter

------------------------------------------------------------
-- Footprints
------------------------------------------------------------

/-
  The number of states of an automaton, and the bytes that
  its states take beyond their fixed size.
-/
structure Footprint where
  states : Nat
  extra : Nat
deriving DecidableEq, Repr

namespace Footprint

/- No states. -/
def none : Footprint := ⟨0, 0⟩

/- Add states and bytes. -/
def add (states extra : Nat) (f : Footprint) : Footprint :=
  ⟨f.states + states, f.extra + extra⟩

/- All bytes. A state by itself has 32. -/
def bytes (f : Footprint) : Nat := 32 * f.states + f.extra

/- The bytes that an automaton may have. -/
def limit : Nat := 10 * 1024 * 1024

/- Is an automaton too large? -/
def exceeds (f : Footprint) : Bool := limit < f.bytes

/-
  Add something a number of times. A footprint that exceeds
  the limit does not have to grow further.
-/
def addTimes (step : Footprint → Footprint) :
    Nat → Footprint → Footprint
  | 0, f => f
  | count + 1, f =>
      if f.exceeds then f else addTimes step count (step f)

------------------------------------------------------------
-- Memories of states
------------------------------------------------------------

/-
  States that may be shared, by what they read and where
  they lead. There is room for a fixed number of them: a
  state takes the place of one that its hash falls on.
-/
abbrev Pool := Array (List Nat × Nat)

namespace Pool

/- A pool with no states in it. -/
def ofSize (size : Nat) : Pool := Array.replicate size ([], 0)

/- The hash of a key, by the rule FNV-1a on 64 bits. -/
def hash (key : List Nat) : UInt64 :=
  key.foldl
    (fun h n => (h ^^^ n.toUInt64) * 1099511628211)
    14695981039346656037

/- The place of a key. -/
def slot (pool : Pool) (key : List Nat) : Nat :=
  (hash key).toNat % pool.size

/- The state with a key. -/
def find? (pool : Pool) (key : List Nat) : Option Nat :=
  match pool[pool.slot key]? with
  | some (known, state) =>
      if known = key then some state else Option.none
  | Option.none => Option.none

/- Note the state with a key. -/
def put (pool : Pool) (key : List Nat) (state : Nat) : Pool :=
  pool.setIfInBounds (pool.slot key) (key, state)

end Pool

/- A footprint together with the states to share. -/
abbrev Pooled := Footprint × Pool

/-
  The state with a key, which is added, with bytes of its
  own, unless it is in the pool.
-/
def share (key : List Nat) (extra : Nat) (p : Pooled) :
    Nat × Pooled :=
  match p.2.find? key with
  | some state => (state, p)
  | Option.none =>
      (p.1.states,
        p.1.add 1 extra, p.2.put key p.1.states)

------------------------------------------------------------
-- Sets
------------------------------------------------------------

/-
  Sequences by their first ranges, neighbours with the same
  one together, and what follows these.
-/
def byFirst :
    List (List ByteRange) →
      List (ByteRange × List (List ByteRange))
  | [] => []
  | [] :: rest => byFirst rest
  | (r :: tail) :: rest =>
      match byFirst rest with
      | (first, tails) :: groups =>
          if first = r then
            (r, tail :: tails) :: groups
          else
            (r, [tail]) :: (first, tails) :: groups
      | [] => [(r, [tail])]

/-
  The state that reads one of some sequences of at most
  `depth` ranges and goes on to `target`: one state for all
  that begins alike, shared with those that lead the same
  way.
-/
def addForms (target : Nat) :
    Nat → List (List ByteRange) → Pooled → Nat × Pooled
  | 0, _, p => (target, p)
  | depth + 1, forms, p =>
      if forms.all List.isEmpty then
        (target, p)
      else
        let (edges, p) :=
          (byFirst forms).foldl
            (fun (edges, p) (r, tails) =>
              let (next, p) := addForms target depth tails p
              (next :: r.high :: r.low :: edges, p))
            ([], p)
        share edges.reverse (8 * (edges.length / 3)) p

/- The states that read the characters of a table forwards. -/
def addTable (t : Text.RangeTable) (f : Footprint) :
    Footprint :=
  let pool := Pool.ofSize 10000
  (addForms f.states 4 (ByteRange.tableForms t)
    (f.add 1 0, pool)).2.1

/-
  The states that read one sequence of ranges backwards,
  ending in a given state. Endings are shared.
-/
def addReversed (stop : Nat) :
    List ByteRange → Pooled → Pooled
  | [], p => p
  | r :: form, p =>
      let (state, p) := share [stop, r.low, r.high] 0 p
      addReversed state form p

/- The states that read the characters of a table backwards. -/
def addTableReversed (t : Text.RangeTable) (f : Footprint) :
    Footprint :=
  let forms := ByteRange.tableForms t
  let stop := f.states + 1
  let pool := Pool.ofSize 1000
  (forms.foldl (fun p form => addReversed stop form p)
    (f.add 2 (4 * forms.length), pool)).1

/-
  The states that read one character of a table. ASCII
  characters need no more than one state with an edge for
  each range.
-/
def addSet (backwards : Bool) (t : Text.RangeTable)
    (f : Footprint) : Footprint :=
  if t.all (fun range => range.2 < 0x80) then
    f.add 2 (8 * t.length)
  else if backwards then
    addTableReversed t f
  else
    addTable t f

------------------------------------------------------------
-- Literals
------------------------------------------------------------

/-
  Put a word in front of those that begin with the same
  byte.
-/
def insertWord (byte : Nat) (tail : List Nat) :
    List (Nat × List (List Nat)) → List (Nat × List (List Nat))
  | [] => [(byte, [tail])]
  | (first, tails) :: rest =>
      if first = byte then
        (first, tail :: tails) :: rest
      else
        (first, tails) :: insertWord byte tail rest

/-
  Words by their first bytes. An empty word, which ends a
  match, keeps the words before it apart from those after
  it.
-/
def wordChunks :
    List (List Nat) → List (List (Nat × List (List Nat)))
  | [] => [[]]
  | [] :: words => [] :: wordChunks words
  | (byte :: tail) :: words =>
      match wordChunks words with
      | chunk :: chunks => insertWord byte tail chunk :: chunks
      | [] => [insertWord byte tail []]

/- One empty chunk in place of several at the beginning. -/
def trimChunks {α : Type} : List (List α) → List (List α)
  | [] :: [] :: chunks => trimChunks ([] :: chunks)
  | chunks => chunks

/-
  The states that read one of some words, which are at most
  `depth` bytes long. The end of the longest words is a
  state that all words share.
-/
def addWords : Nat → List (List Nat) → Footprint → Footprint
  | 0, _, f => f
  | depth + 1, words, f =>
      if words.all List.isEmpty then
        f
      else
        let chunks := trimChunks (wordChunks words)
        let filled := chunks.filter (fun c => !c.isEmpty)
        let forks := filled.length + (chunks.length - 1)
        let edges :=
          (filled.map fun c =>
            if c.length = 1 then 0 else 8 * c.length).sum
        let f := f.add (filled.length + 1) (4 * forks + edges)
        chunks.foldl
          (fun f chunk =>
            chunk.foldl
              (fun f (_, tails) => addWords depth tails f) f)
          f

/- The states that read one of some literals. -/
def addLiterals (backwards : Bool) (literals : List Text)
    (f : Footprint) : Footprint :=
  let words := literals.map fun t =>
    let bytes := t.flatMap ByteRange.encode
    if backwards then bytes.reverse else bytes
  let depth := (words.map List.length).foldl max 0
  addWords depth words (f.add 1 0)

------------------------------------------------------------
-- Shapes
------------------------------------------------------------

/- The text of a literal. -/
def literal? : Shape → Option Text
  | Shape.literal text => some text
  | _ => Option.none

/-
  The states that repeat something: its copies, with a fork
  at each copy that may be left out and at the end of a
  loop. A loop whose body may read nothing is begun by a
  fork of its own.
-/
def addRepeated (reads : Bool) (low : Nat)
    (high : Option Nat) (one : Footprint → Footprint)
    (f : Footprint) : Footprint :=
  match low, high with
  | 0, Option.none =>
      if reads then one (f.add 1 8) else (one f).add 3 16
  | low, Option.none => (addTimes one low f).add 1 8
  | 0, some 1 => (one (f.add 1 8)).add 1 0
  | low, some high =>
      if low = high then
        addTimes one low f
      else
        let f :=
          if low = 0 then f.add 1 0 else addTimes one low f
        addTimes (fun f => one (f.add 1 8)) (high - low)
          (f.add 1 0)

mutual

/- The states that match a shape. -/
def addShape (backwards : Bool) :
    Shape → Footprint → Footprint
  | Shape.empty, f => f.add 1 0
  | Shape.literal text, f => f.add (Text.size text) 0
  | Shape.set ranges, f =>
      if f.exceeds then f else addSet backwards ranges f
  | Shape.look _, f => f.add 1 0
  | Shape.cat parts, f =>
      if backwards then addAllReversed backwards parts f
      else addAll backwards parts f
  | Shape.alt branches, f =>
      match Shape.all? literal? branches with
      | some literals => addLiterals backwards literals f
      | Option.none =>
          (addAll backwards branches f).add 2
            (4 * branches.length)
  | Shape.times low high _ body, f =>
      addRepeated body.reads low high (addShape backwards body)
        f
  | Shape.capture _ body, f =>
      addShape backwards body
        (if backwards then f else f.add 2 0)

/- The states that match shapes, first to last. -/
def addAll (backwards : Bool) :
    List Shape → Footprint → Footprint
  | [], f => f
  | s :: rest, f =>
      addAll backwards rest (addShape backwards s f)

/- The states that match shapes, last to first. -/
def addAllReversed (backwards : Bool) :
    List Shape → Footprint → Footprint
  | [], f => f
  | s :: rest, f =>
      addShape backwards s (addAllReversed backwards rest f)

end

end Footprint

------------------------------------------------------------
-- Expressions
------------------------------------------------------------

namespace Regex

/-
  The automaton for an expression. Unless it can only match
  at the edge of the text it begins with a loop over all
  bytes, and forwards it notes where the match begins and
  ends. Its last state accepts.
-/
def footprint (backwards : Bool) (a : Regex) : Footprint :=
  let fixed :=
    if backwards then a.closesWith Assertion.textEnd
    else a.opensWith Assertion.textStart
  let ahead : Footprint := if fixed then ⟨1, 0⟩ else ⟨3, 16⟩
  let body :=
    Footprint.addShape backwards a.shape
      (if backwards then ahead else ahead.add 2 0)
  body.add 1 0

/-
  More bytes than an automaton for the expression takes,
  told without building it.
-/
def bulk : Regex → Nat
  | empty => 100
  | set chars => 4000 * chars.rangeCount + 100
  | assert _ => 100
  | cat a b => a.bulk + b.bulk + 100
  | alt a b => a.bulk + b.bulk + 100
  | times low high _ body =>
      (max low (high.getD 0) + 1) * (body.bulk + 100)
  | group _ body => body.bulk + 100

/-
  May an expression be used: are its automata small enough?
  They are built only if that is in doubt.
-/
def fits (a : Regex) : Bool :=
  a.bulk + 1000 ≤ Footprint.limit ||
    (!(a.footprint false).exceeds &&
      !(a.footprint true).exceeds)

end Regex

end Highlighter

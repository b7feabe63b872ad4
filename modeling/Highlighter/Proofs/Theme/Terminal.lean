import Highlighter.Proofs.Text.Decimal
import Highlighter.Theme

/-
  What a terminal makes of a text with escape sequences. A
  sequence goes from an escape character to the next `m`. It
  sets a colour by three decimal numbers, or ends one.

  Key definitions include:
    * `Terminal.strip`
    * `Terminal.Event`
    * `Terminal.read`
    * `Terminal.Means`

  Main statements:
    * `Terminal.means_ansi` and `Terminal.means_reset`: the
      sequences of themes are read as what they stand for.
    * `Terminal.Means.read_append` and
      `Terminal.read_append`
-/

namespace Highlighter

namespace Terminal

/- The character that escape sequences begin with. -/
def escape : Char := Char.ofNat 0x1B

------------------------------------------------------------
-- Sequences taken off
------------------------------------------------------------

/-
  The characters of a text outside of escape sequences. The
  text may begin inside of one.
-/
def stripFrom : (inside : Bool) → Text → Text
  | _, [] => []
  | true, c :: rest => stripFrom (c != 'm') rest
  | false, c :: rest =>
      if c = escape then
        stripFrom true rest
      else
        c :: stripFrom false rest

/- A text without its escape sequences. -/
def strip (t : Text) : Text := stripFrom false t

------------------------------------------------------------
-- Sequences read
------------------------------------------------------------

/-
  What comes to a terminal: a character to be shown, or a
  colour that begins or ends.
-/
inductive Event
  | shown (c : Char)
  | paint (color : Color)
  | reset
deriving DecidableEq, Repr

/- The part of a colour that decimal digits stand for. -/
def part? (digits : Text) : Option UInt8 :=
  let n := Nat.ofDigitChars 10 digits 0
  if digits ≠ [] ∧ digits.all Text.isAsciiDigit ∧ n < 256 then
    some (UInt8.ofNat n)
  else
    none

/- The meaning of what is between an escape and an `m`. -/
def event? (body : Text) : Option Event :=
  match body.splitOn ';' with
  | [['[', '0']] => some Event.reset
  | [['[', '3', '8'], ['2'], r, g, b] => do
      let r ← part? r
      let g ← part? g
      let b ← part? b
      some (Event.paint ⟨r, g, b⟩)
  | _ => none

/-
  The events of a text, if all its sequences are complete
  and have a meaning. It may begin inside of a sequence that
  some characters have been read of.
-/
def readFrom : (begun : Option Text) → Text →
    Option (List Event)
  | none, [] => some []
  | some _, [] => none
  | none, c :: rest =>
      if c = escape then
        readFrom (some []) rest
      else
        (readFrom none rest).map (Event.shown c :: ·)
  | some body, c :: rest =>
      if c = 'm' then
        (event? body).bind fun e =>
          (readFrom none rest).map (e :: ·)
      else
        readFrom (some (body ++ [c])) rest

/- The events of a text. -/
def read (t : Text) : Option (List Event) := readFrom none t

/- Text without escapes is left by taking them off. -/
theorem strip_append
    {s : Text}
    (h : escape ∉ s)
    (t : Text) : strip (s ++ t) = s ++ strip t := by
  induction s with
  | nil => rfl
  | cons c s ih =>
      rw [List.mem_cons, not_or] at h
      rw [List.cons_append, strip, stripFrom,
        if_neg (Ne.symm h.1)]
      exact congrArg (c :: ·) (ih h.2)

/- It is shown. -/
theorem read_append
    {s : Text}
    (h : escape ∉ s)
    (t : Text) :
    read (s ++ t) =
      (read t).map (s.map Event.shown ++ ·) := by
  induction s with
  | nil => simp
  | cons c s ih =>
      rw [List.mem_cons, not_or] at h
      have hRest : readFrom none (s ++ t) =
          (read t).map (s.map Event.shown ++ ·) := ih h.2
      rw [List.cons_append, read, readFrom,
        if_neg (Ne.symm h.1), hRest, Option.map_map]
      rfl

------------------------------------------------------------
-- Single sequences
------------------------------------------------------------

/- A text is one escape sequence, with an event it means. -/
def Means (s : Text) (e : Event) : Prop :=
  ∃ body, s = escape :: (body ++ ['m']) ∧ 'm' ∉ body ∧
    event? body = some e

/- A sequence ends with its first `m`. -/
theorem stripFrom_body
    {body : Text}
    (h : 'm' ∉ body)
    (t : Text) :
    stripFrom true (body ++ 'm' :: t) = strip t := by
  induction body with
  | nil => rfl
  | cons c body ih =>
      rw [List.mem_cons, not_or] at h
      have hNot : (c != 'm') = true :=
        bne_iff_ne.mpr (Ne.symm h.1)
      rw [List.cons_append, stripFrom, hNot]
      exact ih h.2

theorem readFrom_body
    {body : Text}
    (h : 'm' ∉ body)
    (begun t : Text) :
    readFrom (some begun) (body ++ 'm' :: t) =
      (event? (begun ++ body)).bind fun e =>
        (read t).map (e :: ·) := by
  induction body generalizing begun with
  | nil =>
      rw [List.append_nil]
      rfl
  | cons c body ih =>
      rw [List.mem_cons, not_or] at h
      rw [List.cons_append, readFrom, if_neg (Ne.symm h.1),
        ih h.2, List.append_assoc]
      rfl

/- So it is taken off as a whole. -/
theorem Means.strip_append
    {s : Text}
    {e : Event}
    (h : Means s e)
    (t : Text) : strip (s ++ t) = strip t := by
  rcases h with ⟨body, rfl, hBody, -⟩
  rw [List.cons_append, List.append_assoc, strip, stripFrom,
    if_pos rfl]
  exact stripFrom_body hBody t

/- And it is read as what it means. -/
theorem Means.read_append
    {s : Text}
    {e : Event}
    (h : Means s e)
    (t : Text) : read (s ++ t) = (read t).map (e :: ·) := by
  rcases h with ⟨body, rfl, hBody, hEvent⟩
  have hRead := readFrom_body hBody [] t
  rw [List.nil_append, hEvent, Option.bind_some] at hRead
  rw [List.cons_append, List.append_assoc, read, readFrom,
    if_pos rfl]
  exact hRead

------------------------------------------------------------
-- Sequences of themes
------------------------------------------------------------

theorem means_reset : Means Theme.reset Event.reset :=
  ⟨['[', '0'], rfl, by decide, rfl⟩

/- A part is read from its digits. -/
theorem part?_decimal (n : UInt8) :
    part? (Color.decimal n) = some n := by
  have hDigits :
      (Text.decimal n.toNat).all Text.isAsciiDigit = true :=
    List.all_eq_true.mpr fun c =>
      Text.isAsciiDigit_of_mem_decimal
  simp only [part?, Color.decimal, Text.ofDigitChars_decimal]
  rw [if_pos ⟨Text.decimal_ne_nil _, hDigits, n.toNat_lt⟩,
    UInt8.ofNat_toNat]

/- The five parts of a sequence for a colour. -/
def ansiParts (c : Color) : List Text :=
  [['[', '3', '8'], ['2'], Color.decimal c.r,
    Color.decimal c.g, Color.decimal c.b]

/- Each is made of digits, but for a bracket. -/
theorem mem_ansiParts
    {c : Color}
    {part : Text}
    (hPart : part ∈ ansiParts c)
    {d : Char}
    (hd : d ∈ part) : d = '[' ∨ Text.isAsciiDigit d = true := by
  simp only [ansiParts, List.mem_cons, List.not_mem_nil,
    or_false] at hPart
  rcases hPart with rfl | rfl | rfl | rfl | rfl
  · simp only [List.mem_cons, List.not_mem_nil, or_false] at hd
    rcases hd with rfl | rfl | rfl
    · exact Or.inl rfl
    · exact Or.inr rfl
    · exact Or.inr rfl
  · cases List.mem_singleton.mp hd
    exact Or.inr rfl
  all_goals exact Or.inr (Text.isAsciiDigit_of_mem_decimal hd)

/- What stands in the sequence between escape and `m`. -/
def ansiBody (c : Color) : Text :=
  [';'].intercalate (ansiParts c)

theorem ansi_eq (c : Color) :
    c.ansi = escape :: (ansiBody c ++ ['m']) := by
  simp [Color.ansi, ansiBody, ansiParts, escape,
    List.intercalate]

/- It is made of what the parts are, and of what is between. -/
theorem mem_ansiBody
    {c : Color}
    {d : Char}
    (h : d ∈ ansiBody c) :
    d = ';' ∨ d = '[' ∨ Text.isAsciiDigit d = true := by
  rcases List.mem_flatten.mp h with ⟨part, hMem, hd⟩
  have hPart : part = [';'] ∨ part ∈ ansiParts c := by
    simp only [ansiParts, List.intersperse, List.mem_cons,
      List.not_mem_nil, or_false] at hMem ⊢
    grind
  rcases hPart with rfl | hPart
  · exact Or.inl (List.mem_singleton.mp hd)
  · exact Or.inr (mem_ansiParts hPart hd)

/- The sequence for a colour paints in it. -/
theorem means_ansi (c : Color) :
    Means c.ansi (Event.paint c) := by
  refine ⟨ansiBody c, ansi_eq c, ?_, ?_⟩
  · intro hMem
    rcases mem_ansiBody hMem with h | h | h <;> cases h
  · have hSplit : (ansiBody c).splitOn ';' = ansiParts c := by
      apply List.splitOn_intercalate
      · intro part hPart hMem
        rcases mem_ansiParts hPart hMem with h | h <;> cases h
      · exact List.cons_ne_nil _ _
    rw [event?, hSplit]
    simp only [ansiParts, part?_decimal]
    rfl

end Terminal

end Highlighter

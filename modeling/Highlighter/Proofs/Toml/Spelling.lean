import Highlighter.Toml.Lexeme
import Highlighter.Toml.Writer

/-
  What the inside of a TOML string in quotes spells, in each
  of the four forms of strings, and that the reader reads
  what is spelled.

  Key definitions include:
    * `Toml.IsEscape`
    * `Toml.Spells`

  Main statements:
    * `Toml.isEscape_letter`
    * `Toml.isEscape_code`
    * `Toml.Spells.readLiteral_eq`
    * `Toml.Spells.readBasic_eq`
    * `Toml.Spells.readLong_eq`
-/

namespace Highlighter

namespace Toml

------------------------------------------------------------
-- Escapes
------------------------------------------------------------

/-
  Some characters after a backslash stand for one character,
  whatever follows. They do not join lines.
-/
structure IsEscape (e : Text) (c : Char) : Prop where
  read : ∀ rest, readEscape (e ++ rest) = some (c, rest)
  notJoining : ∀ rest, joinLines? (e ++ rest) = none
  noReturn : '\r' ∉ e

/- Lines are joined by blanks and line feeds only. -/
theorem joinLines?_cons
    {c : Char}
    (hBlank : isBlank c = false)
    (hFeed : c ≠ '\n')
    (rest : Text) : joinLines? (c :: rest) = none := by
  unfold joinLines? skipBlanks
  rw [List.dropWhile_cons_of_neg (by simp [hBlank])]
  simp only [lineBreak?, expect, if_neg hFeed, Option.map_none]

/- A letter that stands for one character. -/
theorem isEscape_letter
    {e c : Char}
    (h : escaped? e = some c) : IsEscape [e] c := by
  unfold escaped? at h
  split at h <;> cases h <;>
    exact ⟨fun rest => rfl,
      fun rest => joinLines?_cons rfl (by decide) rest,
      by decide⟩

/- A hexadecimal digit has the value that it was made of. -/
theorem hexDigit?_upperDigit {d : Nat} (h : d < 16) :
    Text.hexDigit? (Text.upperDigit d) = some d := by
  have hAll :
      ∀ d < 16, Text.hexDigit? (Text.upperDigit d) = some d := by
    decide
  exact hAll d h

theorem upperDigit_ne_return {d : Nat} (h : d < 16) :
    Text.upperDigit d ≠ '\r' := by
  have hAll : ∀ d < 16, Text.upperDigit d ≠ '\r' := by decide
  exact hAll d h

/- Four digits make up a number below 65536. -/
theorem paddedHex_four (n : Nat) :
    Text.paddedHex Text.upperDigit 4 n =
      [Text.upperDigit (n / 16 / 16 / 16 % 16),
       Text.upperDigit (n / 16 / 16 % 16),
       Text.upperDigit (n / 16 % 16),
       Text.upperDigit (n % 16)] := rfl

theorem codePoint?_paddedHex
    {c : Char}
    (h : c.toNat < 0x10000) :
    codePoint? (Text.paddedHex Text.upperDigit 4 c.toNat) =
      some c := by
  have hDigit := fun n =>
    hexDigit?_upperDigit (Nat.mod_lt n (by decide : 0 < 16))
  have hValue :
      16 * (16 * (16 * (16 * 0 + c.toNat / 16 / 16 / 16 % 16) +
        c.toNat / 16 / 16 % 16) + c.toNat / 16 % 16) +
        c.toNat % 16 = c.toNat := by
    omega
  have hValid : c.toNat.isValidChar := c.valid
  rw [paddedHex_four]
  unfold codePoint?
  simp only [List.foldl_cons, List.foldl_nil, hDigit,
    Option.map_some, hValue, bind, Option.bind,
    if_pos hValid, Char.ofNat_toNat]

/- A code point in four digits. -/
theorem isEscape_code
    {c : Char}
    (h : c.toNat < 0x10000) :
    IsEscape
      ('u' :: Text.paddedHex Text.upperDigit 4 c.toNat) c := by
  refine ⟨?_, ?_, ?_⟩
  · intro rest
    have hRead := codePoint?_paddedHex h
    rw [paddedHex_four] at hRead ⊢
    simp only [List.cons_append, List.nil_append, readEscape,
      List.take_succ_cons, List.take_zero, List.length_cons,
      List.length_nil, List.drop_succ_cons, List.drop_zero,
      hRead, Option.map_some, if_true]
  · intro rest
    exact joinLines?_cons rfl (by decide) _
  · rw [paddedHex_four]
    have hDigit := fun n =>
      upperDigit_ne_return
        (Nat.mod_lt n (by decide : 0 < 16))
    simp [Ne.symm (hDigit _)]

------------------------------------------------------------
-- Spelling
------------------------------------------------------------

/-
  What the inside of a string in quotes spells. In long
  forms, with three quotes around them, line feeds and up to
  two quotes in a row stand for themselves; the number says
  how many quotes come just before.
-/
inductive Spells (quote : Char) (isLong escapes : Bool) :
    Nat → Text → Text → Prop
  | nil {n : Nat} : Spells quote isLong escapes n [] []
  | quote
      {n : Nat}
      {b t : Text}
      (hLong : isLong = true)
      (hCount : n < 2)
      (hRest : Spells quote isLong escapes (n + 1) b t) :
      Spells quote isLong escapes n (quote :: b) (quote :: t)
  | newline
      {n : Nat}
      {b t : Text}
      (hLong : isLong = true)
      (hRest : Spells quote isLong escapes 0 b t) :
      Spells quote isLong escapes n ('\n' :: b) ('\n' :: t)
  | plain
      {n : Nat}
      {c : Char}
      {b t : Text}
      (hPlain : isPlain c = true)
      (hQuote : c ≠ quote)
      (hBackslash : escapes = true → c ≠ '\\')
      (hRest : Spells quote isLong escapes 0 b t) :
      Spells quote isLong escapes n (c :: b) (c :: t)
  | escape
      {n : Nat}
      {c : Char}
      {e b t : Text}
      (hEscapes : escapes = true)
      (hEscape : IsEscape e c)
      (hRest : Spells quote isLong escapes 0 b t) :
      Spells quote isLong escapes n ('\\' :: (e ++ b)) (c :: t)

/- The characters that are put around strings. -/
def IsQuote (c : Char) : Prop := c = '"' ∨ c = '\''

theorem IsQuote.ne_newline
    {quote : Char}
    (h : IsQuote quote) : '\n' ≠ quote := by
  rcases h with rfl | rfl <;> decide

theorem IsQuote.ne_backslash
    {quote : Char}
    (h : IsQuote quote) : '\\' ≠ quote := by
  rcases h with rfl | rfl <;> decide

theorem IsQuote.ne_return
    {quote : Char}
    (h : IsQuote quote) : '\r' ≠ quote := by
  rcases h with rfl | rfl <;> decide

theorem IsQuote.isPlain
    {quote : Char}
    (h : IsQuote quote) : Toml.isPlain quote = true := by
  rcases h with rfl | rfl <;> decide

section

variable
  {quote : Char}
  {isLong escapes : Bool}
  {n : Nat}
  {b t : Text}

/- Each character takes up at least one. -/
theorem Spells.length_le
    (h : Spells quote isLong escapes n b t) :
    t.length ≤ b.length := by
  induction h with
  | nil => exact Nat.le_refl _
  | quote hLong hCount hRest ih => exact Nat.succ_le_succ ih
  | newline hLong hRest ih => exact Nat.succ_le_succ ih
  | plain hPlain hQuote hBackslash hRest ih =>
      exact Nat.succ_le_succ ih
  | escape hEscapes hEscape hRest ih =>
      simp only [List.length_cons, List.length_append]
      omega

/- No carriage return stands in a string. -/
theorem Spells.noReturn
    (hQuote : IsQuote quote)
    (h : Spells quote isLong escapes n b t) : '\r' ∉ b := by
  induction h with
  | nil => simp
  | quote hLong hCount hRest ih =>
      simp [ih, hQuote.ne_return]
  | newline hLong hRest ih => simp [ih]
  | plain hPlain hQuote hBackslash hRest ih =>
      intro hMem
      rcases List.mem_cons.mp hMem with rfl | hMem
      · cases hPlain
      · exact ih hMem
  | escape hEscapes hEscape hRest ih =>
      simp [ih, hEscape.noReturn]

/- In a short form the first character is no quote. -/
theorem Spells.head?_ne_quote
    (hQuote : IsQuote quote)
    (h : Spells quote false escapes n b t) :
    b.head? ≠ some quote := by
  cases h with
  | nil => simp
  | quote hLong => cases hLong
  | newline hLong => cases hLong
  | plain hPlain hNot => simpa using hNot
  | escape hEscapes => simpa using hQuote.ne_backslash

/- A line feed in front stands for itself. -/
theorem Spells.head?_newline
    (hQuote : IsQuote quote)
    (h : Spells quote isLong escapes n b t)
    (hHead : b.head? = some '\n') : t.head? = some '\n' := by
  cases h with
  | nil => cases hHead
  | quote hLong =>
      exact absurd (Option.some.inj hHead).symm
        hQuote.ne_newline
  | newline hLong => rfl
  | plain hPlain =>
      cases hHead
      cases hPlain
  | escape hEscapes => cases hHead

------------------------------------------------------------
-- Reading
------------------------------------------------------------

theorem consRead_some (c : Char) (t rest : Text) :
    consRead c (some (t, rest)) = some (c :: t, rest) := rfl

/- A string in apostrophes is read as what it spells. -/
theorem Spells.readLiteral_eq
    (h : Spells '\'' false false n b t)
    (rest : Text) :
    readLiteral (b ++ '\'' :: rest) = some (t, rest) := by
  induction h with
  | nil => rfl
  | quote hLong => cases hLong
  | newline hLong => cases hLong
  | plain hPlain hQuote hBackslash hRest ih =>
      rw [List.cons_append, readLiteral, if_neg hQuote,
        if_pos hPlain, ih, consRead_some]
  | escape hEscapes => cases hEscapes

/- In quotes a plain character is read as itself. -/
theorem readBasic_plain
    {c : Char}
    (hPlain : isPlain c = true)
    (hQuote : c ≠ '"')
    (hBackslash : c ≠ '\\')
    (fuel : Nat)
    (rest : Text) :
    readBasic (fuel + 1) (c :: rest) =
      consRead c (readBasic fuel rest) := by
  rw [readBasic.eq_def]
  split
  · rename_i hEq
    cases hEq
  · rename_i hFuel
    cases hFuel
    split
    · rename_i hEq
      cases hEq
    · rename_i hEq
      cases hEq
      exact absurd rfl hQuote
    · rename_i hEq
      cases hEq
      exact absurd rfl hBackslash
    · rename_i hEq
      cases hEq
      rw [if_pos hPlain]

/- A string in quotation marks is read as what it spells. -/
theorem Spells.readBasic_eq
    (h : Spells '"' false true n b t)
    (rest : Text)
    {fuel : Nat}
    (hFuel : t.length < fuel) :
    readBasic fuel (b ++ '"' :: rest) = some (t, rest) := by
  induction h generalizing fuel with
  | nil =>
      cases fuel with
      | zero => cases hFuel
      | succ fuel => rfl
  | quote hLong => cases hLong
  | newline hLong => cases hLong
  | plain hPlain hQuote hBackslash hRest ih =>
      cases fuel with
      | zero => cases hFuel
      | succ fuel =>
          rw [List.cons_append,
            readBasic_plain hPlain hQuote (hBackslash rfl),
            ih (Nat.lt_of_succ_lt_succ hFuel), consRead_some]
  | escape hEscapes hEscape hRest ih =>
      cases fuel with
      | zero => cases hFuel
      | succ fuel =>
          rw [List.cons_append, List.append_assoc]
          simp only [readBasic, hEscape.read]
          rw [ih (Nat.lt_of_succ_lt_succ hFuel),
            consRead_some]

/- The number of quotes that a text begins with. -/
def leadingQuotes (quote : Char) (t : Text) : Nat :=
  (t.takeWhile (· == quote)).length

theorem leadingQuotes_quote (quote : Char) (t : Text) :
    leadingQuotes quote (quote :: t) =
      leadingQuotes quote t + 1 := by
  simp [leadingQuotes]

theorem leadingQuotes_other
    {quote c : Char}
    (h : c ≠ quote)
    (t : Text) : leadingQuotes quote (c :: t) = 0 := by
  simp [leadingQuotes, h]

/- Three quotes together, closing a string. -/
def closing (quote : Char) : Text := [quote, quote, quote]

theorem leadingQuotes_replicate
    {rest : Text}
    (hRest : rest.head? ≠ some quote)
    (k : Nat) :
    leadingQuotes quote (List.replicate k quote ++ rest) = k := by
  induction k with
  | zero =>
      cases rest with
      | nil => rfl
      | cons c rest =>
          exact leadingQuotes_other (by simpa using hRest) rest
  | succ k ih =>
      rw [List.replicate_succ, List.cons_append,
        leadingQuotes_quote, ih]

/-
  Before the closing quotes of a long form there are either
  no more than two others, or else the quotes at the start
  are at most two.
-/
theorem Spells.leadingQuotes_le
    (hQuote : IsQuote quote)
    (h : Spells quote isLong escapes n b t)
    (hCount : n ≤ 2)
    (rest : Text) :
    (∃ k, b = List.replicate k quote ∧
        t = List.replicate k quote ∧ n + k ≤ 2) ∨
      n + leadingQuotes quote
        (b ++ closing quote ++ rest) ≤ 2 := by
  induction h with
  | nil => exact Or.inl ⟨0, rfl, rfl, hCount⟩
  | quote hLong hFewer hRest ih =>
      rcases ih hFewer with ⟨k, rfl, rfl, hSum⟩ | hSum
      · exact Or.inl ⟨k + 1, rfl, rfl, by omega⟩
      · right
        rw [List.cons_append, List.cons_append,
          leadingQuotes_quote]
        omega
  | newline hLong hRest ih =>
      right
      rw [List.cons_append, List.cons_append,
        leadingQuotes_other hQuote.ne_newline]
      exact hCount
  | plain hPlain hNot hBackslash hRest ih =>
      right
      rw [List.cons_append, List.cons_append,
        leadingQuotes_other hNot]
      exact hCount
  | escape hEscapes hEscape hRest ih =>
      right
      rw [List.cons_append, List.cons_append,
        leadingQuotes_other hQuote.ne_backslash]
      exact hCount

/- Up to two quotes stand before those that close. -/
theorem readLong_replicate
    {rest : Text}
    (hRest : rest.head? ≠ some quote)
    {k : Nat}
    (hk : k ≤ 2)
    (escapes : Bool)
    (fuel : Nat) :
    readLong quote escapes (fuel + 1)
        (List.replicate k quote ++ closing quote ++ rest) =
      some (List.replicate k quote, rest) := by
  have hText :
      List.replicate k quote ++ closing quote ++ rest =
        List.replicate (k + 3) quote ++ rest := by
    rw [← List.replicate_append_replicate]
    rfl
  have hLeading := leadingQuotes_replicate hRest (k + 3)
  unfold leadingQuotes at hLeading
  have hOwn : min (k + 3 - 3) 2 = k := by omega
  have hDrop :
      (List.replicate (k + 3) quote ++ rest).drop (k + 3) =
        rest := by
    apply List.drop_left'
    exact List.length_replicate
  rw [hText, readLong.eq_def]
  simp only [hLeading, Nat.le_add_left, if_true, hOwn, hDrop]

/- Where fewer quotes stand, one character is read. -/
theorem readLong_cons
    {c : Char}
    {rest : Text}
    (hFew : leadingQuotes quote (c :: rest) < 3)
    (escapes : Bool)
    (fuel : Nat) :
    readLong quote escapes (fuel + 1) (c :: rest) =
      if c = '\n' then
        consRead '\n' (readLong quote escapes fuel rest)
      else if escapes ∧ c = '\\' then
        match joinLines? rest with
        | some rest => readLong quote escapes fuel rest
        | none =>
            match readEscape rest with
            | none => none
            | some (c, rest) =>
                consRead c (readLong quote escapes fuel rest)
      else if isPlain c then
        consRead c (readLong quote escapes fuel rest)
      else
        none := by
  unfold leadingQuotes at hFew
  rw [readLong.eq_def]
  simp only [if_neg (Nat.not_le_of_lt hFew)]
  split
  · rename_i hEq
    cases hEq
  · rename_i hEq
    cases hEq
    rw [if_pos rfl]
  · rename_i hNot hEq
    cases hEq
    exact (if_neg hNot).symm

/- A string in three quotes is read as what it spells. -/
theorem Spells.readLong_eq
    (hQuote : IsQuote quote)
    (h : Spells quote true escapes n b t)
    (hCount : n ≤ 2)
    {rest : Text}
    (hRest : rest.head? ≠ some quote)
    {fuel : Nat}
    (hFuel : t.length < fuel) :
    readLong quote escapes fuel (b ++ closing quote ++ rest) =
      some (t, rest) := by
  induction h generalizing fuel with
  | nil =>
      cases fuel with
      | zero => cases hFuel
      | succ fuel =>
          exact readLong_replicate hRest (Nat.zero_le 2) escapes
            fuel
  | @quote n b t hLong hFewer hMore ih =>
      cases fuel with
      | zero => cases hFuel
      | succ fuel =>
          have hAll := Spells.quote hLong hFewer hMore
          rcases hAll.leadingQuotes_le hQuote hCount rest with
            ⟨k, hText, hSpelt, hSum⟩ | hFew
          · rw [hText, hSpelt]
            exact readLong_replicate hRest (by omega) escapes
              fuel
          · rw [List.cons_append, List.cons_append] at hFew ⊢
            rw [readLong_cons (by omega),
              if_neg hQuote.ne_newline.symm,
              if_neg (fun hBoth =>
                hQuote.ne_backslash hBoth.2.symm),
              if_pos hQuote.isPlain,
              ih hFewer (Nat.lt_of_succ_lt_succ hFuel),
              consRead_some]
  | newline hLong hMore ih =>
      cases fuel with
      | zero => cases hFuel
      | succ fuel =>
          rw [List.cons_append, List.cons_append,
            readLong_cons
              (by rw [leadingQuotes_other hQuote.ne_newline]
                  decide),
            if_pos rfl,
            ih (Nat.zero_le 2) (Nat.lt_of_succ_lt_succ hFuel),
            consRead_some]
  | plain hPlain hNot hBackslash hMore ih =>
      cases fuel with
      | zero => cases hFuel
      | succ fuel =>
          rw [List.cons_append, List.cons_append,
            readLong_cons
              (by rw [leadingQuotes_other hNot]; decide),
            if_neg (by rintro rfl; cases hPlain),
            if_neg (fun hBoth => hBackslash hBoth.1 hBoth.2),
            if_pos hPlain,
            ih (Nat.zero_le 2) (Nat.lt_of_succ_lt_succ hFuel),
            consRead_some]
  | escape hEscapes hEscape hMore ih =>
      cases fuel with
      | zero => cases hFuel
      | succ fuel =>
          rw [List.cons_append, List.cons_append,
            readLong_cons
              (by rw [leadingQuotes_other hQuote.ne_backslash]
                  decide),
            if_neg (by decide),
            if_pos ⟨hEscapes, rfl⟩, List.append_assoc,
            List.append_assoc, hEscape.notJoining,
            hEscape.read]
          simp only
          rw [← List.append_assoc,
            ih (Nat.zero_le 2) (Nat.lt_of_succ_lt_succ hFuel),
            consRead_some]

end

end Toml

end Highlighter

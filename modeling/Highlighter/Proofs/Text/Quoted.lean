import Highlighter.Proofs.Text.HexDigits
import Highlighter.Text.Quoted

/-
  Quoted texts: a reader that undoes the escapes gives back
  each text from its quoted form, and all characters of this
  form show by themselves.

  Key definitions include:
    * `Text.QuotePlace`
    * `Text.unquoteFrom`
    * `Text.unquoted?`

  Main statements:
    * `Text.unquoteFrom_quoteChar`
    * `Text.unquoted?_quoted`
    * `Text.isPrintable_of_mem_quoted`
-/

namespace Highlighter

namespace Text

------------------------------------------------------------
-- A reader of quoted texts
------------------------------------------------------------

/-
  Where the reader is: between two characters, behind the
  backslash or the `u` of an escape, or in a code point,
  with the value of the digits so far.
-/
inductive QuotePlace
  | between
  | backslash
  | letter
  | digits (value : Nat)

/- What a letter behind a backslash stands for. -/
def unescape? (c : Char) : Option Char :=
  match c with
  | '0' => some '\x00'
  | 't' => some '\t'
  | 'r' => some '\r'
  | 'n' => some '\n'
  | '"' => some '"'
  | '\'' => some '\''
  | '\\' => some '\\'
  | _ => none

/-
  The text that is quoted up to a quotation mark, which has
  to be the last character.
-/
def unquoteFrom : QuotePlace → Text → Option Text
  | _, [] => none
  | QuotePlace.between, c :: rest =>
      if c = '"' then
        if rest = [] then some [] else none
      else if c = '\\' then
        unquoteFrom QuotePlace.backslash rest
      else
        (unquoteFrom QuotePlace.between rest).map (c :: ·)
  | QuotePlace.backslash, c :: rest =>
      if c = 'u' then
        unquoteFrom QuotePlace.letter rest
      else
        (unescape? c).bind fun d =>
          (unquoteFrom QuotePlace.between rest).map (d :: ·)
  | QuotePlace.letter, c :: rest =>
      if c = '{' then
        unquoteFrom (QuotePlace.digits 0) rest
      else
        none
  | QuotePlace.digits n, c :: rest =>
      if c = '}' then
        if n.isValidChar then
          (unquoteFrom QuotePlace.between rest).map
            (Char.ofNat n :: ·)
        else
          none
      else
        (hexDigit? c).bind fun d =>
          unquoteFrom (QuotePlace.digits (16 * n + d)) rest

/- The text that was put in quotation marks. -/
def unquoted? : Text → Option Text
  | '"' :: rest => unquoteFrom QuotePlace.between rest
  | _ => none

------------------------------------------------------------
-- Code points
------------------------------------------------------------

/- The number is written by its higher digits and the last. -/
theorem hex_eq (n : Nat) :
    hex n =
      if n < 16 then [lowerDigit n]
      else hex (n / 16) ++ [lowerDigit (n % 16)] :=
  Nat.toDigits_eq_if (by decide)

/- No digit is a closing brace. -/
theorem lowerDigit_ne_brace {n : Nat} (h : n < 16) :
    lowerDigit n ≠ '}' := by
  have hAll : ∀ n < 16, lowerDigit n ≠ '}' := by decide
  exact hAll n h

/- One more digit is read. -/
theorem unquoteFrom_lowerDigit
    {d : Nat}
    (h : d < 16)
    (n : Nat)
    (rest : Text) :
    unquoteFrom (QuotePlace.digits n) (lowerDigit d :: rest) =
      unquoteFrom (QuotePlace.digits (16 * n + d)) rest := by
  rw [unquoteFrom, if_neg (lowerDigit_ne_brace h),
    hexDigit?_lowerDigit h, Option.bind_some]

/- All digits of a number are read as the number. -/
theorem unquoteFrom_hex
    (n : Nat)
    (rest : Text) :
    unquoteFrom (QuotePlace.digits 0) (hex n ++ rest) =
      unquoteFrom (QuotePlace.digits n) rest := by
  induction n using Nat.strongRecOn generalizing rest with
  | ind n ih =>
      rw [hex_eq]
      split
      · rename_i hSmall
        exact (unquoteFrom_lowerDigit hSmall 0 rest).trans
          (by rw [Nat.mul_zero, Nat.zero_add])
      · have hDigit : n % 16 < 16 := Nat.mod_lt n (by decide)
        rw [List.append_assoc, ih (n / 16) (by omega)]
        have hLast := unquoteFrom_lowerDigit hDigit (n / 16) rest
        exact hLast.trans (by rw [Nat.div_add_mod])

/- A character is read from its code point. -/
theorem unquoteFrom_codePoint
    (c : Char)
    (rest : Text) :
    unquoteFrom QuotePlace.between
        ('\\' :: 'u' :: '{' :: hex c.toNat ++ ['}'] ++ rest) =
      (unquoteFrom QuotePlace.between rest).map (c :: ·) := by
  have hRead :
      unquoteFrom QuotePlace.between
          ('\\' :: 'u' :: '{' :: hex c.toNat ++ ['}'] ++ rest) =
        unquoteFrom (QuotePlace.digits 0)
          (hex c.toNat ++ '}' :: rest) := by
    simp [unquoteFrom]
  have hValid : c.toNat.isValidChar := c.valid
  rw [hRead, unquoteFrom_hex, unquoteFrom, if_pos rfl,
    if_pos hValid, Char.ofNat_toNat]

------------------------------------------------------------
-- Texts
------------------------------------------------------------

/- A character is read from its quoted form. -/
theorem unquoteFrom_quoteChar
    (c : Char)
    (rest : Text) :
    unquoteFrom QuotePlace.between (quoteChar c ++ rest) =
      (unquoteFrom QuotePlace.between rest).map (c :: ·) := by
  unfold quoteChar
  split
  case h_7 hZero hTab hReturn hNewline hQuote hSlash =>
    split
    · rw [List.singleton_append, unquoteFrom, if_neg hQuote,
        if_neg hSlash]
    · exact unquoteFrom_codePoint c rest
  all_goals simp [unquoteFrom, unescape?]

/- Each text is read from its quoted form. -/
theorem unquoted?_quoted (t : Text) :
    unquoted? (quoted t) = some t := by
  have hRead : unquoteFrom QuotePlace.between
      (t.flatMap quoteChar ++ ['"']) = some t := by
    induction t with
    | nil => rfl
    | cons c t ih =>
        rw [List.flatMap_cons, List.append_assoc,
          unquoteFrom_quoteChar, ih]
        rfl
  exact hRead

------------------------------------------------------------
-- Characters that show
------------------------------------------------------------

/- Code points are written in hexadecimal digits. -/
theorem mem_hexDigits_of_mem_hex
    {n : Nat}
    {c : Char}
    (h : c ∈ hex n) : c ∈ hexDigits := by
  have hDigit : ∀ d < 16, lowerDigit d ∈ hexDigits := by decide
  induction n using Nat.strongRecOn with
  | ind n ih =>
      rw [hex_eq] at h
      split at h
      · rename_i hSmall
        cases List.mem_singleton.mp h
        exact hDigit n hSmall
      · rcases List.mem_append.mp h with hHigh | hLast
        · exact ih (n / 16) (by omega) hHigh
        · cases List.mem_singleton.mp hLast
          exact hDigit _ (Nat.mod_lt n (by decide))

/- A character is quoted by characters that show. -/
theorem isPrintable_of_mem_quoteChar
    {c d : Char}
    (h : d ∈ quoteChar c) : isPrintable d = true := by
  have hHex : ∀ d ∈ hexDigits, isPrintable d = true :=
    forall_of_all (by decide)
  have hMarks : ∀ d ∈ "\\u\x7b\x7d0trn\"".toList,
      isPrintable d = true := forall_of_all (by decide)
  unfold quoteChar at h
  split at h
  case h_7 =>
    split at h
    · rename_i hPrintable
      cases List.mem_singleton.mp h
      exact hPrintable
    · simp only [List.cons_append, List.mem_cons,
        List.mem_append, List.not_mem_nil, or_false] at h
      rcases h with rfl | rfl | rfl | hDigit | rfl
      · exact hMarks _ (by decide)
      · exact hMarks _ (by decide)
      · exact hMarks _ (by decide)
      · exact hHex d (mem_hexDigits_of_mem_hex hDigit)
      · exact hMarks _ (by decide)
  all_goals
    simp only [List.mem_cons, List.not_mem_nil, or_false] at h
    rcases h with rfl | rfl <;> exact hMarks _ (by decide)

/- So is a text. -/
theorem isPrintable_of_mem_quoted
    {t : Text}
    {c : Char}
    (h : c ∈ quoted t) : isPrintable c = true := by
  rcases List.mem_append.mp h with hBody | hLast
  · rcases List.mem_cons.mp hBody with rfl | hBody
    · decide
    · rcases List.mem_flatMap.mp hBody with ⟨d, -, hc⟩
      exact isPrintable_of_mem_quoteChar hc
  · cases List.mem_singleton.mp hLast
    decide

end Text

end Highlighter

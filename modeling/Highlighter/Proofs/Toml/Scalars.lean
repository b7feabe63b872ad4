import Highlighter.Proofs.Text.Decimal
import Highlighter.Proofs.Toml.Strings
import Highlighter.Toml.Reader

/-
  Values on one line of a TOML document: a text, a whole
  number or a truth value that is written at the end of a
  line is read as what it was.

  Main statements:
    * `Toml.valueIn_decimal`
    * `Toml.readDecimal_decimal`
    * `Toml.readValue_writeScalar`
-/

namespace Highlighter

namespace Toml

------------------------------------------------------------
-- Digits
------------------------------------------------------------

/- Digits are read by their values one after the other. -/
theorem foldl_hexDigit?
    {digits : Text}
    (h : ∀ c ∈ digits, Text.isAsciiDigit c = true)
    (init : Nat) :
    digits.foldl
        (fun n c => 10 * n + (Text.hexDigit? c).getD 0) init =
      Nat.ofDigitChars 10 digits init := by
  induction digits generalizing init with
  | nil => rw [List.foldl_nil, Nat.ofDigitChars_nil]
  | cons c digits ih =>
      rw [List.forall_mem_cons] at h
      rw [List.foldl_cons, Nat.ofDigitChars_cons,
        Text.hexDigit?_of_isAsciiDigit h.1, Option.getD_some]
      exact ih h.2 _

/- The digits of a number have it for their value. -/
theorem valueIn_decimal (n : Nat) :
    valueIn 10 (Text.decimal n) = n := by
  have hFold := foldl_hexDigit?
    (fun c => Text.isAsciiDigit_of_mem_decimal (n := n)) 0
  rw [Text.ofDigitChars_decimal] at hFold
  exact hFold

------------------------------------------------------------
-- Numbers
------------------------------------------------------------

section

variable (more : Text)

/- Digits are read to the end of the line. -/
theorem readDigitRun_eq
    {digits : Text}
    (hSome : digits ≠ [])
    (hDigits : ∀ c ∈ digits, Text.isAsciiDigit c = true)
    {fuel : Nat}
    (hFuel : digits.length ≤ fuel) :
    readDigitRun Text.isAsciiDigit fuel
        (digits ++ '\n' :: more) =
      some (digits, '\n' :: more) := by
  induction digits generalizing fuel with
  | nil => exact absurd rfl hSome
  | cons c digits ih =>
      have hFirst := hDigits c (List.mem_cons_self ..)
      cases fuel with
      | zero => cases hFuel
      | succ fuel =>
          cases digits with
          | nil =>
              have hNone : Text.isAsciiDigit '\n' = false := rfl
              simp [readDigitRun, hFirst, hNone]
          | cons d digits =>
              have hSecond := hDigits d (by simp)
              have hNot : d ≠ '_' := by
                rintro rfl
                cases hSecond
              have hRest := ih (List.cons_ne_nil d digits)
                (fun e he =>
                  hDigits e (List.mem_cons_of_mem c he))
                (Nat.le_of_succ_le_succ hFuel)
              rw [List.cons_append] at hRest
              simp only [List.cons_append, readDigitRun, hFirst,
                hSecond, if_true, hRest, consRead_some]

theorem readWhole_decimal (n : Nat) :
    readWhole (Text.decimal n ++ '\n' :: more) =
      some (Text.decimal n, '\n' :: more) := by
  rcases Text.decimal_cons n with ⟨c, digits, hText, hDigit, hZero⟩
  unfold readWhole
  split
  · rename_i hHead
    rw [hText] at hHead ⊢
    rcases List.cons.inj hHead with ⟨rfl, hRest⟩
    rw [hZero rfl] at hRest ⊢
    rw [← hRest]
    rfl
  · unfold readDigitsOf
    apply readDigitRun_eq more (Text.decimal_ne_nil n)
      (fun c => Text.isAsciiDigit_of_mem_decimal)
    rw [List.length_append]
    omega

/- The digits of a number are read as the number. -/
theorem readDecimal_decimal
    (negative : Bool)
    (n : Nat) :
    readDecimal negative (Text.decimal n ++ '\n' :: more) =
      (integer? (if negative then -(n : Int) else n)).map
        fun d => (d, '\n' :: more) := by
  unfold readDecimal
  simp only [readWhole_decimal, bind, Option.bind,
    readExponent]
  simp [valueIn_decimal, Option.map]
  cases integer? (if negative = true then -(n : Int) else n) <;>
    rfl

/- What starts with a digit is no word. -/
theorem expectWord_of_digit
    {c : Char}
    (h : Text.isAsciiDigit c = true)
    {w : Char}
    {word : String}
    {letters : Text}
    (hWord : word.toList = w :: letters)
    (hLetter : Text.isAsciiDigit w = false)
    (t : Text) : expectWord word (c :: t) = none := by
  have hNot : w ≠ c := by
    rintro rfl
    rw [h] at hLetter
    cases hLetter
  rw [expectWord, hWord, List.isPrefixOf, beq_false_of_ne hNot]
  rfl

theorem readUnsigned_decimal
    (negative : Bool)
    (n : Nat) :
    readUnsigned negative (Text.decimal n ++ '\n' :: more) =
      (integer? (if negative then -(n : Int) else n)).map
        fun d => (d, '\n' :: more) := by
  rcases Text.decimal_cons n with ⟨c, digits, hText, hDigit, _⟩
  rw [← readDecimal_decimal, readUnsigned, hText,
    List.cons_append,
    expectWord_of_digit hDigit rfl rfl,
    expectWord_of_digit hDigit rfl rfl]

theorem readNumber_decimal (n : Nat) :
    readNumber (Text.decimal n ++ '\n' :: more) =
      (integer? n).map fun d => (d, '\n' :: more) := by
  rcases Text.decimal_cons n with ⟨c, digits, hText, hDigit, hZero⟩
  have hAll := readUnsigned_decimal more false n
  rw [hText, List.cons_append] at hAll ⊢
  have hBase : ∀ b rest, c :: (digits ++ '\n' :: more) =
      '0' :: b :: rest → b = '\n' := by
    intro b rest hEq
    rcases List.cons.inj hEq with ⟨hFirst, hRest⟩
    rw [hZero hFirst] at hRest
    exact (List.cons.inj hRest).1.symm
  unfold readNumber
  split
  · rename_i hEq
    cases hEq
    cases hDigit
  · rename_i hEq
    cases hEq
    cases hDigit
  · rename_i hEq
    cases hBase _ _ hEq
  · rename_i hEq
    cases hBase _ _ hEq
  · rename_i hEq
    cases hBase _ _ hEq
  · exact hAll

/- No date and no time of day ends after its first digits. -/
theorem startsMoment_decimal (n : Nat) :
    startsMoment (Text.decimal n ++ '\n' :: more) = false := by
  have hDigits :
      leadingDigits (Text.decimal n ++ '\n' :: more) =
        (Text.decimal n).length := by
    unfold leadingDigits
    rw [List.takeWhile_append_of_pos
      (fun c => Text.isAsciiDigit_of_mem_decimal)]
    simp [Text.isAsciiDigit]
  have hAfter :
      (Text.decimal n ++ '\n' :: more)[
        (Text.decimal n).length]? = some '\n' := by
    simp
  unfold startsMoment
  rw [hDigits]
  by_cases hFour : (Text.decimal n).length = 4
  · rw [hFour] at hAfter ⊢
    simp [hAfter]
  by_cases hTwo : (Text.decimal n).length = 2
  · rw [hTwo] at hAfter ⊢
    simp [hAfter]
  · simp [hFour, hTwo]

------------------------------------------------------------
-- Values
------------------------------------------------------------

/- The characters that a written value starts with. -/
def isValueStart (c : Char) : Bool :=
  Text.isAsciiDigit c || c == '-' || c == '"' || c == '\'' ||
    c == 't' || c == 'f'

theorem writeStyled_head (t : Text) (s : Style) :
    ∃ c rest, writeStyled t s = c :: rest ∧ IsQuote c := by
  cases s with
  | basic => exact ⟨'"', _, rfl, Or.inl rfl⟩
  | literal => exact ⟨'\'', _, rfl, Or.inr rfl⟩
  | longBasic => exact ⟨'"', _, rfl, Or.inl rfl⟩
  | longLiteral => exact ⟨'\'', _, rfl, Or.inr rfl⟩

/- How the values that can be written are written. -/
theorem writeScalar_cases
    {d : Data}
    {v : Text}
    (h : writeScalar d = some v) :
    (∃ s, d = Data.text s ∧ v = writeString s.toList) ∨
    (∃ n : Nat, d = Data.int n ∧ fitsInteger n = true ∧
      v = Text.decimal n) ∨
    (∃ n : Nat, d = Data.int (-n) ∧ fitsInteger (-n) = true ∧
      v = '-' :: Text.decimal n) ∨
    (d = Data.bool true ∧ v = "true".toList) ∨
    (d = Data.bool false ∧ v = "false".toList) := by
  cases d with
  | text s =>
      exact Or.inl ⟨s, rfl, (Option.some.inj h).symm⟩
  | int n =>
      simp only [writeScalar, writeInteger] at h
      split at h
      · rename_i hFits
        split at h
        · refine Or.inr (Or.inr (Or.inl
            ⟨n.natAbs, ?_, ?_, (Option.some.inj h).symm⟩))
          · congr 1
            omega
          · rwa [show -(n.natAbs : Int) = n by omega]
        · refine Or.inr (Or.inl
            ⟨n.natAbs, ?_, ?_, (Option.some.inj h).symm⟩)
          · congr 1
            omega
          · rwa [show (n.natAbs : Int) = n by omega]
      · cases h
  | bool b =>
      cases b with
      | true =>
          exact Or.inr (Or.inr (Or.inr (Or.inl
            ⟨rfl, (Option.some.inj h).symm⟩)))
      | false =>
          exact Or.inr (Or.inr (Or.inr (Or.inr
            ⟨rfl, (Option.some.inj h).symm⟩)))
  | null => cases h
  | real => cases h
  | list items => cases h
  | map entries => cases h

theorem writeScalar_head
    {d : Data}
    {v : Text}
    (h : writeScalar d = some v) :
    ∃ c rest, v = c :: rest ∧ isValueStart c = true := by
  rcases writeScalar_cases h with ⟨s, rfl, rfl⟩ |
    ⟨n, rfl, _, rfl⟩ | ⟨n, rfl, _, rfl⟩ | ⟨rfl, rfl⟩ |
    ⟨rfl, rfl⟩
  · rcases writeStyled_head s.toList (styleOf s.toList) with
      ⟨c, rest, hText, hQuote⟩
    refine ⟨c, rest, hText, ?_⟩
    rcases hQuote with rfl | rfl <;> rfl
  · rcases Text.decimal_cons n with ⟨c, digits, hText, hDigit, _⟩
    exact ⟨c, digits, hText, by simp [isValueStart, hDigit]⟩
  · exact ⟨'-', _, rfl, rfl⟩
  · exact ⟨'t', _, rfl, rfl⟩
  · exact ⟨'f', _, rfl, rfl⟩

theorem return_notMem_writeScalar
    {d : Data}
    {v : Text}
    (h : writeScalar d = some v) : '\r' ∉ v := by
  have hNumber : ∀ n, '\r' ∉ Text.decimal n := by
    intro n hMem
    cases Text.isAsciiDigit_of_mem_decimal hMem
  rcases writeScalar_cases h with ⟨s, rfl, rfl⟩ |
    ⟨n, rfl, _, rfl⟩ | ⟨n, rfl, _, rfl⟩ | ⟨rfl, rfl⟩ |
    ⟨rfl, rfl⟩
  · exact return_notMem_writeString s.toList
  · exact hNumber n
  · simp [hNumber n]
  · decide
  · decide

/- What starts like a number and no date is a number. -/
theorem readScalar_number
    {c : Char}
    {t : Text}
    (hStart : Text.isAsciiDigit c = true ∨ c = '-')
    (hMoment : startsMoment (c :: t) = false) :
    readScalar (c :: t) = readNumber (c :: t) := by
  have hNot : ∀ d, Text.isAsciiDigit d = false → d ≠ '-' →
      c ≠ d := by
    rintro d hDigit hSign rfl
    rcases hStart with hStart | hStart
    · rw [hDigit] at hStart
      cases hStart
    · exact hSign hStart
  simp only [readScalar]
  rw [if_neg
      (not_or.mpr
        ⟨hNot '"' rfl (by decide), hNot '\'' rfl (by decide)⟩),
    if_neg (hNot 't' rfl (by decide)),
    if_neg (hNot 'f' rfl (by decide)), hMoment]
  rfl

/- A value is read as what it was written for. -/
theorem readScalar_writeScalar
    {d : Data}
    {v : Text}
    (h : writeScalar d = some v) :
    readScalar (v ++ '\n' :: more) =
      some (d, '\n' :: more) := by
  rcases writeScalar_cases h with ⟨s, rfl, rfl⟩ |
    ⟨n, rfl, hFits, rfl⟩ | ⟨n, rfl, hFits, rfl⟩ | ⟨rfl, rfl⟩ |
    ⟨rfl, rfl⟩
  · have hRead :
        readString (writeString s.toList ++ '\n' :: more) =
          some (s.toList, '\n' :: more) :=
      readString_writeString s.toList (by simp) (by simp)
    rcases writeStyled_head s.toList (styleOf s.toList) with
      ⟨c, rest, hText, hQuote⟩
    rw [writeString, hText, List.cons_append] at hRead ⊢
    simp only [readScalar]
    rw [if_pos (show c = '"' ∨ c = '\'' from hQuote), hRead,
      Option.map_some, String.ofList_toList]
  · have hMoment := startsMoment_decimal more n
    have hRead := readNumber_decimal more n
    rcases Text.decimal_cons n with ⟨c, digits, hText, hDigit, _⟩
    rw [hText, List.cons_append] at hMoment hRead ⊢
    rw [readScalar_number (Or.inl hDigit) hMoment, hRead,
      integer?, if_pos hFits, Option.map_some]
  · rw [List.cons_append,
      readScalar_number (Or.inr rfl) (by rfl)]
    simp only [readNumber, readUnsigned_decimal, if_true,
      integer?, hFits, Option.map_some]
  · rfl
  · rfl

/- A value that starts with no bracket is a scalar. -/
theorem readValue_scalar
    {c : Char}
    (hList : c ≠ '[')
    (hTable : c ≠ '{')
    (depth : Nat)
    (t : Text) :
    readValue depth (c :: t) = readScalar (c :: t) := by
  rw [readValue.eq_def]
  split
  · rename_i hEq
    exact absurd (List.cons.inj hEq).1 hList
  · rename_i hEq
    exact absurd (List.cons.inj hEq).1 hTable
  · rfl

theorem readValue_writeScalar
    {d : Data}
    {v : Text}
    (h : writeScalar d = some v)
    (depth : Nat) :
    readValue depth (v ++ '\n' :: more) =
      some (d, '\n' :: more) := by
  have hRead := readScalar_writeScalar more h
  rcases writeScalar_head h with ⟨c, rest, rfl, hStart⟩
  rw [List.cons_append] at hRead ⊢
  rw [readValue_scalar _ _ depth, hRead]
  · rintro rfl
    cases hStart
  · rintro rfl
    cases hStart

end

end Toml

end Highlighter

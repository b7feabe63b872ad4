import Highlighter.Text.Digit
import Highlighter.Text.Numeral

/-
  Numbers in decimal: they are made of digits, these start
  with a zero for zero alone, and they are read as the
  number.

  Main statements:
    * `Text.isAsciiDigit_of_mem_decimal`
    * `Text.ofDigitChars_decimal`
    * `Text.decimal_cons`
-/

namespace Highlighter

namespace Text

theorem isAsciiDigit_of_mem_decimal
    {n : Nat}
    {c : Char}
    (h : c ∈ decimal n) : isAsciiDigit c = true :=
  Nat.isDigit_of_mem_toDigits (by decide) (by decide) h

theorem decimal_ne_nil (n : Nat) : decimal n ≠ [] :=
  Nat.toDigits_ne_nil

theorem ofDigitChars_decimal (n : Nat) :
    Nat.ofDigitChars 10 (decimal n) 0 = n :=
  Nat.ofDigitChars_ten_toDigits

/- The value of a digit is its distance from zero. -/
theorem hexDigit?_of_isAsciiDigit
    {c : Char}
    (h : isAsciiDigit c = true) :
    hexDigit? c = some (c.toNat - '0'.toNat) := by
  simp only [isAsciiDigit, Bool.and_eq_true,
    decide_eq_true_eq] at h
  rw [hexDigit?, if_pos h]

/- A number other than zero does not start with a zero. -/
theorem decimal_head
    {n : Nat}
    (hn : 0 < n) : (decimal n).head? ≠ some '0' := by
  have hDigit :
      ∀ d < 10, 0 < d → Nat.digitChar d ≠ '0' := by decide
  unfold decimal
  induction n using Nat.strongRecOn with
  | ind n ih =>
      rw [Nat.toDigits_eq_if (by decide)]
      split
      · rename_i hSmall
        simpa using hDigit n hSmall hn
      · rename_i hLarge
        have hHead := ih (n / 10) (by omega) (by omega)
        rcases List.exists_cons_of_ne_nil
          (decimal_ne_nil (n / 10)) with ⟨c, digits, hText⟩
        rw [decimal] at hText
        rw [hText] at hHead ⊢
        exact hHead

theorem decimal_cons (n : Nat) :
    ∃ c digits, decimal n = c :: digits ∧
      isAsciiDigit c = true ∧ (c = '0' → digits = []) := by
  rcases List.exists_cons_of_ne_nil (decimal_ne_nil n) with
    ⟨c, digits, hText⟩
  refine ⟨c, digits, hText, ?_, ?_⟩
  · apply isAsciiDigit_of_mem_decimal (n := n)
    rw [hText]
    exact List.mem_cons_self ..
  · rintro rfl
    rcases Nat.eq_zero_or_pos n with rfl | hn
    · exact (List.cons.inj hText).2.symm
    · exact absurd (by rw [hText]; rfl) (decimal_head hn)

end Text

end Highlighter

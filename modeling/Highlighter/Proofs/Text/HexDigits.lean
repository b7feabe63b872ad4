import Highlighter.Text.Numeral

/-
  Hexadecimal digits of either case and their values.

  Key definitions include:
    * `Text.hexDigits`

  Main statements:
    * `Text.forall_of_all`
    * `Text.isSome_hexDigit?_iff`: only these characters
      have a value.
    * `Text.lowerDigit_of_hexDigit?`: a value is written
      with the digit that it was read from, in lower case.
-/

namespace Highlighter

namespace Text

/- The hexadecimal digits. -/
def hexDigits : Text := "0123456789abcdefABCDEF".toList

/-
  What all characters of a text have in common can be tried
  out. This names the text, as the characters altogether are
  too many to try.
-/
theorem forall_of_all
    {P : Char → Prop}
    [DecidablePred P]
    {s : Text}
    (h : s.all (fun c => decide (P c)) = true) :
    ∀ c ∈ s, P c :=
  fun c hc => of_decide_eq_true (List.all_eq_true.mp h c hc)

/- The characters that ASCII has. -/
def asciiChars : Text := (List.range 128).map Char.ofNat

theorem mem_asciiChars {c : Char} (h : c.toNat < 128) :
    c ∈ asciiChars :=
  List.mem_map.mpr
    ⟨c.toNat, List.mem_range.mpr h, Char.ofNat_toNat c⟩

/- A character up to another one of ASCII is of ASCII. -/
theorem mem_asciiChars_of_le
    {c d : Char}
    (hLe : c ≤ d)
    (hd : d.toNat < 128) : c ∈ asciiChars := by
  have hNat : c.toNat ≤ d.toNat :=
    UInt32.le_iff_toNat_le.mp (Char.le_def.mp hLe)
  exact mem_asciiChars (Nat.lt_of_le_of_lt hNat hd)

/- A character with a value is of ASCII. -/
theorem mem_asciiChars_of_hexDigit?
    {c : Char}
    {n : Nat}
    (h : hexDigit? c = some n) : c ∈ asciiChars := by
  unfold hexDigit? at h
  split at h
  · rename_i hDigit
    exact mem_asciiChars_of_le hDigit.2 (by decide)
  · split at h
    · rename_i hLower
      exact mem_asciiChars_of_le hLower.2 (by decide)
    · split at h
      · rename_i hUpper
        exact mem_asciiChars_of_le hUpper.2 (by decide)
      · cases h

/- Only the hexadecimal digits have a value. -/
theorem isSome_hexDigit?_iff {c : Char} :
    (hexDigit? c).isSome = true ↔ c ∈ hexDigits := by
  constructor
  · intro h
    have hAll : ∀ c ∈ asciiChars,
        (hexDigit? c).isSome = true → c ∈ hexDigits :=
      forall_of_all (by decide +kernel)
    rcases Option.isSome_iff_exists.mp h with ⟨n, hn⟩
    exact hAll c (mem_asciiChars_of_hexDigit? hn) h
  · intro h
    have hAll : ∀ c ∈ hexDigits,
        (hexDigit? c).isSome = true :=
      forall_of_all (by decide)
    exact hAll c h

/-
  The value of a digit is less than sixteen, and is written
  with the digit itself in lower case.
-/
theorem lowerDigit_of_hexDigit?
    {c : Char}
    {n : Nat}
    (h : hexDigit? c = some n) :
    n < 16 ∧ lowerDigit n = c.toLower := by
  have hAll : ∀ c ∈ hexDigits,
      (hexDigit? c).getD 0 < 16 ∧
        lowerDigit ((hexDigit? c).getD 0) = c.toLower :=
    forall_of_all (by decide +kernel)
  have hMem : c ∈ hexDigits := by
    rw [← isSome_hexDigit?_iff, h]
    rfl
  simpa only [h, Option.getD_some] using hAll c hMem

/- Each value below sixteen has a digit. -/
theorem hexDigit?_lowerDigit {n : Nat} (h : n < 16) :
    hexDigit? (lowerDigit n) = some n := by
  have hAll : ∀ n < 16,
      hexDigit? (lowerDigit n) = some n := by
    decide
  exact hAll n h

end Text

end Highlighter

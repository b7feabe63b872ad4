import Highlighter.Color
import Highlighter.Proofs.Text.HexDigits
import Mathlib.Data.List.Basic

/-
  Which texts stand for colours, and how those colours are
  written. A colour has three or six hexadecimal digits, and
  each of the three pairs of six may begin with a plus sign,
  which reads as a zero.

  Key definitions include:
    * `Color.HexForm`
    * `Color.sixDigits`
    * `Color.unsigned`

  Main statements:
    * `Color.isSome_ofHex?_iff`
    * `Color.toHex_of_ofHex?`
    * `Color.hex_round_trip`
-/

namespace Highlighter

namespace Color

------------------------------------------------------------
-- Forms
------------------------------------------------------------

/- A number sign and three or six hexadecimal digits. -/
structure HexForm (s : Text) : Prop where
  head : s.head? = some '#'
  length : s.length = 4 ∨ s.length = 7
  digits : ∀ c ∈ s.tail, c ∈ Text.hexDigits

instance (s : Text) : Decidable (HexForm s) :=
  decidable_of_iff
    (s.head? = some '#' ∧ (s.length = 4 ∨ s.length = 7) ∧
      s.tail ⊆ Text.hexDigits)
    ⟨fun h => ⟨h.1, h.2.1, fun _ hc => h.2.2 hc⟩,
      fun h => ⟨h.head, h.length, fun c hc => h.digits c hc⟩⟩

/-
  A form with six digits in lower case, each digit of the
  short form being doubled.
-/
def sixDigits (s : Text) : Text :=
  let digits :=
    if s.length = 4 then s.tail.flatMap fun c => [c, c]
    else s.tail
  '#' :: digits.map Char.toLower

/- A plus sign as a zero. -/
def unsign (c : Char) : Char := if c = '+' then '0' else c

/- A long form without the plus signs of its pairs. -/
def unsigned : Text → Text
  | [sign, r₁, r₂, g₁, g₂, b₁, b₂] =>
      [sign, unsign r₁, r₂, unsign g₁, g₂, unsign b₁, b₂]
  | s => s

theorem unsign_of_ne {c : Char} (h : c ≠ '+') :
    unsign c = c :=
  if_neg h

/- A digit is no plus sign. -/
theorem unsign_of_mem {c : Char} (h : c ∈ Text.hexDigits) :
    unsign c = c := by
  apply unsign_of_ne
  rintro rfl
  exact absurd h (by decide)

/- A text without plus signs stays as it is. -/
theorem unsigned_of_notMem {s : Text} (h : '+' ∉ s) :
    unsigned s = s := by
  have hSame : ∀ c ∈ s, unsign c = c := by
    intro c hc
    apply unsign_of_ne
    rintro rfl
    exact h hc
  unfold unsigned
  split
  · rw [hSame _ (by simp), hSame _ (by simp),
      hSame _ (by simp)]
  · rfl

------------------------------------------------------------
-- Parts
------------------------------------------------------------

/- A pair is read by its digits. -/
theorem part?_eq (high low : Char) :
    part? high low =
      (Text.hexDigit? (unsign high)).bind fun h =>
        (Text.hexDigit? low).map fun l =>
          UInt8.ofNat (16 * h + l) := by
  have hZero : Text.hexDigit? '0' = some 0 := by decide
  unfold part? unsign
  by_cases hSign : high = '+'
  · simp only [hSign, if_true, hZero, Option.bind_some]
    cases Text.hexDigit? low <;> simp
  · simp only [if_neg hSign]
    cases Text.hexDigit? low <;>
      cases Text.hexDigit? high <;> rfl

/- One digit is read like two of it. -/
theorem shortPart?_eq (c : Char) :
    shortPart? c = part? c c := by
  have hSign : Text.hexDigit? '+' = none := by decide
  rw [shortPart?, part?_eq]
  by_cases hc : c = '+'
  · rw [hc, hSign]
    cases Text.hexDigit? (unsign '+') <;> rfl
  · rw [unsign_of_ne hc]
    cases Text.hexDigit? c with
    | none => rfl
    | some v =>
        show some (UInt8.ofNat (17 * v)) =
          some (UInt8.ofNat (16 * v + v))
        congr 2
        omega

theorem isSome_part?_iff {high low : Char} :
    (part? high low).isSome = true ↔
      unsign high ∈ Text.hexDigits ∧
        low ∈ Text.hexDigits := by
  rw [part?_eq, ← Text.isSome_hexDigit?_iff,
    ← Text.isSome_hexDigit?_iff]
  cases Text.hexDigit? (unsign high) <;>
    cases Text.hexDigit? low <;> simp

/- A part is written with two digits. -/
theorem partText_ofNat {h l : Nat} (hh : h < 16) (hl : l < 16) :
    partText (UInt8.ofNat (16 * h + l)) =
      [Text.lowerDigit h, Text.lowerDigit l] := by
  have hNat : (UInt8.ofNat (16 * h + l)).toNat = 16 * h + l :=
    UInt8.toNat_ofNat_of_lt' (by
      show 16 * h + l < 256
      omega)
  have hHigh : (16 * h + l) / 16 % 16 = h := by omega
  have hLow : (16 * h + l) % 16 = l := by omega
  simp only [partText, hNat, Text.paddedHex, hHigh, hLow,
    List.nil_append, List.singleton_append]

/- It is written like the pair it was read from. -/
theorem partText_of_part?
    {high low : Char}
    {v : UInt8}
    (h : part? high low = some v) :
    partText v = [(unsign high).toLower, low.toLower] := by
  rw [part?_eq, Option.bind_eq_some_iff] at h
  rcases h with ⟨x, hx, hLow⟩
  rcases Option.map_eq_some_iff.mp hLow with ⟨y, hy, rfl⟩
  rcases Text.lowerDigit_of_hexDigit? hx with ⟨hLtx, hTextx⟩
  rcases Text.lowerDigit_of_hexDigit? hy with ⟨hLty, hTexty⟩
  rw [partText_ofNat hLtx hLty, hTextx, hTexty]

/- A part is read back from what it is written as. -/
theorem part?_partText (v : UInt8) :
    ∃ high low, partText v = [high, low] ∧
      part? high low = some v := by
  have hLt : v.toNat < 256 := v.toNat_lt
  have hHigh : v.toNat / 16 < 16 := by omega
  have hLow : v.toNat % 16 < 16 := by omega
  have hValue :
      UInt8.ofNat (16 * (v.toNat / 16) + v.toNat % 16) = v := by
    rw [Nat.div_add_mod, UInt8.ofNat_toNat]
  have hSign : ∀ n < 16, Text.lowerDigit n ≠ '+' := by decide
  refine ⟨_, _, hValue ▸ partText_ofNat hHigh hLow, ?_⟩
  rw [part?_eq, unsign_of_ne (hSign _ hHigh),
    Text.hexDigit?_lowerDigit hHigh,
    Text.hexDigit?_lowerDigit hLow, Option.bind_some,
    Option.map_some, hValue]

------------------------------------------------------------
-- Colours
------------------------------------------------------------

/- A short form is read like the long one of its doubles. -/
theorem ofHex?_short (r g b : Char) :
    ofHex? ['#', r, g, b] = ofHex? ['#', r, r, g, g, b, b] := by
  simp only [ofHex?, shortPart?_eq]

theorem ofHex?_long (r₁ r₂ g₁ g₂ b₁ b₂ : Char) :
    ofHex? ['#', r₁, r₂, g₁, g₂, b₁, b₂] =
      (part? r₁ r₂).bind fun r =>
        (part? g₁ g₂).bind fun g =>
          (part? b₁ b₂).map fun b => ⟨r, g, b⟩ := by
  simp only [ofHex?, Option.bind_eq_bind]
  cases part? r₁ r₂ <;> cases part? g₁ g₂ <;>
    cases part? b₁ b₂ <;> rfl

/- The long form and the short form of a colour. -/
def IsLong (s : Text) : Prop :=
  ∃ r₁ r₂ g₁ g₂ b₁ b₂, s = ['#', r₁, r₂, g₁, g₂, b₁, b₂]

def IsShort (s : Text) : Prop :=
  ∃ r g b, s = ['#', r, g, b]

/- A text that stands for a colour has one of the two. -/
theorem form_of_isSome
    {s : Text}
    (h : (ofHex? s).isSome = true) :
    IsLong s ∨ IsShort s := by
  unfold ofHex? at h
  split at h
  · exact Or.inl ⟨_, _, _, _, _, _, rfl⟩
  · exact Or.inr ⟨_, _, _, rfl⟩
  · cases h

theorem HexForm.form
    {s : Text}
    (h : HexForm s) : IsLong s ∨ IsShort s := by
  rcases List.head?_eq_some_iff.mp h.head with ⟨digits, rfl⟩
  rcases h.length with hShort | hLong
  · rcases List.length_eq_three.mp (Nat.succ.inj hShort) with
      ⟨r, g, b, rfl⟩
    exact Or.inr ⟨r, g, b, rfl⟩
  · have hSix : digits.length = 6 := Nat.succ.inj hLong
    have hFirst : (digits.take 3).length = 3 := by
      rw [List.length_take, hSix]
      rfl
    have hThen : (digits.drop 3).length = 3 := by
      rw [List.length_drop, hSix]
    rcases List.length_eq_three.mp hFirst with
      ⟨r₁, r₂, g₁, hTake⟩
    rcases List.length_eq_three.mp hThen with
      ⟨g₂, b₁, b₂, hDrop⟩
    left
    refine ⟨r₁, r₂, g₁, g₂, b₁, b₂, ?_⟩
    rw [← List.take_append_drop 3 digits, hTake, hDrop]
    rfl

/- So does one that without its signs is a form. -/
theorem form_of_unsigned
    {s : Text}
    (h : HexForm (unsigned s)) : IsLong s ∨ IsShort s := by
  unfold unsigned at h
  split at h
  · cases Option.some.inj h.head
    exact Or.inl ⟨_, _, _, _, _, _, rfl⟩
  · exact h.form

theorem isSome_ofHex?_long
    {r₁ r₂ g₁ g₂ b₁ b₂ : Char} :
    (ofHex? ['#', r₁, r₂, g₁, g₂, b₁, b₂]).isSome = true ↔
      HexForm
        ['#', unsign r₁, r₂, unsign g₁, g₂, unsign b₁, b₂] := by
  have hParts :
      (ofHex? ['#', r₁, r₂, g₁, g₂, b₁, b₂]).isSome = true ↔
        (part? r₁ r₂).isSome = true ∧
          (part? g₁ g₂).isSome = true ∧
            (part? b₁ b₂).isSome = true := by
    rw [ofHex?_long]
    cases part? r₁ r₂ <;> cases part? g₁ g₂ <;>
      cases part? b₁ b₂ <;> simp
  rw [hParts, isSome_part?_iff, isSome_part?_iff,
    isSome_part?_iff]
  constructor
  · rintro ⟨⟨hr₁, hr₂⟩, ⟨hg₁, hg₂⟩, hb₁, hb₂⟩
    refine ⟨rfl, Or.inr rfl, ?_⟩
    simp [hr₁, hr₂, hg₁, hg₂, hb₁, hb₂]
  · intro h
    simpa [and_assoc] using h.digits

/- A form may be doubled. -/
theorem hexForm_doubled {r g b : Char} :
    HexForm ['#', unsign r, r, unsign g, g, unsign b, b] ↔
      HexForm ['#', r, g, b] := by
  constructor
  · intro h
    refine ⟨rfl, Or.inl rfl, ?_⟩
    simpa using ⟨h.digits r (by simp), h.digits g (by simp),
      h.digits b (by simp)⟩
  · intro h
    have hr := h.digits r (by simp)
    have hg := h.digits g (by simp)
    have hb := h.digits b (by simp)
    rw [unsign_of_mem hr, unsign_of_mem hg, unsign_of_mem hb]
    refine ⟨rfl, Or.inr rfl, ?_⟩
    simp [hr, hg, hb]

/-
  A text stands for a colour just if it is a form when the
  plus signs of its pairs are taken for zeros.
-/
theorem isSome_ofHex?_iff (s : Text) :
    (ofHex? s).isSome = true ↔ HexForm (unsigned s) := by
  have hLong : IsLong s →
      ((ofHex? s).isSome = true ↔ HexForm (unsigned s)) := by
    rintro ⟨r₁, r₂, g₁, g₂, b₁, b₂, rfl⟩
    exact isSome_ofHex?_long
  have hShort : IsShort s →
      ((ofHex? s).isSome = true ↔ HexForm (unsigned s)) := by
    rintro ⟨r, g, b, rfl⟩
    rw [ofHex?_short, isSome_ofHex?_long]
    exact hexForm_doubled
  constructor
  · intro h
    rcases form_of_isSome h with hForm | hForm
    · exact (hLong hForm).mp h
    · exact (hShort hForm).mp h
  · intro h
    rcases form_of_unsigned h with hForm | hForm
    · exact (hLong hForm).mpr h
    · exact (hShort hForm).mpr h

theorem toHex_of_long
    {r₁ r₂ g₁ g₂ b₁ b₂ : Char}
    {c : Color}
    (h : ofHex? ['#', r₁, r₂, g₁, g₂, b₁, b₂] = some c) :
    c.toHex =
      sixDigits
        ['#', unsign r₁, r₂, unsign g₁, g₂, unsign b₁, b₂] := by
  simp only [ofHex?_long, Option.bind_eq_some_iff,
    Option.map_eq_some_iff] at h
  rcases h with ⟨r, hr, g, hg, b, hb, rfl⟩
  rw [toHex, partText_of_part? hr, partText_of_part? hg,
    partText_of_part? hb]
  rfl

/- A colour is written like the form that it was read from. -/
theorem toHex_of_ofHex?
    {s : Text}
    {c : Color}
    (h : ofHex? s = some c) :
    c.toHex = sixDigits (unsigned s) := by
  have hSome : (ofHex? s).isSome = true := by
    rw [h]
    rfl
  have hForm := (isSome_ofHex?_iff s).mp hSome
  rcases form_of_isSome hSome with
    ⟨r₁, r₂, g₁, g₂, b₁, b₂, rfl⟩ | ⟨r, g, b, rfl⟩
  · exact toHex_of_long h
  · have hDigits : ∀ d ∈ [r, g, b], unsign d = d :=
      fun d hd => unsign_of_mem (hForm.digits d hd)
    rw [ofHex?_short] at h
    rw [toHex_of_long h, hDigits r (by simp),
      hDigits g (by simp), hDigits b (by simp)]
    rfl

/- Every colour is read back from what it is written as. -/
theorem hex_round_trip (c : Color) :
    ofHex? c.toHex = some c := by
  rcases part?_partText c.r with ⟨r₁, r₂, hTextr, hr⟩
  rcases part?_partText c.g with ⟨g₁, g₂, hTextg, hg⟩
  rcases part?_partText c.b with ⟨b₁, b₂, hTextb, hb⟩
  have hLong :
      c.toHex = ['#', r₁, r₂, g₁, g₂, b₁, b₂] := by
    rw [toHex, hTextr, hTextg, hTextb]
    rfl
  rw [hLong, ofHex?_long, hr, hg, hb]
  rfl

/-
  A text without plus signs stands for a colour just if it
  is a form, and then the colour is written with the digits
  of the form in lower case, doubled if there are three. A
  plus sign may begin each of the three pairs of a long
  form, where it reads as a zero, and stands nowhere else.
  Every colour is read back from what it is written as.
-/
theorem hex_forms (s : Text) (c : Color) :
    ('+' ∉ s →
      ((ofHex? s).isSome = true ↔ HexForm s) ∧
        (ofHex? s = some c → c.toHex = sixDigits s)) ∧
    ((ofHex? s).isSome = true ↔ HexForm (unsigned s)) ∧
    (ofHex? s = some c →
      c.toHex = sixDigits (unsigned s)) ∧
    ofHex? c.toHex = some c := by
  refine ⟨fun hs => ?_, isSome_ofHex?_iff s, toHex_of_ofHex?,
    hex_round_trip c⟩
  have hSame := unsigned_of_notMem hs
  refine ⟨?_, fun hc => ?_⟩
  · rw [isSome_ofHex?_iff, hSame]
  · rw [toHex_of_ofHex? hc, hSame]

theorem hex_forms_short :
    '+' ∉ "#F0a".toList ∧
      (ofHex? "#F0a".toList).isSome = true ∧
      ofHex? "#F0a".toList = some ⟨255, 0, 170⟩ ∧
      toHex ⟨255, 0, 170⟩ = "#ff00aa".toList := by
  have hPlain : '+' ∉ "#F0a".toList := by decide
  have hColor : ofHex? "#F0a".toList = some ⟨255, 0, 170⟩ := by
    decide
  have hForms :=
    (hex_forms "#F0a".toList ⟨255, 0, 170⟩).1 hPlain
  exact ⟨hPlain, hForms.1.mpr (by decide), hColor,
    hForms.2 hColor⟩

/-
  So not only forms stand for colours: with plus signs there
  are others.
-/
theorem signed_pairs_accepted :
    ¬ ∀ s : Text, (ofHex? s).isSome = true ↔ HexForm s := by
  intro hForms
  have hSigned := hForms "#+1+2+3".toList
  exact absurd (hSigned.mp (by decide)) (by decide)

end Color

end Highlighter

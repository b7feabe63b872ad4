import Highlighter.Proofs.Qhantoom.SingleTokens

/-
  Numbers: what they look like, and that the scan takes the
  longest one that a line goes on with. A search takes the
  first way to match and not the longest, so this rests on
  how the forms of numbers keep apart.

  Key definitions include:
    * `Qhantoom.Numeral.decimal`
    * `Qhantoom.Numeral.float`
    * `Qhantoom.Numeral.integer`
    * `Qhantoom.Numeral.number`

  Main statements:
    * `Qhantoom.munches_number`
    * `Qhantoom.numbers_longest`
-/

namespace Highlighter

namespace Qhantoom

open Regex RuleTable Text

------------------------------------------------------------
-- Forms of numbers
------------------------------------------------------------

namespace Numeral

/- A digit, and then digits and underscores. -/
def decimal : Language Char :=
  charOf "0123456789" * runOf "0123456789_"

/- A power of ten. -/
def exponent : Language Char :=
  charOf "Ee" * ((charOf "+-" + 1) * someOf "0123456789_")

/- Decimals after a point, with or without an exponent. -/
def fraction : Language Char :=
  charOf "." * (someOf "0123456789_" * (exponent + 1))

/- The types of floating-point numbers. -/
def floatTypes : List String := ["f32", "f64"]

/- What makes a number a floating-point one. -/
def scale : Language Char :=
  (exponent + fraction) * (wordOf floatTypes + 1)

/- Floating-point numbers. -/
def float : Language Char := decimal * scale

/- A letter for base two, eight or sixteen and the digits. -/
def base : Language Char :=
  charOf "b" * someOf "01_" +
    (charOf "o" * someOf "01234567_" +
      charOf "x" * someOf "0123456789abcdefABCDEF_")

/- Numbers in those bases. -/
def based : Language Char := charOf "0" * base

/- The types of integers. -/
def integerTypes : List String :=
  ["u8", "u16", "u32", "u64", "s8", "s16", "s32", "s64",
    "sint", "uint"]

/- Integers. -/
def integer : Language Char :=
  (based + decimal) * (wordOf integerTypes + 1)

/- Numbers. -/
def number : Language Char := float + integer

end Numeral

open Numeral

------------------------------------------------------------
-- Parts of numbers
------------------------------------------------------------

/- The expression for the decimals after a point. -/
def fractionExpr : Regex :=
  concat
    [char '.', some1 (set digitOrGap), optional exponentExpr]

/- The one for a letter and the digits of its base. -/
def baseExpr : Regex :=
  oneOf
    [concat [char 'b', some1 (set (anyOf "01_"))],
      bracketed
        [char 'o',
          some1 (set (CharSet.unions
            [CharSet.range '0' '7', CharSet.single '_']))],
      bracketed
        [char 'x',
          some1 (set (CharSet.unions
            [CharSet.asciiDigit, CharSet.range 'a' 'f',
              CharSet.range 'A' 'F', CharSet.single '_']))]]

/- The one for a type at the end of a number or none. -/
def typeExpr (types : List String) : Regex :=
  optional (group none (anyWord types))

theorem spells_asciiDigit :
    Spells CharSet.asciiDigit "0123456789" :=
  spells_of_ascii (by decide) (by decide) (by decide +kernel)

theorem spells_digitOrGap :
    Spells digitOrGap "0123456789_" :=
  spells_of_ascii (by decide) (by decide) (by decide +kernel)

theorem munches_decimal : Munches digitsExpr decimal :=
  ((Munches.set spells_asciiDigit).cat
    (Munches.many spells_digitOrGap) (apart_charOf _ _)).group

theorem munches_exponent :
    Munches exponentExpr exponent := by
  have hSign : Munches (optional (set (anyOf "+-")))
      (charOf "+-" + 1) := by
    apply munches_optional _ rfl
    apply Munches.set
    exact spells_of_ascii (by decide) (by decide)
      (by decide +kernel)
  have hLetter : Spells (anyOf "Ee") "Ee" :=
    spells_of_ascii (by decide) (by decide)
      (by decide +kernel)
  have hApart : Apart (charOf "+-" + 1)
      (someOf "0123456789_") :=
    apart_of_within
      ((within_charOf (List.Subset.refl _)).add
        (within_one "+-"))
      ((begins_charOf (List.Subset.refl _)).mul _).opens
      (by decide)
  exact ((Munches.set hLetter).cat
    (hSign.cat (munches_some1 spells_digitOrGap) hApart)
    (apart_charOf _ _)).group

theorem begins_exponent : Begins exponent "Ee" :=
  (begins_charOf (List.Subset.refl _)).mul _

theorem begins_fraction : Begins fraction "." :=
  (begins_charOf (List.Subset.refl _)).mul _

theorem munches_fraction :
    Munches fractionExpr fraction := by
  have hPoint : Spells (CharSet.single '.') "." :=
    spells_single (by decide)
  have hApart :
      Apart (someOf "0123456789_") (exponent + 1) :=
    apart_of_within (within_someOf (List.Subset.refl _))
      (begins_exponent.opens.add (opens_one "Ee")) (by decide)
  exact (Munches.set hPoint).cat
    ((munches_some1 spells_digitOrGap).cat
      (munches_optional munches_exponent rfl) hApart)
    (apart_charOf _ _)

theorem munches_type
    {types : List String}
    (hNe : types ≠ [])
    (hOrder : types.Pairwise fun v w =>
      ¬ v.toList <+: w.toList)
    (hReads :
      (group none (anyWord types)).readsNothing = false) :
    Munches (typeExpr types) (wordOf types + 1) :=
  munches_optional (Munches.words hNe hOrder).group hReads

------------------------------------------------------------
-- Kinds of numbers
------------------------------------------------------------

theorem within_decimal : Within decimal "0123456789_" := by
  rw [Numeral.decimal]
  exact (within_charOf (by decide)).mul
    (within_runOf (List.Subset.refl _))

theorem begins_scale : Begins scale "Ee." :=
  ((begins_exponent.mono (by decide)).add
    (begins_fraction.mono (by decide))).mul _

theorem munches_scale :
    Munches
      (cat (oneOf [exponentExpr, fractionExpr])
        (typeExpr floatTypes))
      scale := by
  have hCovers : Covers exponent fraction :=
    covers_of_begins begins_exponent begins_fraction.opens
      (by decide)
  have hBoth : Within (exponent + fraction)
      "0123456789_Ee+-." := by
    have hExponent : Within exponent "0123456789_Ee+-." :=
      (within_charOf (by decide)).mul
        (((within_charOf (by decide)).add (within_one _)).mul
          (within_someOf (by decide)))
    exact hExponent.add
      ((within_charOf (by decide)).mul
        ((within_someOf (by decide)).mul
          (hExponent.add (within_one _))))
  have hApart : Apart (exponent + fraction)
      (wordOf floatTypes + 1) :=
    apart_of_within hBoth
      ((opens_wordOf (by decide)).add (opens_one "f"))
      (by decide)
  have hScale :=
    (munches_exponent.alt munches_fraction hCovers).group
  exact hScale.cat
    (munches_type (by decide) (by decide) rfl) hApart

theorem munches_float :
    Munches
      (bracketed
        [digitsExpr, oneOf [exponentExpr, fractionExpr],
          typeExpr floatTypes])
      float :=
  (munches_decimal.cat munches_scale
    (apart_of_within within_decimal begins_scale.opens
      (by decide))).group

theorem begins_base : Begins base "box" := by
  rw [base]
  exact ((begins_charOf (by decide)).mul _).add
    (((begins_charOf (by decide)).mul _).add
      ((begins_charOf (by decide)).mul _))

/- A letter for the base and at least one digit. -/
theorem munches_lettered
    {c : Char}
    {letter text : String}
    {digits : CharSet}
    (hLetter : letter.toList = [c])
    (hDigits : Spells digits text) :
    Munches (concat [char c, some1 (set digits)])
      (charOf letter * someOf text) :=
  (Munches.set (spells_single hLetter)).cat
    (munches_some1 hDigits) (apart_charOf _ _)

theorem munches_base : Munches baseExpr base := by
  have hTwo :
      Munches (concat [char 'b', some1 (set (anyOf "01_"))])
        (charOf "b" * someOf "01_") :=
    munches_lettered (by decide)
      (spells_of_ascii (by decide) (by decide)
        (by decide +kernel))
  have hEight :
      Munches
        (concat
          [char 'o',
            some1 (set (CharSet.unions
              [CharSet.range '0' '7', CharSet.single '_']))])
        (charOf "o" * someOf "01234567_") :=
    munches_lettered (by decide)
      (spells_of_ascii (by decide) (by decide)
        (by decide +kernel))
  have hSixteen :
      Munches
        (concat
          [char 'x',
            some1 (set (CharSet.unions
              [CharSet.asciiDigit, CharSet.range 'a' 'f',
                CharSet.range 'A' 'F',
                CharSet.single '_']))])
        (charOf "x" * someOf "0123456789abcdefABCDEF_") :=
    munches_lettered (by decide)
      (spells_of_ascii (by decide) (by decide)
        (by decide +kernel))
  -- the letters are different
  have hFirst : ∀ (letter : String) (L : Language Char),
      Begins (charOf letter * L) letter :=
    fun letter L => (begins_charOf (List.Subset.refl _)).mul L
  have hLast := hEight.group.alt hSixteen.group
    (covers_of_begins (hFirst "o" _) (hFirst "x" _).opens
      (by decide))
  have hOthers :
      Begins
        (charOf "o" * someOf "01234567_" +
          charOf "x" * someOf "0123456789abcdefABCDEF_")
        "ox" :=
    ((hFirst "o" _).mono (by decide)).add
      ((hFirst "x" _).mono (by decide))
  exact (hTwo.alt hLast
    (covers_of_begins (hFirst "b" _) hOthers.opens
      (by decide))).group

/- The branch of an integer for the other bases. -/
theorem munches_based :
    Munches (concat [char '0', baseExpr]) based :=
  (Munches.set (spells_single (by decide))).cat munches_base
    (apart_charOf _ _)

/- A letter for a base is not among the digits. -/
theorem covers_based_decimal : Covers based decimal :=
  (covers_of_begins begins_base
    (opens_runOf (List.Subset.refl _)) (by decide)).charOf_mul
      _ _

theorem within_based :
    Within based "0123456789abcdefABCDEFox_" := by
  rw [based, base]
  apply (within_charOf (by decide)).mul
  apply Within.add
  · exact (within_charOf (by decide)).mul
      (within_someOf (by decide))
  · exact ((within_charOf (by decide)).mul
      (within_someOf (by decide))).add
        ((within_charOf (by decide)).mul
          (within_someOf (by decide)))

theorem munches_integer :
    Munches
      (cat (oneOf [concat [char '0', baseExpr], digitsExpr])
        (typeExpr integerTypes))
      integer := by
  have hFirst :=
    (munches_based.alt munches_decimal
      covers_based_decimal).group
  apply hFirst.cat
    (munches_type (by decide) (by decide) rfl)
  have hDecimal :
      Within decimal "0123456789abcdefABCDEFox_" :=
    (within_charOf (by decide)).mul
      (within_runOf (by decide))
  exact apart_of_within (within_based.add hDecimal)
    ((opens_wordOf (by decide)).add (opens_one "us"))
    (by decide)

/-
  A floating-point number covers an integer. A letter for a
  base is not where the digits of the other go on or end, and
  the digits and the type have no letter for an exponent and
  no point.
-/
theorem covers_float_integer : Covers float integer := by
  rw [integer, add_mul]
  apply Covers.add
  · rw [float, based, Numeral.decimal, mul_assoc, mul_assoc]
    have hScale : Begins (runOf "0123456789_" * scale)
        "0123456789_Ee." :=
      (begins_scale.mono (by decide)).after
        (opens_runOf (by decide))
    exact (covers_of_begins hScale
      (begins_base.mul _).opens (by decide)).charOf_mul _ _
  · have hDecimal :
        Within (Numeral.decimal * (wordOf integerTypes + 1))
          "0123456789_usint" := by
      rw [Numeral.decimal]
      apply Within.mul
      · exact (within_charOf (by decide)).mul
          (within_runOf (by decide))
      · exact (within_wordOf (by decide)).add (within_one _)
    exact covers_of_within begins_scale hDecimal (by decide)

theorem munches_number : Munches numberExpr number :=
  munches_float.alt munches_integer covers_float_integer

------------------------------------------------------------
-- The step at a number
------------------------------------------------------------

/- A digit is a number. -/
theorem singleton_mem_number
    {d : Char}
    (hDigit : Text.isAsciiDigit d = true) :
    [d] ∈ number := by
  have hChar : d ∈ "0123456789".toList :=
    (spells_asciiDigit d).mp hDigit
  refine Or.inr (Language.mem_mul.mpr ?_)
  refine ⟨[d], Or.inr (Language.mem_mul.mpr ?_), [],
    Or.inr Language.nil_mem_one, rfl⟩
  exact ⟨[d], ⟨d, hChar, rfl⟩, [], nil_mem_runOf _, rfl⟩

theorem numberRule_getElem? :
    compiledStart[5]? =
      some (labelling numberExpr Label.number) := by
  rfl

/- The rules before it begin otherwise. -/
theorem quote_rules_read_no_digit
    {d : Char}
    (hDigit : Text.isAsciiDigit d = true) :
    ∀ r ∈ compiledStart.take 5,
      r.pattern.readsFirst d = false := by
  have hAll : ∀ d ∈ "0123456789".toList,
      ∀ r ∈ compiledStart.take 5,
        r.pattern.readsFirst d = false :=
    forall_of_all (by decide +kernel)
  exact hAll d ((spells_asciiDigit d).mp hDigit)

/-
  At a digit in the start state the step takes the longest
  number that the line goes on with, as one token, and stays
  in the state.
-/
theorem numbers_longest
    {d : Char}
    (hDigit : Text.isAsciiDigit d = true)
    (before after : Text) :
    ∃ s rest, d :: after = s ++ rest ∧
      Longest number (Text.currentLine (d :: after)) s ∧
      table.step (before ++ d :: after)
          ⟨before.size, State.start⟩ =
        some (oneToken before.size Label.number s
          State.start rest) := by
  have hNoBreak : Text.isBreakChar d = false := by
    have hAll : ∀ d ∈ "0123456789".toList,
        Text.isBreakChar d = false :=
      forall_of_all (by decide)
    exact hAll d ((spells_asciiDigit d).mp hDigit)
  have hFree : Text.BreakFree [d] := by
    intro c hc
    rw [List.mem_singleton.mp hc]
    exact hNoBreak
  have hLine : Text.currentLine (d :: after) =
      d :: Text.currentLine after :=
    hFree.currentLine_append after
  have hBegins : [d] <+: Text.currentLine (d :: after) := by
    rw [hLine]
    exact ⟨_, rfl⟩
  rcases apply_of_munches munches_number (by decide)
      Label.number (singleton_mem_number hDigit)
      (List.cons_ne_nil d []) hBegins with
    ⟨s, hLongest, hApply⟩
  rcases hLongest.begins.trans (List.takeWhile_prefix _) with
    ⟨rest, hText⟩
  refine ⟨s, rest, hText.symm, hLongest, ?_⟩
  have hSkipped : ∀ r ∈ compiledStart.take 5,
      r.apply (Text.currentLine (d :: after)) = none := by
    intro r hr
    rw [hLine]
    exact Rule.apply_eq_none
      (quote_rules_read_no_digit hDigit r hr) _
  rw [← hText] at hApply hSkipped ⊢
  rw [step_append]
  exact stepOn_oneToken numberRule_getElem? rfl hSkipped
    hApply before.size

/- In base sixteen `e` is a digit and begins no exponent. -/
theorem numbers_longest_based :
    Text.isAsciiDigit '0' = true ∧
      ∃ s rest,
        ['0', 'x', '1', 'e', '+', '5'] = s ++ rest ∧
        Longest number
          (Text.currentLine ['0', 'x', '1', 'e', '+', '5'])
          s ∧
        table.step ['(', '0', 'x', '1', 'e', '+', '5']
            ⟨Text.size ['('], State.start⟩ =
          some (oneToken (Text.size ['(']) Label.number s
            State.start rest) := by
  have hDigit : Text.isAsciiDigit '0' = true := by decide
  exact ⟨hDigit,
    numbers_longest hDigit ['('] ['x', '1', 'e', '+', '5']⟩

end Qhantoom

end Highlighter

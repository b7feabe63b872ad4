import Highlighter.Proofs.Qhantoom.SingleTokens

/-
  Quoted characters and bytes, which are single tokens. The
  one exception is a quoted quote among the bytes: there the
  backslash counts as the character, and the token ends with
  the quote after it.

  Key definitions include:
    * `Qhantoom.Quoting`
    * `Qhantoom.Quoting.Escape`
    * `Qhantoom.Quoting.Literal`

  Main statements:
    * `Qhantoom.prefers_characterExpr`
    * `Qhantoom.prefers_byteExpr`
    * `Qhantoom.quoted_single_tokens`
-/

namespace Highlighter

namespace Qhantoom

open Regex RuleTable

------------------------------------------------------------
-- Literals
------------------------------------------------------------

/-
  How characters of a kind are quoted: what they begin with,
  the letters of the short escapes, and whether a character
  can be given by its number.
-/
structure Quoting where
  opening : Text
  letters : Text
  codePoints : Bool

/- Quoted characters. -/
def characters : Quoting where
  opening := ['\'']
  letters := "nrt0'\"".toList
  codePoints := true

/- Quoted bytes. -/
def bytes : Quoting where
  opening := ['b', '\'']
  letters := "'\\nrt0".toList
  codePoints := false

/- Some number of hexadecimal digits. -/
structure AreHex (n : Nat) (digits : Text) : Prop where
  length_eq : digits.length = n
  mem : ∀ c ∈ digits, c ∈ Text.hexDigits

/- What may follow a backslash in quotes. -/
inductive Quoting.Escape (q : Quoting) : Text → Prop
  | letter
      {c : Char}
      (hMem : c ∈ q.letters) : Escape q [c]
  | hex
      {digits : Text}
      (hHex : AreHex 2 digits) : Escape q ('x' :: digits)
  | codePoint
      (hPoints : q.codePoints = true)
      {digits : Text}
      (hHex : AreHex 6 digits) :
      Escape q
        ('u' :: Char.ofNat 0x7b ::
          (digits ++ [Char.ofNat 0x7d]))

/- One character in quotes, as it is or escaped. -/
inductive Quoting.Literal (q : Quoting) : Text → Prop
  | plain
      {c : Char}
      (hQuote : c ≠ '\'')
      (hSlash : c ≠ '\\')
      (hBreak : Text.isBreakChar c = false) :
      Literal q (q.opening ++ ([c] ++ ['\'']))
  | escaped
      {e : Text}
      (hEscape : q.Escape e) :
      Literal q (q.opening ++ ('\\' :: e ++ ['\'']))

/- A byte that is a quote. -/
def quotedQuote : Text := ['b', '\'', '\\', '\'', '\'']

------------------------------------------------------------
-- Line breaks
------------------------------------------------------------

theorem AreHex.breakFree
    {n : Nat}
    {digits : Text}
    (h : AreHex n digits) : digits.BreakFree := by
  have hAll : ∀ c ∈ Text.hexDigits,
      Text.isBreakChar c = false :=
    Text.forall_of_all (by decide)
  exact fun c hc => hAll c (h.mem c hc)

section

variable {q : Quoting}
variable {s : Text}

theorem Quoting.Escape.breakFree
    (hLetters : q.letters.BreakFree)
    (h : q.Escape s) : s.BreakFree := by
  cases h with
  | letter hMem =>
      intro d hd
      rw [List.mem_singleton.mp hd]
      exact hLetters _ hMem
  | hex hHex =>
      exact Text.BreakFree.append (s := ['x']) (by decide)
        hHex.breakFree
  | codePoint hPoints hHex =>
      exact Text.BreakFree.append
        (s := ['u', Char.ofNat 0x7b]) (by decide)
        (hHex.breakFree.append (by decide))

/- A literal is within a line. -/
theorem Quoting.Literal.breakFree
    (hOpening : q.opening.BreakFree)
    (hLetters : q.letters.BreakFree)
    (h : q.Literal s) : s.BreakFree := by
  cases h with
  | plain hQuote hSlash hBreak =>
      apply hOpening.append
      apply Text.BreakFree.append _ (by decide)
      intro d hd
      rw [List.mem_singleton.mp hd]
      exact hBreak
  | escaped hEscape =>
      apply hOpening.append
      apply Text.BreakFree.append _ (by decide)
      exact Text.BreakFree.append (s := ['\\']) (by decide)
        (hEscape.breakFree hLetters)

end

------------------------------------------------------------
-- Escapes
------------------------------------------------------------

theorem contains_hexDigit :
    ∀ c ∈ Text.hexDigits, hexDigit.contains c = true :=
  Text.forall_of_all (by decide)

theorem takes_exactly
    {n : Nat}
    (hn : 1 < n)
    {digits : Text}
    (h : AreHex n digits) :
    Takes (exactly n (set hexDigit)) digits := by
  have hExactly : exactly n (set hexDigit) =
      times n (some n) true (set hexDigit) := by
    have hZero : n ≠ 0 := by omega
    have hOne : n ≠ 1 := by omega
    simp [exactly, repeated, readsNothing, hZero, hOne]
  rw [hExactly, ← h.length_eq]
  exact takes_times fun c hc =>
    contains_hexDigit c (h.mem c hc)

/- A character by its two digits. -/
theorem takes_hex
    {digits : Text}
    (h : AreHex 2 digits) :
    Takes (concat [char 'x', exactly 2 (set hexDigit)])
      ('x' :: digits) :=
  (takes_char 'x').cat (takes_exactly (by decide) h)

/- A character by its number. -/
theorem takes_codePoint
    {digits : Text}
    (h : AreHex 6 digits) :
    Takes
      (concat
        [char 'u', char (Char.ofNat 0x7b),
          exactly 6 (set hexDigit), char (Char.ofNat 0x7d)])
      ('u' :: Char.ofNat 0x7b ::
        (digits ++ [Char.ofNat 0x7d])) :=
  (takes_char 'u').cat ((takes_char _).cat
    ((takes_exactly (by decide) h).cat (takes_char _)))

/- What follows a backslash in a quoted character. -/
theorem takes_characterEscape
    {e : Text}
    (h : characters.Escape e) :
    Takes
      (oneOf
        [set (anyOf "nrt0'\""),
          concat [char 'x', exactly 2 (set hexDigit)],
          concat
            [char 'u', char (Char.ofNat 0x7b),
              exactly 6 (set hexDigit),
              char (Char.ofNat 0x7d)]])
      e := by
  cases h with
  | @letter c hMem =>
      have hLetters : ∀ c ∈ characters.letters,
          (anyOf "nrt0'\"").contains c = true ∧
            c ≠ 'x' ∧ c ≠ 'u' :=
        Text.forall_of_all (by decide)
      rcases hLetters c hMem with ⟨hc, hHex, hPoint⟩
      exact ((takes_set hc).left
        (((misses_char hHex []).cat _).alt
          ((misses_char hPoint []).cat _))).group
  | hex hHex =>
      exact (Takes.right (misses_set (by decide) _)
        ((takes_hex hHex).left
          ((misses_char (by decide) _).cat _))).group
  | codePoint _ hHex =>
      exact (Takes.right (misses_set (by decide) _)
        (Takes.right ((misses_char (by decide) _).cat _)
          (takes_codePoint hHex))).group

/- What follows a backslash in a quoted byte. -/
theorem takes_byteEscape
    {e : Text}
    (h : bytes.Escape e) :
    Takes
      (oneOf
        [set (anyOf "'\\nrt0"),
          concat [char 'x', exactly 2 (set hexDigit)]])
      e := by
  cases h with
  | @letter c hMem =>
      have hLetters : ∀ c ∈ bytes.letters,
          (anyOf "'\\nrt0").contains c = true ∧ c ≠ 'x' :=
        Text.forall_of_all (by decide)
      rcases hLetters c hMem with ⟨hc, hHex⟩
      exact ((takes_set hc).left
        ((misses_char hHex []).cat _)).group
  | hex hHex =>
      exact (Takes.right (misses_set (by decide) _)
        (takes_hex hHex)).group
  | codePoint hPoints _ => cases hPoints

------------------------------------------------------------
-- Quotes
------------------------------------------------------------

/-
  A plain character or an escape before the closing quote.
  If a backslash counts as plain, the quote must not be next
  to it.
-/
theorem prefers_plain
    {plain : CharSet}
    {c : Char}
    (hc : plain.contains c = true)
    (escape : Regex) :
    Prefers (cat (oneOf [set plain, escape]) (char '\''))
      ([c] ++ ['\'']) :=
  Prefers.left ((takes_set hc).cat (takes_char '\'')).prefers
    escape

theorem prefers_escape
    {plain : CharSet}
    {escape : Regex}
    {e : Text}
    (hEscape : Takes escape e)
    (hNext : plain.contains '\\' = true →
      ∃ c s, e = c :: s ∧ c ≠ '\'') :
    Prefers
      (cat (oneOf [set plain, cat (char '\\') escape])
        (char '\''))
      ('\\' :: e ++ ['\'']) := by
  apply Prefers.right
  · cases hSlash : plain.contains '\\' with
    | false => exact (misses_set hSlash _).cat _
    | true =>
        rcases hNext hSlash with ⟨c, s, rfl, hc⟩
        exact (misses_char hc (s ++ ['\''])).after
          (takes_set hSlash)
  · exact (((takes_char '\\').cat hEscape).cat
      (takes_char '\'')).prefers

/- A quoted character is read as a whole. -/
theorem prefers_characterExpr
    {s : Text}
    (h : characters.Literal s) : Prefers characterExpr s := by
  cases h with
  | @plain c hQuote hSlash hBreak =>
      have hc : (CharSet.compl (anyOf "'\\")).contains c =
          true := by
        simp [anyOf, CharSet.unions, CharSet.contains,
          CharSet.contains_single, hQuote.symm, hSlash.symm]
      exact Prefers.cat (takes_char '\'') (prefers_plain hc _)
  | escaped hEscape =>
      apply Prefers.cat (takes_char '\'')
      apply prefers_escape (takes_characterEscape hEscape)
      intro hSlash
      cases hSlash

/- A quoted byte has a letter in front. -/
theorem prefers_afterOpening
    {a : Regex}
    {s : Text}
    (h : Prefers a s) :
    Prefers (cat (char 'b') (cat (char '\'') a))
      (bytes.opening ++ s) := by
  have hBoth := Prefers.cat (takes_char 'b')
    (Prefers.cat (takes_char '\'') h)
  exact hBoth

/- So it is read as a whole, but for the quote. -/
theorem prefers_byteExpr
    {s : Text}
    (h : bytes.Literal s)
    (hNe : s ≠ quotedQuote) : Prefers byteExpr s := by
  cases h with
  | @plain c hQuote hSlash hBreak =>
      have hc : (CharSet.compl (CharSet.single '\'')).contains
          c = true := by
        simp [CharSet.contains, CharSet.contains_single,
          hQuote.symm]
      exact prefers_afterOpening (prefers_plain hc _)
  | @escaped e hEscape =>
      apply prefers_afterOpening
      apply prefers_escape (takes_byteEscape hEscape)
      intro _
      cases hEscape with
      | @letter c hMem =>
          refine ⟨c, [], rfl, ?_⟩
          rintro rfl
          exact hNe rfl
      | hex hHex => exact ⟨'x', _, rfl, by decide⟩
      | codePoint hPoints _ => cases hPoints

/- Of a quoted quote the last one is left over. -/
theorem prefers_byteExpr_slash :
    Prefers byteExpr ['b', '\'', '\\', '\''] :=
  prefers_afterOpening
    (prefers_plain (c := '\\') (by decide) _)

------------------------------------------------------------
-- Steps
------------------------------------------------------------

theorem characterRule_getElem? :
    compiledStart[3]? =
      some (labelling characterExpr Label.string2) := by
  rfl

theorem byteRule_getElem? :
    compiledStart[4]? =
      some (labelling byteExpr Label.string2) := by
  rfl

/- The rules before that for characters read no such quote. -/
theorem string_rules_skip_quote (line : Text) :
    ∀ r ∈ compiledStart.take 3,
      r.apply ('\'' :: line) = none := by
  have hNot : ∀ r ∈ compiledStart.take 3,
      r.pattern.readsFirst '\'' = false := by
    decide +kernel
  exact fun r hr => Rule.apply_eq_none (hNot r hr) line

/-
  They may read the letter in front of a byte, but then there
  is neither a quote of a string nor the letter of a raw one.
-/
theorem string_rules_skip_byte (line : Text) :
    ∀ r ∈ compiledStart.take 4,
      r.apply ('b' :: '\'' :: line) = none := by
  have hPatterns : ∀ r ∈ compiledStart.take 4,
      ∃ a ∈ startExprs.take 4,
        r.pattern = Pattern.regex (anchored a) ∧
          a.simple = true := by
    decide +kernel
  have hPaths : ∀ a ∈ startExprs.take 4,
      a.paths (Place.first ('b' :: '\'' :: line)) = [] := by
    intro a ha
    rw [startExprs] at ha
    simp only [List.take_succ_cons, List.take_zero,
      List.mem_cons, List.not_mem_nil, or_false] at ha
    rcases ha with rfl | rfl | rfl | rfl
    · rfl
    · rfl
    · rfl
    · rfl
  intro r hr
  rcases hPatterns r hr with ⟨a, ha, hPattern, hSimple⟩
  exact Rule.apply_of_paths_nil hPattern hSimple
    (hPaths a ha)

/- A token of a quoted character at any place of a text. -/
theorem step_character
    {s : Text}
    (h : characters.Literal s)
    (before more : Text) :
    table.step (before ++ (s ++ more))
        ⟨before.size, State.start⟩ =
      some (oneToken before.size Label.string2 s State.start
        more) := by
  have hFree := h.breakFree (by decide) (by decide)
  rw [step_append]
  apply stepOn_oneToken characterRule_getElem? rfl
  · intro r hr
    rw [hFree.currentLine_append]
    cases h <;> exact string_rules_skip_quote _ r hr
  · rw [hFree.currentLine_append]
    exact apply_of_prefers (prefers_characterExpr h)
      (by decide) (by cases h <;> simp [characters])
      Label.string2 _

theorem step_byte
    {u : Text}
    (hPrefers : Prefers byteExpr (bytes.opening ++ u))
    (hFree : Text.BreakFree (bytes.opening ++ u))
    (before more : Text) :
    table.step (before ++ (bytes.opening ++ u ++ more))
        ⟨before.size, State.start⟩ =
      some (oneToken before.size Label.string2
        (bytes.opening ++ u) State.start more) := by
  rw [step_append]
  apply stepOn_oneToken byteRule_getElem? rfl
  · intro r hr
    rw [hFree.currentLine_append]
    exact string_rules_skip_byte _ r hr
  · rw [hFree.currentLine_append]
    exact apply_of_prefers hPrefers (by decide)
      (by simp [bytes]) Label.string2 _

/- The token of a quoted quote among the bytes. -/
def slashQuoted : Text := ['b', '\'', '\\', '\'']

theorem step_quotedQuote (before more : Text) :
    table.step (before ++ (quotedQuote ++ more))
        ⟨before.size, State.start⟩ =
      some (oneToken before.size Label.string2 slashQuoted
        State.start ('\'' :: more)) := by
  exact step_byte (u := ['\\', '\'']) prefers_byteExpr_slash
    (by decide) before ('\'' :: more)

/-
  At a quoted character or byte in the start state the step
  takes all of it as one token and stays in the state,
  whatever follows. Only of a quoted quote among the bytes it
  leaves the last one over.
-/
theorem quoted_single_tokens (before more : Text) :
    (∀ s,
      characters.Literal s ∨
          bytes.Literal s ∧ s ≠ quotedQuote →
        table.step (before ++ (s ++ more))
            ⟨before.size, State.start⟩ =
          some (oneToken before.size Label.string2 s
            State.start more)) ∧
    table.step (before ++ (quotedQuote ++ more))
        ⟨before.size, State.start⟩ =
      some (oneToken before.size Label.string2 slashQuoted
        State.start ('\'' :: more)) := by
  refine ⟨?_, step_quotedQuote before more⟩
  rintro s (hCharacter | ⟨hByte, hNe⟩)
  · exact step_character hCharacter before more
  · have hPrefers := prefers_byteExpr hByte hNe
    have hFree := hByte.breakFree (by decide) (by decide)
    cases hByte with
    | plain hQuote hSlash hBreak =>
        exact step_byte hPrefers hFree before more
    | escaped hEscape =>
        exact step_byte hPrefers hFree before more

/- A character given by its digits. -/
theorem quoted_single_tokens_hex :
    let s : Text := ['\'', '\\', 'x', '4', '1', '\'']
    characters.Literal s ∧
      table.step (['('] ++ (s ++ [')']))
          ⟨Text.size ['('], State.start⟩ =
        some (oneToken (Text.size ['(']) Label.string2 s
          State.start [')']) := by
  have hHex : AreHex 2 ['4', '1'] :=
    ⟨rfl, Text.forall_of_all (by decide)⟩
  have hLiteral : characters.Literal
      ['\'', '\\', 'x', '4', '1', '\''] :=
    Quoting.Literal.escaped (Quoting.Escape.hex hHex)
  exact ⟨hLiteral,
    (quoted_single_tokens ['('] [')']).1 _ (Or.inl hLiteral)⟩

/- So not every quoted byte is a single token. -/
theorem quoted_quote_split :
    ¬ ∀ s, characters.Literal s ∨ bytes.Literal s →
      ∀ before more : Text,
        table.step (before ++ (s ++ more))
            ⟨before.size, State.start⟩ =
          some (oneToken before.size Label.string2 s
            State.start more) := by
  intro h
  have hLiteral : bytes.Literal quotedQuote :=
    Quoting.Literal.escaped
      (Quoting.Escape.letter (by decide))
  have hStep := h quotedQuote (Or.inr hLiteral) [] []
  rw [step_quotedQuote] at hStep
  have hTokens :=
    congrArg Step.tokens (Option.some.inj hStep)
  cases hTokens

end Qhantoom

end Highlighter

import Highlighter.Proofs.Qhantoom.StartRules
import Highlighter.Proofs.Qhantoom.States
import Highlighter.Proofs.Regex.Openings
import Highlighter.Proofs.Scan.Outline

/-
  Blanks in front of a line under the Qhantoom table. In the
  start state no rule fires on one and it is skipped; inside
  of a string or a comment it is text like any other, and
  what follows it is read as it would be without it.

  Key definitions include:
    * `Text.blankChars`
    * `Qhantoom.TakesIn`

  Main statements:
    * `Qhantoom.firstHit_blank`
    * `Qhantoom.takesIn`
    * `Qhantoom.passesBlanks`
-/

namespace Highlighter

------------------------------------------------------------
-- All blanks
------------------------------------------------------------

namespace Text

/- A code point of a table lies in one of its ranges. -/
theorem RangeTable.exists_of_contains
    {n : Nat}
    {t : RangeTable}
    (h : t.contains n = true) :
    ∃ low high, (low, high) ∈ t ∧ low ≤ n ∧ n ≤ high := by
  induction t with
  | nil => cases h
  | cons range t ih =>
      rcases range with ⟨low, high⟩
      rw [contains_cons, Bool.and_eq_true, Bool.or_eq_true,
        decide_eq_true_eq, decide_eq_true_eq] at h
      rcases h with ⟨hLow, hHigh | hRest⟩
      · exact ⟨low, high, List.mem_cons_self .., hLow, hHigh⟩
      · rcases ih hRest with ⟨low', high', hMem, hIn⟩
        exact ⟨low', high', List.mem_cons_of_mem _ hMem, hIn⟩

/- The blanks, one by one. -/
def blankChars : List Char :=
  blankRanges.flatMap fun (low, high) =>
    (List.range' low (high + 1 - low)).map Char.ofNat

theorem mem_blankChars
    {c : Char}
    (h : isBlank c = true) : c ∈ blankChars := by
  rw [← contains_blankRanges] at h
  rcases RangeTable.exists_of_contains h with
    ⟨low, high, hRange, hLow, hHigh⟩
  refine List.mem_flatMap.mpr ⟨(low, high), hRange, ?_⟩
  refine List.mem_map.mpr
    ⟨c.toNat, ?_, Char.ofNat_toNat c⟩
  rw [List.mem_range'_1]
  omega

end Text

namespace Qhantoom

open Regex RuleTable

------------------------------------------------------------
-- The start state
------------------------------------------------------------

/- No rule of the start state reads a blank first. -/
theorem startRules_read_no_blank :
    ∀ r ∈ compiledStart, ∀ c ∈ Text.blankChars,
      r.pattern.readsFirst c = false := by
  have hAll :
      compiledStart.all (fun r =>
        Text.blankChars.all fun c =>
          !r.pattern.readsFirst c) = true := by
    decide +kernel
  intro r hr c hc
  have hRule := List.all_eq_true.mp hAll r hr
  simpa using List.all_eq_true.mp hRule c hc

/- So none fires on a line that starts with a blank. -/
theorem firstHit_blank
    {c : Char}
    (hBlank : Text.isBlank c = true)
    (line : Text) :
    firstHit (c :: line) (table.rules State.start) = none := by
  rw [rules_start]
  have hNone := fun r hr => startRules_read_no_blank r hr c
    (Text.mem_blankChars hBlank)
  generalize compiledStart = rules at hNone
  induction rules with
  | nil => rfl
  | cons r rules ih =>
      have hFirst := hNone r (List.mem_cons_self ..)
      simp only [firstHit, Rule.apply_eq_none hFirst]
      exact ih fun r' hr' =>
        hNone r' (List.mem_cons_of_mem r hr')

------------------------------------------------------------
-- Inside of strings and comments
------------------------------------------------------------

/-
  In a state a character in front of a line is taken in: the
  rule that fires with it in front goes one character
  further than without it, or takes that character alone and
  stays in the state.
-/
inductive TakesIn (state : State) (c : Char) (line : Text) :
    Prop
  | close
      (n : Nat)
      (hMatch :
        (closing state).matchLength (c :: line) =
          some (n + 1))
      (hPos : 0 < n)
      (hWithout :
        (closing state).matchLength line = some n)
  | fill
      (n : Nat)
      (hClosing :
        (closing state).matchLength (c :: line) = none)
      (hMatch :
        (filling state).matchLength (c :: line) =
          some (n + 1))
      (hWithout : 0 < n →
        (closing state).matchLength line = none ∧
          (filling state).matchLength line = some n)

/- Before a literal begins, the search for it goes on. -/
theorem lengthUpTo_cons_of_ne
    {c d : Char}
    (h : d ≠ c)
    (literal line : Text) :
    Pattern.lengthUpTo (d :: literal) (c :: line) =
      Pattern.lengthUpTo (d :: literal) line + 1 := by
  rw [Pattern.lengthUpTo, if_neg]
  intro hPrefix
  exact h (List.cons_prefix_cons.mp
    (List.isPrefixOf_iff_prefix.mp hPrefix)).1

theorem not_prefix_cons_of_ne
    {c d : Char}
    (h : d ≠ c)
    (literal line : Text) : ¬ d :: literal <+: c :: line :=
  fun hPrefix => h (List.cons_prefix_cons.mp hPrefix).1

/- The literal is not ahead where the search goes on. -/
theorem not_prefix_of_lengthUpTo_pos
    {literal line : Text}
    (h : 0 < Pattern.lengthUpTo literal line) :
    ¬ literal <+: line :=
  Pattern.not_prefix_of_lt_lengthUpTo h

theorem takesIn_rawString
    {c : Char}
    (hQuote : '"' ≠ c)
    (line : Text) : TakesIn State.rawString c line := by
  apply TakesIn.fill (Pattern.lengthUpTo ['"'] line)
  · simp only [closing, matchLength_quote,
      if_neg (not_prefix_cons_of_ne hQuote [] line)]
  · simp only [filling, matchLength_rawText,
      lengthUpTo_cons_of_ne hQuote]
  · intro hPos
    have hNot := not_prefix_of_lengthUpTo_pos hPos
    exact ⟨by simp only [closing, matchLength_quote,
      if_neg hNot], matchLength_rawText line⟩

theorem takesIn_hashString
    {c : Char}
    (hQuote : '"' ≠ c)
    (line : Text) : TakesIn State.hashString c line := by
  apply TakesIn.fill (Pattern.lengthUpTo ['"', '#'] line)
  · simp only [closing, matchLength_hashedQuote,
      if_neg (not_prefix_cons_of_ne hQuote ['#'] line)]
  · simp only [filling, Pattern.matchLength,
      lengthUpTo_cons_of_ne hQuote]
  · intro hPos
    have hNot := not_prefix_of_lengthUpTo_pos hPos
    exact ⟨by simp only [closing, matchLength_hashedQuote,
      if_neg hNot], rfl⟩

theorem takesIn_comment
    {c : Char}
    (hStar : '*' ≠ c)
    {line : Text}
    (hFree : Text.BreakFree (c :: line)) :
    TakesIn State.comment c line := by
  have hTail : Text.BreakFree line :=
    fun d hd => hFree d (List.mem_cons_of_mem c hd)
  have hWith := matchLength_commentEnd hFree
  have hWithout := matchLength_commentEnd hTail
  simp only [lengthUpTo_cons_of_ne hStar, List.length_cons,
    Nat.add_lt_add_iff_right] at hWith hWithout
  by_cases hInside :
      Pattern.lengthUpTo ['*', '/'] line < line.length
  · rw [if_pos hInside] at hWith hWithout
    apply TakesIn.close
      (Pattern.lengthUpTo ['*', '/'] line + 2)
    · exact hWith
    · omega
    · exact hWithout
  · rw [if_neg hInside] at hWith hWithout
    exact TakesIn.fill line.length hWith
      (matchLength_lineText hFree)
      fun _ => ⟨hWithout, matchLength_lineText hTail⟩

theorem takesIn_string
    {c : Char}
    (hQuote : '"' ≠ c)
    (hSlash : '\\' ≠ c)
    (line : Text) : TakesIn State.string c line := by
  rcases exists_exhausts charLength_le line with
    ⟨n, hExhausts⟩
  have hOne : charLength (c :: line) = 1 := by
    have hHead := stringHead (c :: line)
    generalize charLength (c :: line) = m at hHead ⊢
    cases hHead with
    | quote rest => exact absurd rfl hQuote
    | newline rest => exact absurd rfl hSlash
    | slash => exact absurd rfl hSlash
    | plain hOther hNot rest => rfl
    | escape hBreak rest => exact absurd rfl hSlash
  have hRound : Exhausts charLength (c :: line) (1 + n) := by
    rw [← hOne]
    apply Exhausts.round
    · rw [hOne]
      exact Nat.one_pos
    · rw [hOne]
      exact hExhausts
  rw [Nat.add_comm] at hRound
  apply TakesIn.fill n
  · simp only [closing, matchLength_quote,
      if_neg (not_prefix_cons_of_ne hQuote [] line)]
  · exact matchLength_stringText hRound
  · intro hPos
    have hNot : ¬ ['"'] <+: line := by
      rintro ⟨rest, rfl⟩
      cases hExhausts with
      | stop hLen => cases hPos
      | round hLen hRest => cases hLen
    exact ⟨by simp only [closing, matchLength_quote,
      if_neg hNot], matchLength_stringText hExhausts⟩

/- Blanks are taken in, whatever the state. -/
theorem takesIn
    {state : State}
    (hState : state ≠ State.start)
    {c : Char}
    (hBlank : Text.isBlank c = true)
    {line : Text}
    (hFree : Text.BreakFree (c :: line)) :
    TakesIn state c line := by
  have hOther : ∀ d, Text.isBlank d = false → d ≠ c := by
    rintro d hd rfl
    rw [hBlank] at hd
    cases hd
  cases state with
  | start => exact absurd rfl hState
  | string =>
      exact takesIn_string (hOther _ rfl) (hOther _ rfl) line
  | rawString => exact takesIn_rawString (hOther _ rfl) line
  | hashString => exact takesIn_hashString (hOther _ rfl) line
  | comment => exact takesIn_comment (hOther _ rfl) hFree

------------------------------------------------------------
-- Scans
------------------------------------------------------------

/-
  A character that a state takes in leaves no trace: the
  scan goes on where it would without that character.
-/
theorem sameTrace_of_takesIn
    {state : State}
    (hState : state ≠ State.start)
    {c : Char}
    {line : Text}
    (hFree : Text.BreakFree (c :: line))
    (h : TakesIn state c line) :
    table.SameTrace (c :: line) state line state := by
  have hTail : Text.BreakFree line :=
    fun d hd => hFree d (List.mem_cons_of_mem c hd)
  cases h with
  | close n hMatch hPos hWithout =>
      have hWith := sameTrace_of_firstHit hFree
        (firstHit_closing hState hMatch (Nat.succ_pos n)) rfl
      cases line with
      | nil =>
          have hLe := Pattern.matchLength_le hWithout
          rw [List.length_nil] at hLe
          omega
      | cons d line =>
          have hThen := sameTrace_of_firstHit hTail
            (firstHit_closing hState hWithout hPos) rfl
          exact hWith.trans hThen.symm
  | fill n hClosing hMatch hWithout =>
      have hWith := sameTrace_of_firstHit hFree
        (firstHit_filling hState hClosing hMatch
          (Nat.succ_pos n)) rfl
      rcases Nat.eq_zero_or_pos n with rfl | hPos
      · exact hWith
      · rcases hWithout hPos with ⟨hNone, hFills⟩
        cases line with
        | nil =>
            have hLe := Pattern.matchLength_le hFills
            rw [List.length_nil] at hLe
            omega
        | cons d line =>
            have hThen := sameTrace_of_firstHit hTail
              (firstHit_filling hState hNone hFills hPos) rfl
            exact hWith.trans hThen.symm

/- The Qhantoom table passes blanks over. -/
theorem passesBlanks : table.PassesBlanks := by
  intro c line state hBlank hFree
  by_cases hState : state = State.start
  · subst hState
    exact sameTrace_of_no_hit hFree (firstHit_blank hBlank line)
  · exact sameTrace_of_takesIn hState hFree
      (takesIn hState hBlank hFree)

end Qhantoom

end Highlighter

import Highlighter.Proofs.Qhantoom.Patterns

/-
  What closes a string or a comment, told without rules, and
  how the two rules of such a state meet it on a line.

  Key definitions include:
    * `Text.slashesBefore`
    * `Qhantoom.closer?`
    * `Qhantoom.Ready`
    * `Qhantoom.LineStep`

  Main statements:
    * `Qhantoom.closer?_append`: nothing closes across the
      end of a line.
    * `Qhantoom.lineStep`: on a line either the closing
      pattern matches up to the end of the first closer, or
      the filling one matches a text without closers.
-/

namespace Highlighter

namespace Text

------------------------------------------------------------
-- Backslashes
------------------------------------------------------------

/- The number of backslashes that a text ends in. -/
def slashesBefore (t : Text) : Nat :=
  (t.reverse.takeWhile (· == '\\')).length

theorem slashesBefore_slash (t : Text) :
    slashesBefore (t ++ ['\\']) = slashesBefore t + 1 := by
  simp [slashesBefore]

theorem slashesBefore_other
    {c : Char}
    (h : c ≠ '\\')
    (t : Text) : slashesBefore (t ++ [c]) = 0 := by
  simp [slashesBefore, h]

/- A line break has none at its end. -/
theorem slashesBefore_of_isLineBreak
    {brk : Text}
    (h : isLineBreak brk = true)
    (t : Text) : slashesBefore (t ++ brk) = 0 := by
  simp only [isLineBreak, Bool.or_eq_true, beq_iff_eq] at h
  rcases h with (rfl | rfl) | rfl <;> simp [slashesBefore]

------------------------------------------------------------
-- Prefixes within a line
------------------------------------------------------------

/- What may come after a line: nothing or a line break. -/
def EndsLine (more : Text) : Prop :=
  ∀ c, more.head? = some c → isBreakChar c = true

/- The current line is followed by no more of it. -/
theorem endsLine_dropWhile (t : Text) :
    EndsLine (t.dropWhile fun c => !isBreakChar c) := by
  intro c hc
  have hNot :=
    List.head?_dropWhile_not (fun c => !isBreakChar c) t
  rw [hc] at hNot
  simpa using hNot

/- Nor does a line go on inside of a break. -/
theorem endsLine_drop_of_break
    {t : Text}
    {j : Nat}
    (hj : j < breakLength t) : EndsLine (t.drop j) := by
  cases t with
  | nil => cases hj
  | cons c t =>
      have hBreak : isBreakChar c = true :=
        (breakLength_pos_iff c t).mp (Nat.zero_lt_of_lt hj)
      rw [breakLength_cons, if_pos hBreak] at hj
      intro d hd
      split at hj
      · rename_i hPair
        match j with
        | 0 =>
            cases hd
            exact hBreak
        | 1 =>
            rw [List.drop_succ_cons, List.drop_zero,
              hPair.2] at hd
            cases hd
            rfl
      · cases Nat.lt_one_iff.mp hj
        cases hd
        exact hBreak

/- A text within a line is no prefix of what is after it. -/
theorem prefix_append_iff
    {literal : Text}
    (hFree : literal.BreakFree)
    {more : Text}
    (hMore : EndsLine more)
    (line : Text) :
    literal <+: line ++ more ↔ literal <+: line := by
  induction literal generalizing line with
  | nil => simp
  | cons c literal ih =>
      have hHead : isBreakChar c = false :=
        hFree c (List.mem_cons_self ..)
      have hTail : BreakFree literal :=
        fun d hd => hFree d (List.mem_cons_of_mem c hd)
      cases line with
      | nil =>
          constructor
          · rintro ⟨rest, hRest⟩
            rw [List.nil_append] at hRest
            have hBreak : isBreakChar c = true := by
              apply hMore
              rw [← hRest]
              rfl
            rw [hHead] at hBreak
            cases hBreak
          · intro hPrefix
            exact hPrefix.trans (List.prefix_append [] more)
      | cons d line =>
          rw [List.cons_append, List.cons_prefix_cons,
            List.cons_prefix_cons, ih hTail]

end Text

namespace Qhantoom

open Regex

------------------------------------------------------------
-- Closers
------------------------------------------------------------

/-
  The text that closes a state at a place, given the texts
  before the place and after it. A string is closed by a
  quote that an even number of backslashes stands before, a
  raw string by any quote, one with hashes by a quote and
  the hashes after it, and a comment by `*` and `/`.
-/
def closer? (state : State) (before after : Text) :
    Option Text :=
  match state with
  | State.start => none
  | State.string =>
      if ['"'] <+: after ∧ before.slashesBefore % 2 = 0 then
        some ['"']
      else none
  | State.rawString =>
      if ['"'] <+: after then some ['"'] else none
  | State.hashString =>
      if ['"', '#'] <+: after then
        some ('"' :: after.tail.takeWhile ('#' == ·))
      else none
  | State.comment =>
      if ['*', '/'] <+: after then some ['*', '/'] else none

/- A closer has something in it. -/
theorem closer?_ne_nil
    {state : State}
    {before after closer : Text}
    (h : closer? state before after = some closer) :
    closer ≠ [] := by
  unfold closer? at h
  split at h
  · cases h
  all_goals
    split at h
    · cases h
      exact List.cons_ne_nil _ _
    · cases h

theorem tail_takeWhile_append
    {line more : Text}
    (hLine : line ≠ [])
    (hMore : Text.EndsLine more) :
    (line ++ more).tail.takeWhile ('#' == ·) =
      line.tail.takeWhile ('#' == ·) := by
  have hNone : more.takeWhile ('#' == ·) = [] := by
    cases more with
    | nil => rfl
    | cons c more =>
        have hBreak := hMore c rfl
        apply List.takeWhile_cons_of_neg
        rw [beq_iff_eq]
        rintro rfl
        cases hBreak
  rw [List.tail_append_of_ne_nil hLine, List.takeWhile_append]
  split
  · rename_i hLength
    rw [hNone, List.append_nil]
    exact ((List.takeWhile_prefix _).eq_of_length hLength).symm
  · rfl

/- Nothing closes across the end of a line. -/
theorem closer?_append
    {more : Text}
    (hMore : Text.EndsLine more)
    (state : State)
    (before line : Text) :
    closer? state before (line ++ more) =
      closer? state before line := by
  have hQuote : ['"'] <+: line ++ more ↔ ['"'] <+: line :=
    Text.prefix_append_iff (by decide) hMore line
  have hHash :
      ['"', '#'] <+: line ++ more ↔ ['"', '#'] <+: line :=
    Text.prefix_append_iff (by decide) hMore line
  have hEnd :
      ['*', '/'] <+: line ++ more ↔ ['*', '/'] <+: line :=
    Text.prefix_append_iff (by decide) hMore line
  cases state with
  | start => rfl
  | string => simp only [closer?, hQuote]
  | rawString => simp only [closer?, hQuote]
  | comment => simp only [closer?, hEnd]
  | hashString =>
      simp only [closer?, hHash]
      split
      · rename_i hPrefix
        have hLine : line ≠ [] := by
          rintro rfl
          cases List.prefix_nil.mp hPrefix
        rw [tail_takeWhile_append hLine hMore]
      · rfl

/- So nothing closes at the end of a line. -/
theorem closer?_of_endsLine
    {more : Text}
    (hMore : Text.EndsLine more)
    (state : State)
    (before : Text) : closer? state before more = none := by
  have hAppend := closer?_append hMore state before []
  rw [List.nil_append] at hAppend
  rw [hAppend]
  cases state <;> rfl

------------------------------------------------------------
-- Rules on a line
------------------------------------------------------------

/-
  A part of a line has no closer in it, given the text
  before the line.
-/
def NoCloser
    (state : State)
    (before line : Text)
    (n : Nat) : Prop :=
  ∀ j, j < n →
    closer? state (before ++ line.take j) (line.drop j) = none

/-
  A scan is ready for a line in a state: in a string, no
  backslash before the line escapes the start of it.
-/
def Ready (state : State) (before line : Text) : Prop :=
  state = State.string → line ≠ [] →
    before.slashesBefore % 2 = 0

/-
  What the rules of a state do on a line: the closing one
  matches up to the end of the first closer, or else the
  filling one matches some text before all closers and is
  ready for the rest.
-/
inductive LineStep
    (state : State)
    (before line : Text) : Prop
  | close
      (i : Nat)
      (closer : Text)
      (hMatch :
        (closing state).matchLength line =
          some (i + closer.length))
      (hCloser :
        closer? state (before ++ line.take i) (line.drop i) =
          some closer)
      (hBefore : NoCloser state before line i)
  | fill
      (n : Nat)
      (hClosing : (closing state).matchLength line = none)
      (hMatch : (filling state).matchLength line = some n)
      (hPos : 0 < n)
      (hNone : NoCloser state before line n)
      (hReady : Ready state (before ++ line.take n)
        (line.drop n))

/- Outside of strings with escapes each line is ready. -/
theorem ready_of_ne_string
    {state : State}
    (hState : state ≠ State.string)
    (before line : Text) : Ready state before line :=
  fun hEq => absurd hEq hState

theorem lineStep_rawString
    (before : Text)
    {line : Text}
    (hLine : line ≠ []) :
    LineStep State.rawString before line := by
  by_cases hQuote : ['"'] <+: line
  · apply LineStep.close 0 ['"']
    · simp only [closing, matchLength_quote, if_pos hQuote]
      rfl
    · exact if_pos hQuote
    · intro j hj
      cases hj
  · apply LineStep.fill (Pattern.lengthUpTo ['"'] line)
    · simp only [closing, matchLength_quote, if_neg hQuote]
    · exact matchLength_rawText line
    · exact Pattern.lengthUpTo_pos hLine hQuote
    · intro j hj
      exact if_neg (Pattern.not_prefix_of_lt_lengthUpTo hj)
    · exact ready_of_ne_string (by decide) _ _

theorem lineStep_hashString
    (before : Text)
    {line : Text}
    (hLine : line ≠ []) :
    LineStep State.hashString before line := by
  by_cases hHash : ['"', '#'] <+: line
  · apply LineStep.close 0
      ('"' :: line.tail.takeWhile ('#' == ·))
    · simp only [closing, matchLength_hashedQuote,
        if_pos hHash, List.length_cons]
      congr 1
      omega
    · exact if_pos hHash
    · intro j hj
      cases hj
  · apply LineStep.fill (Pattern.lengthUpTo ['"', '#'] line)
    · simp only [closing, matchLength_hashedQuote,
        if_neg hHash]
    · rfl
    · exact Pattern.lengthUpTo_pos hLine hHash
    · intro j hj
      exact if_neg (Pattern.not_prefix_of_lt_lengthUpTo hj)
    · exact ready_of_ne_string (by decide) _ _

theorem lineStep_comment
    (before : Text)
    {line : Text}
    (hLine : line ≠ [])
    (hFree : line.BreakFree) :
    LineStep State.comment before line := by
  have hMatch := matchLength_commentEnd hFree
  simp only at hMatch
  by_cases hInside :
      Pattern.lengthUpTo ['*', '/'] line < line.length
  · rw [if_pos hInside] at hMatch
    apply LineStep.close
      (Pattern.lengthUpTo ['*', '/'] line) ['*', '/'] hMatch
    · exact if_pos (Pattern.prefix_drop_lengthUpTo hInside)
    · intro j hj
      exact if_neg (Pattern.not_prefix_of_lt_lengthUpTo hj)
  · rw [if_neg hInside] at hMatch
    have hNever := Pattern.not_prefix_of_length_le
      (List.cons_ne_nil _ _) (Nat.le_of_not_lt hInside)
    apply LineStep.fill line.length hMatch
    · exact matchLength_lineText hFree
    · exact List.length_pos_iff.mpr hLine
    · intro j hj
      exact if_neg (hNever j)
    · exact ready_of_ne_string (by decide) _ _

------------------------------------------------------------
-- Strings with escapes
------------------------------------------------------------

/- Parts without closers are one such part. -/
theorem NoCloser.append
    {state : State}
    {before line : Text}
    {m n : Nat}
    (hFirst : NoCloser state before line m)
    (hThen :
      NoCloser state (before ++ line.take m) (line.drop m)
        n) :
    NoCloser state before line (m + n) := by
  intro j hj
  by_cases hFirstPart : j < m
  · exact hFirst j hFirstPart
  · have hSplit : j = m + (j - m) := by omega
    have hNone := hThen (j - m) (by omega)
    rw [List.append_assoc, ← List.take_add,
      List.drop_drop, ← hSplit] at hNone
    exact hNone

/- Only a quote closes a string. -/
theorem closer?_string_of_ne
    {c : Char}
    (hQuote : c ≠ '"')
    (before rest : Text) :
    closer? State.string before (c :: rest) = none := by
  apply if_neg
  rintro ⟨hPrefix, -⟩
  exact hQuote (List.cons_prefix_cons.mp hPrefix).1.symm

/- After a backslash not even that does. -/
theorem closer?_string_of_odd
    {before : Text}
    (hOdd : before.slashesBefore % 2 = 1)
    (rest : Text) :
    closer? State.string before rest = none := by
  apply if_neg
  rintro ⟨-, hEven⟩
  omega

/- Past a character of a string the scan is ready again. -/
theorem charLength_ready
    {before line : Text}
    (hReady : Ready State.string before line)
    (hPos : 0 < charLength line) :
    NoCloser State.string before line (charLength line) ∧
      Ready State.string
        (before ++ line.take (charLength line))
        (line.drop (charLength line)) := by
  have hOdd : line ≠ [] →
      Text.slashesBefore (before ++ ['\\']) % 2 = 1 := by
    intro hLine
    have hEven := hReady rfl hLine
    rw [Text.slashesBefore_slash]
    omega
  have hHead := stringHead line
  generalize charLength line = n at hHead hPos ⊢
  cases hHead with
  | nil => cases hPos
  | quote rest => cases hPos
  | newline rest => cases hPos
  | slash =>
      constructor
      · intro j hj
        cases Nat.lt_one_iff.mp hj
        exact closer?_string_of_ne (by decide) _ _
      · intro _ hNil
        exact absurd rfl hNil
  | plain hSlash hQuote rest =>
      constructor
      · intro j hj
        cases Nat.lt_one_iff.mp hj
        exact closer?_string_of_ne hQuote _ _
      · intro _ _
        rw [List.take_succ_cons, List.take_zero,
          Text.slashesBefore_other hSlash]
  | @escape c hBreak rest =>
      have hOdd := hOdd (List.cons_ne_nil _ _)
      constructor
      · intro j hj
        match j with
        | 0 => exact closer?_string_of_ne (by decide) _ _
        | 1 => exact closer?_string_of_odd hOdd _
      · intro _ _
        have hSplit : before ++ ['\\', c] =
            (before ++ ['\\']) ++ [c] := by
          rw [List.append_assoc, List.singleton_append]
        rw [List.take_succ_cons, List.take_succ_cons,
          List.take_zero, hSplit]
        by_cases hAgain : c = '\\'
        · rw [hAgain, Text.slashesBefore_slash]
          omega
        · rw [Text.slashesBefore_other hAgain]

/- So it is past any number of them. -/
theorem exhausts_ready
    {before line : Text}
    {n : Nat}
    (hExhausts : Exhausts charLength line n)
    (hReady : Ready State.string before line) :
    NoCloser State.string before line n ∧
      Ready State.string (before ++ line.take n)
        (line.drop n) := by
  induction hExhausts generalizing before with
  | @stop line hLen =>
      constructor
      · intro j hj
        cases hj
      · simpa using hReady
  | @round line n hPos hRest ih =>
      rcases charLength_ready hReady hPos with
        ⟨hFirst, hNext⟩
      rcases ih hNext with ⟨hThen, hEnd⟩
      refine ⟨hFirst.append hThen, ?_⟩
      rw [List.append_assoc, ← List.take_add,
        List.drop_drop] at hEnd
      exact hEnd

/- A line without a quote ahead has a character ahead. -/
theorem charLength_pos
    {line : Text}
    (hLine : line ≠ [])
    (hQuote : ¬ ['"'] <+: line)
    (hFree : line.BreakFree) : 0 < charLength line := by
  have hHead := stringHead line
  generalize charLength line = n at hHead
  cases hHead with
  | nil => exact absurd rfl hLine
  | quote rest =>
      exact absurd (List.prefix_append ['"'] rest) hQuote
  | newline rest =>
      have hBreak := hFree '\n' (by simp)
      cases hBreak
  | slash => exact Nat.one_pos
  | plain hSlash hOther rest => exact Nat.one_pos
  | escape hBreak rest => exact Nat.two_pos

theorem lineStep_string
    {before line : Text}
    (hLine : line ≠ [])
    (hFree : line.BreakFree)
    (hReady : Ready State.string before line) :
    LineStep State.string before line := by
  by_cases hQuote : ['"'] <+: line
  · apply LineStep.close 0 ['"']
    · simp only [closing, matchLength_quote, if_pos hQuote]
      rfl
    · apply if_pos
      rw [List.take_zero, List.append_nil]
      exact ⟨hQuote, hReady rfl hLine⟩
    · intro j hj
      cases hj
  · rcases exists_exhausts charLength_le line with
      ⟨n, hExhausts⟩
    rcases exhausts_ready hExhausts hReady with
      ⟨hNone, hNext⟩
    apply LineStep.fill n
    · simp only [closing, matchLength_quote, if_neg hQuote]
    · exact matchLength_stringText hExhausts
    · have hPos := charLength_pos hLine hQuote hFree
      cases hExhausts with
      | stop hLen =>
          rw [hLen] at hPos
          cases hPos
      | round hRound hRest => omega
    · exact hNone
    · exact hNext

/- What the rules do on a line, for all states but one. -/
theorem lineStep
    {state : State}
    (hState : state ≠ State.start)
    {before line : Text}
    (hLine : line ≠ [])
    (hFree : line.BreakFree)
    (hReady : Ready state before line) :
    LineStep state before line := by
  cases state with
  | start => exact absurd rfl hState
  | string => exact lineStep_string hLine hFree hReady
  | rawString => exact lineStep_rawString before hLine
  | hashString => exact lineStep_hashString before hLine
  | comment => exact lineStep_comment before hLine hFree

end Qhantoom

end Highlighter

import Highlighter.Text
import Mathlib.Data.List.TakeWhile

/-
  Line breaks and the lines of a text.

  Key definitions include:
    * `Text.BreakFree`
    * `Text.Meets`
    * `Text.Line.text`

  Main statements:
    * `Text.Meets.breakLength_append` and
      `Text.Meets.currentLine_append`: what is read at the
      start of a text does not depend on the text after a
      cut at a line break.
    * `Text.lines_cases`: a text is one line, or a line and
      the lines after it.
    * `Text.join_lines`: the lines make up the text.
-/

namespace Highlighter

namespace Text

------------------------------------------------------------
-- Texts within one line
------------------------------------------------------------

/- No character of the text belongs to a line break. -/
def BreakFree (t : Text) : Prop :=
  ∀ c ∈ t, isBreakChar c = false

instance (t : Text) : Decidable (BreakFree t) :=
  decidable_of_iff (t.all (!isBreakChar ·) = true)
    (by simp [BreakFree])

theorem breakFree_nil : BreakFree [] := by
  intro c hc
  cases hc

theorem BreakFree.append
    {s t : Text}
    (hs : s.BreakFree)
    (ht : t.BreakFree) : (s ++ t).BreakFree := by
  intro c hc
  rcases List.mem_append.mp hc with h | h
  · exact hs c h
  · exact ht c h

theorem BreakFree.take
    {t : Text}
    (h : t.BreakFree)
    (n : Nat) : BreakFree (t.take n) :=
  fun c hc => h c (List.mem_of_mem_take hc)

/- What is in front of a line within it adds to the line. -/
theorem BreakFree.currentLine_append
    {s : Text}
    (h : s.BreakFree)
    (t : Text) :
    currentLine (s ++ t) = s ++ t.currentLine :=
  List.takeWhile_append_of_pos fun c hc => by
    rw [h c hc]
    rfl

/- The current line ends before its line break. -/
theorem breakFree_currentLine (t : Text) :
    t.currentLine.BreakFree := by
  intro c hc
  have hAll := List.all_takeWhile (l := t)
    (p := fun c => !isBreakChar c)
  simpa using List.all_eq_true.mp hAll c hc

/- A text is its current line and what follows that. -/
theorem currentLine_append_dropWhile (t : Text) :
    t.currentLine ++ t.dropWhile (fun c => !isBreakChar c) =
      t :=
  List.takeWhile_append_dropWhile

/- The current line is the beginning of the text. -/
theorem currentLine_eq_take (t : Text) :
    t.currentLine = t.take t.currentLine.length := by
  conv =>
    rhs
    arg 2
    rw [← currentLine_append_dropWhile t]
  rw [List.take_left]

/- What is taken from the line is taken from the text. -/
theorem take_currentLine
    {t : Text}
    {n : Nat}
    (hn : n ≤ t.currentLine.length) :
    t.currentLine.take n = t.take n := by
  rw [currentLine_eq_take t, List.take_take,
    Nat.min_eq_left hn]

/- Further on in a line the rest of it is the line. -/
theorem currentLine_drop
    {t : Text}
    {n : Nat}
    (hn : n ≤ t.currentLine.length) :
    currentLine (t.drop n) = t.currentLine.drop n := by
  induction t generalizing n with
  | nil => simp [currentLine]
  | cons c t ih =>
      cases n with
      | zero => rfl
      | succ n =>
          cases hBreak : isBreakChar c with
          | true =>
              simp [currentLine, hBreak] at hn
          | false =>
              simp only [currentLine, hBreak, Bool.not_false,
                List.takeWhile_cons_of_pos,
                List.length_cons] at hn ⊢
              exact ih (Nat.le_of_succ_le_succ hn)

------------------------------------------------------------
-- Line breaks
------------------------------------------------------------

theorem breakLength_cons (c : Char) (t : Text) :
    breakLength (c :: t) =
      if c = '\r' ∧ t.head? = some '\n' then 2
      else if isBreakChar c then 1
      else 0 := by
  by_cases hPair : c = '\r' ∧ t.head? = some '\n'
  · rcases hPair with ⟨rfl, hHead⟩
    rcases List.head?_eq_some_iff.mp hHead with ⟨t, rfl⟩
    rfl
  · rw [if_neg hPair]
    unfold breakLength
    split
    · rename_i hEq
      cases hEq
      exact absurd ⟨rfl, rfl⟩ hPair
    · rename_i hEq
      cases hEq
      rfl
    · rename_i hEq
      cases hEq

/- What a text that breaks off breaks off with. -/
theorem isLineBreak_take_breakLength
    {t : Text}
    (h : 0 < breakLength t) :
    isLineBreak (t.take (breakLength t)) = true := by
  unfold breakLength at h ⊢
  split
  · rfl
  · rename_i c rest hNotPair
    split
    · rename_i hBreak
      simp only [isBreakChar, Bool.or_eq_true,
        beq_iff_eq] at hBreak
      rcases hBreak with rfl | rfl <;> rfl
    · rename_i hBreak
      simp [hBreak] at h
  · simp at h

theorem isLineBreak_ne_nil
    {t : Text}
    (h : isLineBreak t = true) : t ≠ [] := by
  rintro rfl
  cases h

/- A line break consists of its two characters only. -/
theorem isBreakChar_of_mem
    {t : Text}
    (h : isLineBreak t = true)
    {c : Char}
    (hc : c ∈ t) : isBreakChar c = true := by
  simp only [isLineBreak, Bool.or_eq_true,
    beq_iff_eq] at h
  rw [isBreakChar, Bool.or_eq_true, beq_iff_eq, beq_iff_eq]
  rcases h with (rfl | rfl) | rfl <;> simp at hc
  · exact Or.inl hc
  · exact hc.symm
  · exact Or.inr hc

theorem not_breakFree_of_isLineBreak
    {t : Text}
    (h : isLineBreak t = true) : ¬ t.BreakFree := by
  intro hFree
  rcases List.exists_cons_of_ne_nil (isLineBreak_ne_nil h)
    with ⟨c, rest, rfl⟩
  have hFirst : c ∈ c :: rest := List.mem_cons_self ..
  have hBreak := isBreakChar_of_mem h hFirst
  rw [hFree c hFirst] at hBreak
  cases hBreak

theorem breakLength_eq_zero_iff (c : Char) (t : Text) :
    breakLength (c :: t) = 0 ↔ isBreakChar c = false := by
  have hIff := breakLength_pos_iff c t
  cases h : isBreakChar c with
  | true =>
      have hPos := hIff.mpr h
      simp only [Bool.true_eq_false, iff_false]
      omega
  | false =>
      have hNot : ¬ 0 < breakLength (c :: t) := by
        simp [hIff, h]
      simp only [iff_true]
      omega

/- The line begins with a character that is no break. -/
theorem currentLine_cons
    {c : Char}
    {t : Text}
    (hBreak : breakLength (c :: t) = 0) :
    currentLine (c :: t) = c :: currentLine t := by
  rw [breakLength_eq_zero_iff] at hBreak
  simp [currentLine, hBreak]

/- A line that starts with no break has something in it. -/
theorem currentLine_ne_nil
    {t : Text}
    (hNonempty : t ≠ [])
    (hBreak : breakLength t = 0) : t.currentLine ≠ [] := by
  cases t with
  | nil => exact absurd rfl hNonempty
  | cons c t =>
      rw [breakLength_eq_zero_iff] at hBreak
      simp [currentLine, hBreak]

------------------------------------------------------------
-- Cuts at line breaks
------------------------------------------------------------

/-
  Two texts meet at a line break: the first one is empty or
  ends in a break, or the second is empty or begins with
  one, and the cut does not split a `\r\n`.
-/
structure Meets (a b : Text) : Prop where
  atBreak :
    (∀ c, a.getLast? = some c → isBreakChar c = true) ∨
      (∀ c, b.head? = some c → isBreakChar c = true)
  whole : ¬ (a.getLast? = some '\r' ∧ b.head? = some '\n')

/- Nothing in front meets every text. -/
theorem meets_nil (b : Text) : Meets [] b := by
  constructor
  · left
    intro c hc
    cases hc
  · rintro ⟨h, -⟩
    cases h

/- The last part of a text meets what the text meets. -/
theorem Meets.of_append
    {a₁ a₂ b : Text}
    (h : Meets (a₁ ++ a₂) b) : Meets a₂ b := by
  by_cases hNil : a₂ = []
  · subst hNil
    exact meets_nil b
  · have hLast : (a₁ ++ a₂).getLast? = a₂.getLast? := by
      rw [List.getLast?_append]
      cases hEq : a₂.getLast? with
      | none =>
          exact absurd (List.getLast?_eq_none_iff.mp hEq) hNil
      | some c => rfl
    constructor
    · rw [← hLast]
      exact h.atBreak
    · rw [← hLast]
      exact h.whole

/- The break at the start is the same with more text. -/
theorem Meets.breakLength_append
    {a b : Text}
    (h : Meets a b)
    (ha : a ≠ []) :
    breakLength (a ++ b) = breakLength a := by
  cases a with
  | nil => exact absurd rfl ha
  | cons c a =>
      rw [List.cons_append, breakLength_cons,
        breakLength_cons]
      cases a with
      | nil =>
          have hWhole := h.whole
          simp only [List.getLast?_singleton,
            Option.some.injEq] at hWhole
          simp [hWhole]
      | cons d a => rfl

/- So is the line at the start. -/
theorem Meets.currentLine_append
    {a b : Text}
    (h : Meets a b)
    (ha : a ≠ []) :
    currentLine (a ++ b) = currentLine a := by
  unfold currentLine
  rw [List.takeWhile_append]
  split
  · rename_i hLength
    -- there is no break in the first text
    have hWhole : a.takeWhile (fun c => !isBreakChar c) = a :=
      (List.takeWhile_prefix _).eq_of_length hLength
    have hFree : a.BreakFree := by
      intro c hc
      simpa using List.takeWhile_eq_self_iff.mp hWhole c hc
    rcases h.atBreak with hLast | hHead
    · cases hEq : a.getLast? with
      | none =>
          exact absurd (List.getLast?_eq_none_iff.mp hEq) ha
      | some c =>
          have hTrue := hLast c hEq
          rw [hFree c (List.mem_of_getLast? hEq)] at hTrue
          cases hTrue
    · cases b with
      | nil => simp [hWhole]
      | cons d b => simp [hWhole, hHead d rfl]
  · rfl

------------------------------------------------------------
-- Lines
------------------------------------------------------------

/- A line together with its line break. -/
def Line.text (line : Line) : Text :=
  line.body ++ line.terminator

/- The text that lines make up. -/
def join (lines : List Line) : Text :=
  lines.flatMap Line.text

@[simp]
theorem join_nil : join [] = [] := rfl

@[simp]
theorem join_cons (line : Line) (lines : List Line) :
    join (line :: lines) = line.text ++ join lines := rfl

theorem lines_cons_of_not_break
    {c : Char}
    (h : isBreakChar c = false)
    (t : Text) :
    lines (c :: t) = extendFirst c (lines t) := by
  rw [lines.eq_def (c :: t)]
  split
  · rename_i hEq
    cases hEq
  · rename_i hEq
    cases hEq
    simp [isBreakChar] at h
  · rename_i hEq
    cases hEq
    simp [h]

/- A text that breaks off at once starts an empty line. -/
theorem lines_of_break
    {t : Text}
    (h : 0 < breakLength t) :
    lines t =
      ⟨[], t.take (breakLength t)⟩ ::
        lines (t.drop (breakLength t)) := by
  cases t with
  | nil => simp [breakLength] at h
  | cons c t =>
      rw [breakLength_pos_iff] at h
      rw [breakLength_cons]
      by_cases hPair : c = '\r' ∧ t.head? = some '\n'
      · rcases hPair with ⟨rfl, hHead⟩
        rcases List.head?_eq_some_iff.mp hHead with ⟨t, rfl⟩
        rfl
      · rw [if_neg hPair, if_pos h, lines.eq_def (c :: t)]
        split
        · rename_i hEq
          cases hEq
        · rename_i hEq
          cases hEq
          exact absurd ⟨rfl, rfl⟩ hPair
        · rename_i hEq
          cases hEq
          simp [h]

/- More of a line in front lengthens the first line. -/
theorem lines_append
    {s t : Text}
    {line : Line}
    {rest : List Line}
    (hFree : s.BreakFree)
    (h : lines t = line :: rest) :
    lines (s ++ t) =
      ⟨s ++ line.body, line.terminator⟩ :: rest := by
  induction s with
  | nil => exact h
  | cons c s ih =>
      have hHead : isBreakChar c = false :=
        hFree c (List.mem_cons_self ..)
      have hTail : BreakFree s :=
        fun d hd => hFree d (List.mem_cons_of_mem c hd)
      rw [List.cons_append, lines_cons_of_not_break hHead,
        ih hTail]
      rfl

/- A text without a break is one line. -/
theorem BreakFree.lines_eq
    {t : Text}
    (h : t.BreakFree) : lines t = [⟨t, []⟩] := by
  have hOne : lines [] = [⟨[], []⟩] := by simp [lines]
  simpa using lines_append h hOne

/-
  A text is one line, or it is a line, a break, and the
  lines after that.
-/
theorem lines_cases (t : Text) :
    (t.BreakFree ∧ lines t = [⟨t, []⟩]) ∨
      ∃ body terminator rest,
        t = body ++ (terminator ++ rest) ∧
        body.BreakFree ∧
        isLineBreak terminator = true ∧
        lines t = ⟨body, terminator⟩ :: lines rest := by
  let after := t.dropWhile (fun c => !isBreakChar c)
  have hText : t.currentLine ++ after = t :=
    currentLine_append_dropWhile t
  have hFree : t.currentLine.BreakFree :=
    breakFree_currentLine t
  cases hAfter : after with
  | nil =>
      left
      rw [hAfter, List.append_nil] at hText
      rw [hText] at hFree
      exact ⟨hFree, hFree.lines_eq⟩
  | cons c rest =>
      right
      have hHead : isBreakChar c = true := by
        have hNot := List.head?_dropWhile_not
          (fun c => !isBreakChar c) t
        rw [show t.dropWhile _ = c :: rest from hAfter] at hNot
        simpa using hNot
      have hBreak : 0 < breakLength (c :: rest) :=
        (breakLength_pos_iff c rest).mpr hHead
      refine ⟨t.currentLine,
        (c :: rest).take (breakLength (c :: rest)),
        (c :: rest).drop (breakLength (c :: rest)),
        ?_, hFree, isLineBreak_take_breakLength hBreak, ?_⟩
      · rw [List.take_append_drop, ← hAfter, hText]
      · have hLines := lines_append hFree (lines_of_break hBreak)
        rw [← hAfter, hText] at hLines
        rw [hLines, List.append_nil, ← hAfter]

/- What holds of lines added one by one holds of all. -/
theorem lines_induction
    {P : Text → List Line → Prop}
    (hOne : ∀ t, t.BreakFree → P t [⟨t, []⟩])
    (hMore : ∀ body terminator rest, body.BreakFree →
      isLineBreak terminator = true →
      P rest (lines rest) →
      P (body ++ (terminator ++ rest))
        (⟨body, terminator⟩ :: lines rest))
    (t : Text) : P t (lines t) := by
  rcases lines_cases t with
    ⟨hFree, hLines⟩ |
    ⟨body, terminator, rest, hText, hFree, hBreak, hLines⟩
  · rw [hLines]
    exact hOne t hFree
  · have hShorter : rest.length < t.length := by
      have hPos := List.length_pos_iff.mpr
        (isLineBreak_ne_nil hBreak)
      rw [hText]
      simp only [List.length_append]
      omega
    rw [hLines, hText]
    exact hMore body terminator rest hFree hBreak
      (lines_induction hOne hMore rest)
termination_by t.length

/- The lines make up the text. -/
theorem join_lines (t : Text) : join (lines t) = t := by
  induction t using lines_induction with
  | hOne t hFree => simp [Line.text]
  | hMore body terminator rest hFree hBreak ih =>
      rw [join_cons, ih]
      simp [Line.text]

end Text

end Highlighter

import Highlighter.Indent
import Highlighter.Proofs.Text.Lines

/-
  Blanks in front of a line: what is left when they are
  taken off, and what it is to move a line to a column.

  Main statements:
    * `Text.trimStart_append`: blanks in front are taken off
      together with those that follow.
    * `Text.reindent_congr`: where a line stood before does
      not matter.
-/

namespace Highlighter

namespace Text

------------------------------------------------------------
-- Texts of blanks
------------------------------------------------------------

/- Every character of the text is a blank. -/
def AllBlank (t : Text) : Prop :=
  ∀ c ∈ t, isBlank c = true

/- The leading blanks of a text are such a text. -/
theorem allBlank_leadingBlanks (t : Text) :
    AllBlank (leadingBlanks t) :=
  List.all_eq_true.mp List.all_takeWhile

/- Blanks in front are taken off with those that follow. -/
theorem trimStart_append
    {blanks : Text}
    (h : AllBlank blanks)
    (t : Text) : trimStart (blanks ++ t) = trimStart t :=
  List.dropWhile_append_of_pos h

theorem trimStart_cons
    {c : Char}
    (h : isBlank c = true)
    (t : Text) : trimStart (c :: t) = trimStart t :=
  List.dropWhile_cons_of_pos h

theorem trimStart_cons_of_not
    {c : Char}
    (h : isBlank c = false)
    (t : Text) : trimStart (c :: t) = c :: t :=
  List.dropWhile_cons_of_neg (by simp [h])

/- No more blanks can be taken off then. -/
theorem leadingBlanks_trimStart (t : Text) :
    leadingBlanks (trimStart t) = [] := by
  cases h : trimStart t with
  | nil => rfl
  | cons c rest =>
      have hNot := List.head?_dropWhile_not isBlank t
      have hHead :
          (t.dropWhile isBlank).head? = some c := by
        change (trimStart t).head? = some c
        rw [h]
        rfl
      rw [hHead] at hNot
      exact List.takeWhile_cons_of_neg (by simpa using hNot)

theorem trimStart_trimStart (t : Text) :
    trimStart (trimStart t) = trimStart t := by
  have hSplit :=
    leadingBlanks_append_trimStart (trimStart t)
  rwa [leadingBlanks_trimStart, List.nil_append] at hSplit

/- What is left does not begin with a blank. -/
theorem isBlank_of_trimStart_eq
    {c : Char}
    {t rest : Text}
    (h : trimStart t = c :: rest) : isBlank c = false := by
  have hNone := leadingBlanks_trimStart t
  by_contra hBlank
  rw [Bool.not_eq_false] at hBlank
  rw [h, leadingBlanks,
    List.takeWhile_cons_of_pos hBlank] at hNone
  cases hNone

/- Blanks that stand before no other are the leading ones. -/
theorem leadingBlanks_append
    {blanks : Text}
    (h : AllBlank blanks)
    (t : Text) :
    leadingBlanks (blanks ++ trimStart t) = blanks := by
  have hTake :
      leadingBlanks (blanks ++ trimStart t) =
        blanks ++ leadingBlanks (trimStart t) :=
    List.takeWhile_append_of_pos h
  rw [hTake, leadingBlanks_trimStart, List.append_nil]

/- A text of blanks only is nothing without them. -/
theorem isBlankText_iff (t : Text) :
    isBlankText t = true ↔ trimStart t = [] := by
  unfold isBlankText trimStart
  rw [List.dropWhile_eq_nil_iff, List.all_eq_true]

theorem isBlankText_congr
    {s t : Text}
    (h : trimStart s = trimStart t) :
    isBlankText s = isBlankText t := by
  rw [Bool.eq_iff_iff, isBlankText_iff, isBlankText_iff, h]

/- A line break within the line is none in what is left. -/
theorem BreakFree.trimStart
    {t : Text}
    (h : t.BreakFree) : BreakFree (trimStart t) :=
  fun c hc => h c ((List.dropWhile_sublist _).mem hc)

------------------------------------------------------------
-- Blanks up to a column
------------------------------------------------------------

/- To reach a column takes tabs and spaces only. -/
theorem eq_tab_or_space_of_mem_blanksTo
    {options : IndentOptions}
    {column : Nat}
    {c : Char}
    (h : c ∈ blanksTo options column) :
    c = '\t' ∨ c = ' ' := by
  unfold blanksTo at h
  split at h
  · rcases List.mem_append.mp h with hTab | hSpace
    · exact Or.inl (List.eq_of_mem_replicate hTab)
    · exact Or.inr (List.eq_of_mem_replicate hSpace)
  · exact Or.inr (List.eq_of_mem_replicate h)

theorem allBlank_blanksTo
    (options : IndentOptions)
    (column : Nat) : AllBlank (blanksTo options column) := by
  intro c hc
  rcases eq_tab_or_space_of_mem_blanksTo hc with rfl | rfl <;>
    rfl

theorem breakFree_blanksTo
    (options : IndentOptions)
    (column : Nat) : BreakFree (blanksTo options column) := by
  intro c hc
  rcases eq_tab_or_space_of_mem_blanksTo hc with rfl | rfl <;>
    rfl

------------------------------------------------------------
-- Moved lines
------------------------------------------------------------

/- To move a line keeps what stands on it. -/
@[simp]
theorem trimStart_reindent
    (line : Text)
    (column : Nat)
    (options : IndentOptions) :
    (line.reindent column options).trimStart =
      line.trimStart := by
  unfold reindent
  rw [trimStart_append (allBlank_blanksTo options column),
    trimStart_trimStart]

/- Where a line stood before does not matter. -/
theorem reindent_congr
    {s t : Text}
    (h : trimStart s = trimStart t)
    (column : Nat)
    (options : IndentOptions) :
    s.reindent column options =
      t.reindent column options := by
  unfold reindent
  rw [h]

theorem BreakFree.reindent
    {line : Text}
    (h : line.BreakFree)
    (column : Nat)
    (options : IndentOptions) :
    (line.reindent column options).BreakFree :=
  (breakFree_blanksTo options column).append h.trimStart

end Text

end Highlighter

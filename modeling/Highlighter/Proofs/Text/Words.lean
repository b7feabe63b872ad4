import Highlighter.Proofs.Text.Lines
import Highlighter.Text.Word

/-
  Words of ASCII characters at the start of a text.

  Key definitions include:
    * `Text.leadingWord`
    * `Text.beginsName`
    * `Text.beginsWord`
    * `Text.isAsciiWord`

  Main statements:
    * `Text.leadingWord_append_drop`
    * `Text.beginsWord_drop_leadingWord`: after the longest
      word no character of a word follows.
    * `Text.leadingWord_append`: a word that does not go on
      is the longest one.
-/

namespace Highlighter

namespace Text

------------------------------------------------------------
-- Words
------------------------------------------------------------

/- The longest word that a text begins with. -/
def leadingWord (t : Text) : Text :=
  t.takeWhile isAsciiWordChar

/- Does a text begin with a letter or an underscore? -/
def beginsName (t : Text) : Bool :=
  t.head?.any fun c => isAsciiLetter c || c == '_'

/- Does a text begin with a character of a word? -/
def beginsWord (t : Text) : Bool :=
  t.head?.any isAsciiWordChar

/- Does a text consist of the characters of a word? -/
def isAsciiWord (t : Text) : Bool := t.all isAsciiWordChar

theorem leadingWord_append_drop (t : Text) :
    t.leadingWord ++ t.drop t.leadingWord.length = t := by
  have hSplit :
      t.leadingWord ++ t.dropWhile isAsciiWordChar = t :=
    List.takeWhile_append_dropWhile
  have hDrop :=
    congrArg (List.drop t.leadingWord.length) hSplit
  rw [List.drop_left] at hDrop
  rw [← hDrop, hSplit]

theorem leadingWord_prefix (t : Text) : t.leadingWord <+: t :=
  List.takeWhile_prefix _

theorem isAsciiWord_leadingWord (t : Text) :
    t.leadingWord.isAsciiWord = true :=
  List.all_takeWhile

theorem leadingWord_ne_nil
    {t : Text}
    (h : t.beginsWord = true) : t.leadingWord ≠ [] := by
  cases t with
  | nil => cases h
  | cons c t =>
      have hc : isAsciiWordChar c = true := h
      simp [leadingWord, hc]

theorem beginsWord_append
    {s : Text}
    (hs : s ≠ [])
    (u : Text) : beginsWord (s ++ u) = beginsWord s := by
  cases s with
  | nil => exact absurd rfl hs
  | cons c s => rfl

/- No line break is a character of a word. -/
theorem beginsWord_append_dropWhile
    {s : Text}
    (hs : s.beginsWord = false)
    (t : Text) :
    beginsWord (s ++ t.dropWhile fun c => !isBreakChar c) =
      false := by
  cases s with
  | cons c s => exact hs
  | nil =>
      have hHead :=
        List.head?_dropWhile_not (fun c => !isBreakChar c) t
      rw [List.nil_append, beginsWord]
      cases hNext :
          (t.dropWhile fun c => !isBreakChar c).head? with
      | none => rfl
      | some c =>
          simp only [hNext, Bool.not_eq_false'] at hHead
          rw [isBreakChar, Bool.or_eq_true, beq_iff_eq,
            beq_iff_eq] at hHead
          rcases hHead with rfl | rfl <;> decide

/- After the longest word no character of a word follows. -/
theorem beginsWord_drop_leadingWord (t : Text) :
    beginsWord (t.drop t.leadingWord.length) = false := by
  induction t with
  | nil => rfl
  | cons c t ih =>
      cases hc : isAsciiWordChar c with
      | false => simp [leadingWord, beginsWord, hc]
      | true =>
          have hWord :
              leadingWord (c :: t) = c :: leadingWord t := by
            simp [leadingWord, hc]
          rw [hWord, List.length_cons, List.drop_succ_cons]
          exact ih

/- A word that does not go on is the longest one. -/
theorem leadingWord_append
    {s u : Text}
    (hs : s.isAsciiWord = true)
    (hu : beginsWord u = false) : leadingWord (s ++ u) = s := by
  have hNone : u.takeWhile isAsciiWordChar = [] := by
    cases u with
    | nil => rfl
    | cons c u =>
        have hc : isAsciiWordChar c = false := hu
        simp [hc]
  unfold leadingWord
  rw [List.takeWhile_append_of_pos, hNone, List.append_nil]
  exact List.all_eq_true.mp hs

/- A name begins with a character of a word. -/
theorem isAsciiWordChar_of_nameStart
    {c : Char}
    (h : (isAsciiLetter c || c == '_') = true) :
    isAsciiWordChar c = true := by
  rw [Bool.or_eq_true] at h
  rw [isAsciiWordChar, Bool.or_eq_true, Bool.or_eq_true]
  exact h.imp_left Or.inl

theorem toNat_lt_of_nameStart
    {c : Char}
    (h : (isAsciiLetter c || c == '_') = true) :
    c.toNat < 128 := by
  have hLe : ∀ d : Char, c ≤ d → c.toNat ≤ d.toNat :=
    fun d hd => UInt32.le_iff_toNat_le.mp (Char.le_def.mp hd)
  simp only [isAsciiLetter, Bool.or_eq_true,
    Bool.and_eq_true, decide_eq_true_eq, beq_iff_eq] at h
  rcases h with (⟨-, hSmall⟩ | ⟨-, hLarge⟩) | rfl
  · exact Nat.lt_of_le_of_lt (hLe _ hSmall) (by decide)
  · exact Nat.lt_of_le_of_lt (hLe _ hLarge) (by decide)
  · decide

theorem beginsWord_of_beginsName
    {t : Text}
    (h : t.beginsName = true) : t.beginsWord = true := by
  cases t with
  | nil => cases h
  | cons c t => exact isAsciiWordChar_of_nameStart h

/- A text begins a word if it has a longest one. -/
theorem beginsWord_leadingWord (t : Text) :
    t.leadingWord.beginsWord = t.beginsWord := by
  cases t with
  | nil => rfl
  | cons c t =>
      cases hc : isAsciiWordChar c <;>
        simp [leadingWord, beginsWord, hc]

/- It begins with a name if its longest word does. -/
theorem beginsName_leadingWord (t : Text) :
    t.leadingWord.beginsName = t.beginsName := by
  cases t with
  | nil => rfl
  | cons c t =>
      cases hc : isAsciiWordChar c with
      | true => simp [leadingWord, beginsName, hc]
      | false =>
          cases hName : beginsName (c :: t) with
          | false => simp [leadingWord, beginsName, hc]
          | true =>
              have hWord := beginsWord_of_beginsName hName
              rw [beginsWord, List.head?_cons,
                Option.any_some, hc] at hWord
              cases hWord

end Text

end Highlighter

import Highlighter.Meta
import Highlighter.Proofs.Text.Blanks

/-
  Lines turned into comments and back: the marker goes in
  between the indentation of a line and its body, and is
  found there again.

  Key definitions include:
    * `Text.dropSpace`

  Main statements:
    * `LanguageMeta.uncommentLine_eq_some_iff`
    * `LanguageMeta.toggle_lossless_iff`
-/

namespace Highlighter

namespace Text

/- A text without the one space that it may begin with. -/
def dropSpace (t : Text) : Text :=
  if t.head? == some ' ' then t.tail else t

@[simp]
theorem dropSpace_space (t : Text) : dropSpace (' ' :: t) = t :=
  rfl

/- Where the leading blanks are off there is none. -/
theorem dropSpace_trimStart (t : Text) :
    dropSpace t.trimStart = t.trimStart := by
  cases hText : t.trimStart with
  | nil => rfl
  | cons c rest =>
      apply if_neg
      intro hSpace
      have hBlank := isBlank_of_trimStart_eq hText
      cases Option.some.inj (beq_iff_eq.mp hSpace)
      cases hBlank

end Text

namespace LanguageMeta

variable {m : LanguageMeta}

/-
  A line has a comment to be taken off just if the marker
  comes right after its indentation. What is left is the
  indentation and all that is after the marker but a space.
-/
theorem uncommentLine_eq_some_iff {line s : Text} :
    m.uncommentLine line = some s ↔
      ∃ rest, line.trimStart = m.lineComment ++ rest ∧
        s = line.leadingBlanks ++ rest.dropSpace := by
  unfold uncommentLine
  constructor
  · intro h
    simp only at h
    split at h
    · rename_i hMarker
      rcases List.isPrefixOf_iff_prefix.mp hMarker with
        ⟨rest, hRest⟩
      rw [← hRest, List.drop_left] at h
      cases h
      exact ⟨rest, hRest.symm, rfl⟩
    · cases h
  · rintro ⟨rest, hRest, rfl⟩
    have hMarker :
        m.lineComment.isPrefixOf line.trimStart = true := by
      rw [List.isPrefixOf_iff_prefix, hRest]
      exact List.prefix_append _ _
    simp only [hMarker, if_true]
    rw [hRest, List.drop_left]
    rfl

/- A marker that starts with no blank starts the body. -/
theorem trimStart_commentLine
    {c : Char}
    {marker : Text}
    (hMarker : m.lineComment = c :: marker)
    (hBlank : Text.isBlank c = false)
    (line : Text) :
    (m.commentLine line).trimStart =
      m.lineComment ++ ' ' :: line.trimStart := by
  have hBlanks := Text.allBlank_leadingBlanks line
  rw [commentLine, List.append_assoc,
    Text.trimStart_append hBlanks, hMarker, List.cons_append,
    Text.trimStart_cons_of_not hBlank]

/- The indentation of the line is kept then. -/
theorem leadingBlanks_commentLine
    {c : Char}
    {marker : Text}
    (hMarker : m.lineComment = c :: marker)
    (hBlank : Text.isBlank c = false)
    (line : Text) :
    (m.commentLine line).leadingBlanks =
      line.leadingBlanks := by
  have hSplit :=
    Text.leadingBlanks_append_trimStart (m.commentLine line)
  rw [trimStart_commentLine hMarker hBlank] at hSplit
  conv at hSplit =>
    rhs
    rw [commentLine, List.append_assoc]
  exact List.append_cancel_right hSplit

/-
  To turn a line into a comment and back gives the line
  again, whatever the line is, if the marker is not empty
  and does not start with a blank. With any other marker no
  line at all is given back.
-/
theorem toggle_lossless_iff
    (m : LanguageMeta)
    (line : Text) :
    m.uncommentLine (m.commentLine line) = some line ↔
      ∃ c marker, m.lineComment = c :: marker ∧
        Text.isBlank c = false := by
  rw [uncommentLine_eq_some_iff]
  constructor
  · rintro ⟨rest, hBody, hLine⟩
    cases hMarker : m.lineComment with
    | nil =>
        -- the space of the comment is taken for indentation
        rw [hMarker, List.nil_append] at hBody
        rw [← hBody, Text.dropSpace_trimStart,
          Text.leadingBlanks_append_trimStart] at hLine
        have hLength := congrArg List.length hLine
        rw [commentLine, hMarker] at hLength
        have hSplit := congrArg List.length
          (Text.leadingBlanks_append_trimStart line)
        simp only [List.length_append, List.length_cons,
          List.length_nil] at hLength hSplit
        omega
    | cons c marker =>
        rw [hMarker, List.cons_append] at hBody
        exact ⟨c, marker, rfl, Text.isBlank_of_trimStart_eq hBody⟩
  · rintro ⟨c, marker, hMarker, hBlank⟩
    refine ⟨' ' :: line.trimStart,
      trimStart_commentLine hMarker hBlank line, ?_⟩
    rw [leadingBlanks_commentLine hMarker hBlank,
      Text.dropSpace_space, Text.leadingBlanks_append_trimStart]

end LanguageMeta

end Highlighter

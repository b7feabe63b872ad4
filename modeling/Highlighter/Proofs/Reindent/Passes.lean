import Highlighter.Proofs.Reindent
import Highlighter.Proofs.Text.Columns

/-
  Indenting anew time and again. A pass moves a line to the
  column that its anchor had before the pass, and the anchor
  may move in that same pass. So one pass is not enough in
  general: it is when the anchors stand where they are meant
  to, and passes settle line by line, from the first one on.

  Key definitions include:
    * `Document.pass` and `Document.passes`
    * `Document.InPlace`
    * `Document.Decides`
    * `Document.Steady`

  Main statements:
    * `Document.getElem?_pass_eq_iff`,
      `Document.inPlace_pass_iff` and
      `Document.steady_iff_decides`: what it is for a line
      not to move in a second pass.
    * `Document.take_succ_pass`: what one pass settles.
    * `Document.pass_again_iff`: when one pass is enough.
    * `Document.passes_settle`: as many passes as there are
      lines are enough.
-/

namespace Highlighter

namespace Document

------------------------------------------------------------
-- Passes
------------------------------------------------------------

/- The document with its text indented anew. -/
def pass (d : Document) : Document :=
  { d with text := d.reindented }

/- The document after a number of passes. -/
def passes (d : Document) : Nat → Document
  | 0 => d
  | m + 1 => (d.passes m).pass

/- Passes change the text only. -/
@[simp]
theorem mode_passes (d : Document) (m : Nat) :
    (d.passes m).mode = d.mode := by
  induction m with
  | zero => rfl
  | succ m ih => exact ih

/- They keep the number of lines. -/
@[simp]
theorem lineCount_passes (d : Document) (m : Nat) :
    (d.passes m).lineCount = d.lineCount := by
  induction m with
  | zero => rfl
  | succ m ih =>
      rw [← ih]
      exact length_lines_reindented (d.passes m)

/- To move a line twice is to move it the second time. -/
theorem movedLine_movedLine
    (options : IndentOptions)
    (line : Text.Line)
    (m n : Nat) :
    movedLine options (movedLine options line (some m))
        (some n) =
      movedLine options line (some n) := by
  cases hBlank : line.body.isBlankText with
  | true => rw [movedLine_of_blank hBlank]
  | false =>
      have hSame := sameBody_movedLine options line (some m)
      have hMoved := hSame.isBlankText_eq
      rw [hBlank] at hMoved
      rw [movedLine_of_not_blank hMoved.symm,
        movedLine_of_not_blank hBlank options n,
        Text.reindent_congr hSame.trimStart_eq.symm,
        ← hSame.terminator_eq]

/- A line that is not blank comes to where it is moved. -/
theorem movedLine_inj
    {options : IndentOptions}
    {line : Text.Line}
    (hBlank : line.body.isBlankText = false)
    {m n : Nat}
    (hm : m ≤ Column.last)
    (hn : n ≤ Column.last)
    (h : movedLine options line (some m) =
      movedLine options line (some n)) : m = n := by
  rw [movedLine_of_not_blank hBlank,
    movedLine_of_not_blank hBlank] at h
  exact Text.reindent_inj hm hn (congrArg Text.Line.body h)

/- No line is moved past the last column. -/
theorem column_le (d : Document) (anchor : Anchor) :
    anchor.column d.levelAt ≤ Column.last := by
  cases anchor with
  | margin => exact Nat.zero_le _
  | line number => exact Column.wrap_le _

------------------------------------------------------------
-- Lines in place
------------------------------------------------------------

/-
  A line is in place when it stands at the column suggested
  for it, is blank, or has no column suggested.
-/
def InPlace (d : Document) (i : Nat) : Prop :=
  ∀ line indent column, d.text.lines[i]? = some line →
    line.body.isBlankText = false →
    d.indents[i]? = some indent →
    indent.indent = some column →
    line.body.indentation d.options.tabSize = column

/-
  A line decides where another one is moved that is not
  blank: the bracket that opened its level stands there.
-/
def Decides (d : Document) (j i : Nat) : Prop :=
  ∃ line f, d.text.lines[i]? = some line ∧
    line.body.isBlankText = false ∧
    d.frames[i]? = some f ∧
    f.anchor = some (Anchor.line j)

/-
  A line is steady when a pass over the text does not change
  the column that is suggested for it, or it is blank.
-/
def Steady (d : Document) (i : Nat) : Prop :=
  ∀ line f, d.text.lines[i]? = some line →
    line.body.isBlankText = false →
    d.frames[i]? = some f →
    d.pass.columnFor f = d.columnFor f

/- A line with an anchor is in place at its column. -/
theorem inPlace_iff
    {d : Document}
    {i : Nat}
    {line : Text.Line}
    (hLine : d.text.lines[i]? = some line)
    (hBlank : line.body.isBlankText = false)
    {f : LineFrame}
    (hFrame : d.frames[i]? = some f)
    {anchor : Anchor}
    (hAnchor : f.anchor = some anchor) :
    d.InPlace i ↔
      line.body.indentation d.options.tabSize =
        anchor.column d.levelAt := by
  have hIndent : d.indents[i]? =
      some (f.toIndent d.levelAt) := by
    rw [indents_eq, List.getElem?_map, hFrame]
    rfl
  have hColumn : (f.toIndent d.levelAt).indent =
      some (anchor.column d.levelAt) := by
    rw [LineFrame.toIndent, hAnchor, Option.map_some]
  constructor
  · intro hPlace
    exact hPlace line _ _ hLine hBlank hIndent hColumn
  · intro hEq line' indent column hLine' _ hIndent' hColumn'
    rw [hLine] at hLine'
    rw [hIndent] at hIndent'
    cases hLine'
    cases hIndent'
    rw [hColumn] at hColumn'
    cases hColumn'
    exact hEq

/- Where there is no line, none is out of place. -/
theorem inPlace_of_none
    {d : Document}
    {i : Nat}
    (h : d.text.lines[i]? = none) : d.InPlace i := by
  intro line indent column hLine
  rw [h] at hLine
  cases hLine

/- A blank line and one without an anchor are in place. -/
theorem inPlace_of_stays
    {d : Document}
    {i : Nat}
    {line : Text.Line}
    (hLine : d.text.lines[i]? = some line)
    {f : LineFrame}
    (hFrame : d.frames[i]? = some f)
    (hStays : line.body.isBlankText = true ∨
      f.anchor = none) : d.InPlace i := by
  intro line' indent column hLine' hBlank hIndent hColumn
  rw [hLine] at hLine'
  rw [indents_eq, List.getElem?_map, hFrame] at hIndent
  cases hLine'
  cases hIndent
  rcases hStays with hBlank' | hNone
  · rw [hBlank'] at hBlank
    cases hBlank
  · rw [LineFrame.toIndent, hNone] at hColumn
    cases hColumn

/- A pass keeps the column of the lines in place only. -/
theorem levelAt_pass_iff (d : Document) (j : Nat) :
    d.pass.levelAt j = d.levelAt j ↔ d.InPlace j := by
  unfold levelAt Text.levelAt pass Text.level
  cases hLine : d.text.lines[j]? with
  | none =>
      rw [getElem?_reindented_of_none hLine]
      exact iff_of_true rfl (inPlace_of_none hLine)
  | some line =>
      rcases exists_frame hLine with ⟨f, hFrame⟩
      have hMoved := getElem?_reindented hLine hFrame
      rw [hMoved]
      simp only [Option.map_some, Option.getD_some]
      rw [Column.wrap_add_right_inj (Text.indentation_le ..)
        (Text.indentation_le ..)]
      cases hBlank : line.body.isBlankText with
      | true =>
          rw [movedLine_of_blank hBlank]
          exact iff_of_true rfl
            (inPlace_of_stays hLine hFrame (Or.inl hBlank))
      | false =>
          cases hAnchor : f.anchor with
          | none =>
              rw [columnFor, hAnchor]
              exact iff_of_true rfl
                (inPlace_of_stays hLine hFrame
                  (Or.inr hAnchor))
          | some anchor =>
              rw [inPlace_iff hLine hBlank hFrame hAnchor,
                columnFor, hAnchor, Option.map_some,
                movedLine_of_not_blank hBlank,
                Text.indentation_reindent (d.column_le anchor)]
              exact eq_comm

------------------------------------------------------------
-- Steady lines
------------------------------------------------------------

/- Where there is no line, none is unsteady. -/
theorem steady_of_none
    {d : Document}
    {i : Nat}
    (h : d.text.lines[i]? = none) : d.Steady i := by
  intro line f hLine
  rw [h] at hLine
  cases hLine

/- A line that is there has one frame and one column. -/
theorem steady_iff
    {d : Document}
    {i : Nat}
    {line : Text.Line}
    (hLine : d.text.lines[i]? = some line)
    {f : LineFrame}
    (hFrame : d.frames[i]? = some f) :
    d.Steady i ↔
      (line.body.isBlankText = false →
        d.pass.columnFor f = d.columnFor f) := by
  constructor
  · intro hSteady hBlank
    exact hSteady line f hLine hBlank hFrame
  · intro hColumn line' f' hLine' hBlank hFrame'
    rw [hLine] at hLine'
    rw [hFrame] at hFrame'
    cases hLine'
    cases hFrame'
    exact hColumn hBlank

/- Lines are steady when those that decide are in place. -/
theorem steady_iff_decides (d : Document) (i : Nat) :
    d.Steady i ↔ ∀ j, d.Decides j i → d.InPlace j := by
  constructor
  · rintro hSteady j
      ⟨line, f, hLine, hBlank, hFrame, hAnchor⟩
    have hColumn := hSteady line f hLine hBlank hFrame
    rw [columnFor, columnFor, hAnchor] at hColumn
    exact (levelAt_pass_iff d j).mp (Option.some.inj hColumn)
  · intro hPlace line f hLine hBlank hFrame
    unfold columnFor
    cases hAnchor : f.anchor with
    | none => rfl
    | some anchor =>
        cases anchor with
        | margin => rfl
        | line j =>
            have hLevel := (levelAt_pass_iff d j).mpr
              (hPlace j ⟨line, f, hLine, hBlank, hFrame,
                hAnchor⟩)
            exact congrArg some hLevel

------------------------------------------------------------
-- The second pass
------------------------------------------------------------

section Blanks

variable {d : Document}
variable (hBlanks : d.mode.rules.PassesBlanks)
include hBlanks

/- A pass changes no frame. -/
theorem frames_pass : d.pass.frames = d.frames :=
  (hBlanks.frames_eq d.mode.info (sameBodies_reindented d)
    d.startState).symm

/-
  A second pass does to the lines what a first one does that
  takes the levels from the text after one pass.
-/
theorem getElem?_pass_pass
    {i : Nat}
    {line : Text.Line}
    (hLine : d.text.lines[i]? = some line)
    {f : LineFrame}
    (hFrame : d.frames[i]? = some f) :
    (Text.lines d.pass.reindented)[i]? =
      some (movedLine d.options line
        (d.pass.columnFor f)) := by
  have hMoved := getElem?_reindented hLine hFrame
  have hFrame' : d.pass.frames[i]? = some f := by
    rw [frames_pass hBlanks, hFrame]
  have hAgain := getElem?_reindented (d := d.pass) hMoved
    hFrame'
  rw [hAgain]
  unfold columnFor
  cases f.anchor with
  | none => rfl
  | some anchor =>
      simp only [Option.map_some]
      rw [show d.pass.options = d.options from rfl,
        movedLine_movedLine]

/- A second pass leaves the steady lines alone. -/
theorem getElem?_pass_eq_iff (i : Nat) :
    (Text.lines d.pass.reindented)[i]? =
        (Text.lines d.reindented)[i]? ↔
      d.Steady i := by
  cases hLine : d.text.lines[i]? with
  | none =>
      have hNone := getElem?_reindented_of_none hLine
      refine iff_of_true ?_ (steady_of_none hLine)
      rw [hNone]
      exact getElem?_reindented_of_none hNone
  | some line =>
      rcases exists_frame hLine with ⟨f, hFrame⟩
      rw [getElem?_pass_pass hBlanks hLine hFrame,
        getElem?_reindented hLine hFrame, Option.some_inj,
        steady_iff hLine hFrame]
      cases hBlank : line.body.isBlankText with
      | true =>
          rw [movedLine_of_blank hBlank,
            movedLine_of_blank hBlank]
          exact iff_of_true rfl nofun
      | false =>
          unfold columnFor
          cases f.anchor with
          | none => exact iff_of_true rfl (fun _ => rfl)
          | some anchor =>
              rw [Option.map_some, Option.map_some]
              constructor
              · intro hMoved _
                exact congrArg some (movedLine_inj hBlank
                  (d.pass.column_le anchor)
                  (d.column_le anchor) hMoved)
              · intro hColumn
                rw [hColumn rfl]

/- They are the lines that the first pass puts in place. -/
theorem inPlace_pass_iff (i : Nat) :
    d.pass.InPlace i ↔ d.Steady i := by
  cases hLine : d.text.lines[i]? with
  | none =>
      exact iff_of_true
        (inPlace_of_none (getElem?_reindented_of_none hLine))
        (steady_of_none hLine)
  | some line =>
      rcases exists_frame hLine with ⟨f, hFrame⟩
      have hMoved : d.pass.text.lines[i]? =
          some (movedLine d.options line (d.columnFor f)) :=
        getElem?_reindented hLine hFrame
      have hFrame' : d.pass.frames[i]? = some f := by
        rw [frames_pass hBlanks, hFrame]
      rw [steady_iff hLine hFrame]
      cases hBlank : line.body.isBlankText with
      | true =>
          rw [movedLine_of_blank hBlank] at hMoved
          exact iff_of_true
            (inPlace_of_stays hMoved hFrame' (Or.inl hBlank))
            nofun
      | false =>
          unfold columnFor at hMoved ⊢
          cases hAnchor : f.anchor with
          | none =>
              exact iff_of_true
                (inPlace_of_stays hMoved hFrame'
                  (Or.inr hAnchor))
                (fun _ => rfl)
          | some anchor =>
              rw [hAnchor, Option.map_some,
                movedLine_of_not_blank hBlank] at hMoved
              have hBlank' : Text.isBlankText
                  (line.body.reindent (anchor.column d.levelAt)
                    d.options) = false := by
                rw [← hBlank]
                exact Text.isBlankText_congr
                  (Text.trimStart_reindent ..)
              have hWidth := Text.indentation_reindent
                (d.column_le anchor) line.body d.options
              have hOptions : d.pass.options = d.options := rfl
              rw [inPlace_iff hMoved hBlank' hFrame' hAnchor,
                hOptions, hWidth, Option.map_some,
                Option.map_some, Option.some_inj]
              constructor
              · intro hEq _
                exact hEq.symm
              · intro hEq
                exact (hEq rfl).symm

/-
  A pass settles one line more than were settled before it,
  as no line depends on those after it.
-/
theorem take_succ_pass
    {k : Nat}
    (hTake : (Text.lines d.reindented).take k =
      d.text.lines.take k) :
    (Text.lines d.pass.reindented).take (k + 1) =
      (Text.lines d.reindented).take (k + 1) := by
  apply List.ext_getElem?
  intro i
  rw [List.getElem?_take, List.getElem?_take]
  split
  · rename_i hi
    rw [getElem?_pass_eq_iff hBlanks, steady_iff_decides]
    rintro j ⟨line, f, hLine, hBlank, hFrame, hAnchor⟩
    -- the line that decides is one of those settled before
    have hj : j < i :=
      d.mode.rules.anchor_lt d.mode.info hFrame hAnchor
    have hAt := congrArg (fun l => l[j]?) hTake
    simp only [List.getElem?_take, show j < k by omega,
      if_true] at hAt
    rw [← levelAt_pass_iff]
    simp only [levelAt, Text.levelAt, pass, hAt]
  · rfl

/- A second pass is for nothing when all lines are steady. -/
theorem pass_again_iff_steady :
    d.pass.reindented = d.reindented ↔ ∀ i, d.Steady i := by
  constructor
  · intro hSame i
    rw [← getElem?_pass_eq_iff hBlanks, hSame]
  · intro hSteady
    apply Text.eq_of_lines_eq
    apply List.ext_getElem?
    intro i
    exact (getElem?_pass_eq_iff hBlanks i).mpr (hSteady i)

end Blanks

/-
  A second pass over a Qhantoom document changes nothing if
  and only if the first one has put every line in place, and
  that is so if and only if the lines that decide where
  others go were in place before.
-/
theorem pass_again_iff
    (d : Document)
    (hMode : d.mode = Qhantoom.mode) :
    (d.pass.reindented = d.reindented ↔
      ∀ i, d.pass.InPlace i) ∧
    (d.pass.reindented = d.reindented ↔
      ∀ i j, d.Decides j i → d.InPlace j) := by
  have hBlanks := passesBlanks_of_mode hMode
  rw [pass_again_iff_steady hBlanks]
  constructor
  · exact forall_congr' fun i => (inPlace_pass_iff hBlanks i).symm
  · exact forall_congr' fun i => steady_iff_decides d i

theorem pass_again_iff_bracket :
    let d := ofText "  \x7b\nx".toList
    d.mode = Qhantoom.mode ∧
      ¬ (∀ i, d.pass.InPlace i) ∧
      ¬ (∀ i j, d.Decides j i → d.InPlace j) := by
  intro d
  have hMode : d.mode = Qhantoom.mode := mode_ofText _
  have hMoves : d.pass.reindented ≠ d.reindented := by
    change (ofText _).pass.reindented ≠ (ofText _).reindented
    rw [ofText_eq_compiled]
    decide +kernel
  have hIff := pass_again_iff d hMode
  exact ⟨hMode, fun h => hMoves (hIff.1.mpr h),
    fun h => hMoves (hIff.2.mpr h)⟩

/-
  A second pass may well change the text: the first one took
  the column of the bracket from where it stood before.
-/
theorem second_pass_moves :
    ¬ ∀ d : Document, d.mode = Qhantoom.mode →
      d.pass.reindented = d.reindented := by
  intro hAgain
  have hMoves :
      (ofText "  \x7b\nx".toList).pass.reindented ≠
        (ofText "  \x7b\nx".toList).reindented := by
    rw [ofText_eq_compiled]
    decide +kernel
  exact hMoves (hAgain _ (mode_ofText _))

------------------------------------------------------------
-- Many passes
------------------------------------------------------------

/- After some passes as many lines are settled. -/
theorem take_passes_succ
    {d : Document}
    (hBlanks : d.mode.rules.PassesBlanks)
    (m : Nat) :
    (d.passes (m + 1)).text.lines.take m =
      (d.passes m).text.lines.take m := by
  induction m with
  | zero => rfl
  | succ m ih =>
      apply take_succ_pass (d := d.passes m) _ ih
      rw [mode_passes]
      exact hBlanks

/- They are what they are after any more passes. -/
theorem take_passes
    {d : Document}
    (hBlanks : d.mode.rules.PassesBlanks)
    {k m : Nat}
    (hkm : k ≤ m) :
    (d.passes m).text.lines.take k =
      (d.passes k).text.lines.take k := by
  induction m, hkm using Nat.le_induction with
  | base => rfl
  | succ m hkm ih =>
      rw [← ih]
      have hTake := congrArg (List.take k)
        (take_passes_succ hBlanks m)
      rwa [List.take_take, List.take_take,
        Nat.min_eq_left hkm] at hTake

/- So all lines are settled after a pass for each. -/
theorem text_passes
    {d : Document}
    (hBlanks : d.mode.rules.PassesBlanks)
    {m : Nat}
    (hm : d.lineCount ≤ m) :
    (d.passes m).text = (d.passes d.lineCount).text := by
  have hAll : ∀ l, (d.passes l).text.lines.take d.lineCount =
      (d.passes l).text.lines := by
    intro l
    apply List.take_of_length_le
    rw [← lineCount_passes d l]
    exact Nat.le_refl _
  have hTake := take_passes hBlanks hm
  rw [hAll, hAll] at hTake
  exact Text.eq_of_lines_eq hTake

/-
  Passes over a Qhantoom document settle it line by line:
  the first lines, as many as there were passes, are the
  same after any more of them. As many passes as there are
  lines lead to a text that no pass changes.
-/
theorem passes_settle
    (d : Document)
    (hMode : d.mode = Qhantoom.mode) :
    (∀ k m, k ≤ m →
      (d.passes m).text.lines.take k =
        (d.passes k).text.lines.take k) ∧
    (d.passes d.lineCount).reindented =
      (d.passes d.lineCount).text ∧
    ∀ m, d.lineCount ≤ m →
      (d.passes m).text = (d.passes d.lineCount).text := by
  have hBlanks := passesBlanks_of_mode hMode
  refine ⟨fun k m => take_passes hBlanks, ?_,
    fun m => text_passes hBlanks⟩
  exact text_passes hBlanks (Nat.le_succ d.lineCount)

theorem passes_settle_bracket :
    let d := ofText "  \x7b\nx".toList
    d.mode = Qhantoom.mode ∧ d.lineCount = 2 ∧
      (d.passes 2).reindented = (d.passes 2).text := by
  intro d
  have hMode : d.mode = Qhantoom.mode := mode_ofText _
  have hCount : d.lineCount = 2 := by
    change (Text.lines "  \x7b\nx".toList).length = 2
    decide
  have hFixed := (passes_settle d hMode).2.1
  rw [hCount] at hFixed
  exact ⟨hMode, hCount, hFixed⟩

end Document

end Highlighter

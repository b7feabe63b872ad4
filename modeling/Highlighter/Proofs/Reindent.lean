import Highlighter.Document
import Highlighter.Proofs.Indent.Frames
import Highlighter.Proofs.Qhantoom.Blanks

/-
  Indenting anew, line by line: the lines of the text that
  comes out are the lines of the text that went in, each
  moved to its column or left as it was.

  Key definitions include:
    * `Document.movedLine`
    * `Document.movedLines`

  Main statements:
    * `Document.lines_reindented`
    * `Document.sameBodies_reindented`: nothing but leading
      blanks changes.
    * `Document.lines_of_reindented`: which lines of a
      Qhantoom document move, and where to.
-/

namespace Highlighter

namespace Document

------------------------------------------------------------
-- Moved lines
------------------------------------------------------------

/- A line moved to a column, as `moveLine` writes it. -/
def movedLine
    (options : IndentOptions)
    (line : Text.Line)
    (column : Option Nat) : Text.Line :=
  match column with
  | none => line
  | some column =>
      if line.body.isBlankText then
        line
      else
        ⟨line.body.reindent column options, line.terminator⟩

@[simp]
theorem movedLine_none
    (options : IndentOptions)
    (line : Text.Line) : movedLine options line none = line :=
  rfl

theorem movedLine_of_blank
    {line : Text.Line}
    (h : line.body.isBlankText = true)
    (options : IndentOptions)
    (column : Option Nat) :
    movedLine options line column = line := by
  cases column with
  | none => rfl
  | some column => exact if_pos h

theorem movedLine_of_not_blank
    {line : Text.Line}
    (h : line.body.isBlankText = false)
    (options : IndentOptions)
    (column : Nat) :
    movedLine options line (some column) =
      ⟨line.body.reindent column options, line.terminator⟩ :=
  if_neg (by simp [h])

/-
  A line is left as it was, or it is not blank and moved to
  a column.
-/
theorem movedLine_cases
    (options : IndentOptions)
    (line : Text.Line)
    (column : Option Nat) :
    movedLine options line column = line ∨
      ∃ n, line.body.isBlankText = false ∧
        movedLine options line column =
          ⟨line.body.reindent n options, line.terminator⟩ := by
  cases column with
  | none => exact Or.inl rfl
  | some n =>
      cases hBlank : line.body.isBlankText with
      | true => exact Or.inl (movedLine_of_blank hBlank ..)
      | false =>
          exact Or.inr ⟨n, rfl, movedLine_of_not_blank hBlank ..⟩

/- The lines that `moveLines` writes. -/
def movedLines (options : IndentOptions) :
    List Text.Line → List LineIndent → List Text.Line
  | [], _ => []
  | line :: lines, indents =>
      movedLine options line
          (indents.head?.bind LineIndent.indent) ::
        movedLines options lines indents.tail

theorem text_movedLine
    (options : IndentOptions)
    (line : Text.Line)
    (column : Option Nat) :
    (movedLine options line column).text =
      moveLine options line column := by
  cases column with
  | none => rfl
  | some column =>
      simp only [movedLine, moveLine]
      split <;> rfl

theorem join_movedLines
    (options : IndentOptions)
    (lines : List Text.Line)
    (indents : List LineIndent) :
    Text.join (movedLines options lines indents) =
      moveLines options lines indents := by
  induction lines generalizing indents with
  | nil => rfl
  | cons line lines ih =>
      rw [movedLines, Text.join_cons, text_movedLine, ih,
        moveLines]

/- To move a line changes nothing but its leading blanks. -/
theorem sameBody_movedLine
    (options : IndentOptions)
    (line : Text.Line)
    (column : Option Nat) :
    line.SameBody (movedLine options line column) := by
  rcases movedLine_cases options line column with
    hSame | ⟨n, -, hMoved⟩
  · rw [hSame]
    exact Text.Line.SameBody.refl line
  · rw [hMoved]
    exact ⟨(Text.trimStart_reindent ..).symm, rfl⟩

/- So the line that comes out can take its place. -/
theorem replaces_movedLine
    (options : IndentOptions)
    (line : Text.Line)
    (column : Option Nat) :
    (movedLine options line column).Replaces line := by
  rcases movedLine_cases options line column with
    hSame | ⟨n, hBlank, hMoved⟩
  · rw [hSame]
    exact Text.Line.Replaces.refl line
  · rw [hMoved]
    refine ⟨rfl, fun hFree => hFree.reindent n options, ?_⟩
    intro hBody
    have hTrim := Text.trimStart_reindent line.body n options
    rw [show line.body.reindent n options = [] from hBody]
      at hTrim
    rw [(Text.isBlankText_iff _).mpr hTrim.symm] at hBlank
    cases hBlank

------------------------------------------------------------
-- Lists of moved lines
------------------------------------------------------------

theorem replaces_movedLines
    (options : IndentOptions)
    (lines : List Text.Line)
    (indents : List LineIndent) :
    List.Forall₂ Text.Line.Replaces
      (movedLines options lines indents) lines := by
  induction lines generalizing indents with
  | nil => exact List.Forall₂.nil
  | cons line lines ih =>
      exact List.Forall₂.cons
        (replaces_movedLine options line _) (ih indents.tail)

/- Lines that are moved are still the lines of a text. -/
theorem areLines_movedLines
    {lines : List Text.Line}
    (h : Text.AreLines lines)
    (options : IndentOptions)
    (indents : List LineIndent) :
    Text.AreLines (movedLines options lines indents) :=
  h.of_replaces (replaces_movedLines options lines indents)

theorem sameBodies_movedLines
    (options : IndentOptions)
    (lines : List Text.Line)
    (indents : List LineIndent) :
    List.Forall₂ Text.Line.SameBody lines
      (movedLines options lines indents) := by
  induction lines generalizing indents with
  | nil => exact List.Forall₂.nil
  | cons line lines ih =>
      exact List.Forall₂.cons
        (sameBody_movedLine options line _) (ih indents.tail)

/- Each line is moved by its own indentation. -/
theorem getElem?_movedLines
    (options : IndentOptions)
    (lines : List Text.Line)
    (indents : List LineIndent)
    (i : Nat) :
    (movedLines options lines indents)[i]? =
      lines[i]?.map (fun line =>
        movedLine options line
          (indents[i]?.bind LineIndent.indent)) := by
  induction lines generalizing indents i with
  | nil => simp [movedLines]
  | cons line lines ih =>
      cases i with
      | zero => cases indents <;> rfl
      | succ i =>
          cases indents with
          | nil => simpa [movedLines] using ih [] i
          | cons indent indents =>
              simpa [movedLines] using ih indents i

------------------------------------------------------------
-- Documents
------------------------------------------------------------

/- The lines that come out are the lines moved. -/
theorem lines_reindented (d : Document) :
    Text.lines d.reindented =
      movedLines d.options d.text.lines d.indents := by
  rw [reindented, ← join_movedLines]
  exact (areLines_movedLines (Text.areLines_lines d.text)
    d.options d.indents).lines_join

/- They differ from the lines in leading blanks only. -/
theorem sameBodies_reindented (d : Document) :
    Text.SameBodies d.text d.reindented := by
  rw [Text.SameBodies, lines_reindented]
  exact sameBodies_movedLines d.options d.text.lines d.indents

/- There are as many of them. -/
theorem length_lines_reindented (d : Document) :
    (Text.lines d.reindented).length = d.text.lines.length :=
  (sameBodies_reindented d).length_eq.symm

/- The frames of the lines of a document. -/
def frames (d : Document) : List LineFrame :=
  d.mode.rules.frames d.mode.info d.text d.startState

/- The level that a bracket on a line asks for. -/
def levelAt (d : Document) (number : Nat) : Nat :=
  Text.levelAt d.options d.text.lines number

/- The column suggested for a line with a frame, if any. -/
def columnFor (d : Document) (f : LineFrame) : Option Nat :=
  f.anchor.map (Anchor.column d.levelAt)

theorem indents_eq (d : Document) :
    d.indents = d.frames.map (LineFrame.toIndent d.levelAt) :=
  d.mode.rules.lineIndents_eq d.mode.info d.text d.startState
    d.options

/- A line has a frame. -/
theorem exists_frame
    {d : Document}
    {i : Nat}
    {line : Text.Line}
    (h : d.text.lines[i]? = some line) :
    ∃ f, d.frames[i]? = some f := by
  rcases List.getElem?_eq_some_iff.mp h with ⟨hi, -⟩
  rw [← d.mode.rules.length_frames d.mode.info d.text
    d.startState] at hi
  exact ⟨_, List.getElem?_eq_getElem hi⟩

/- A line goes to the column that its frame asks for. -/
theorem getElem?_reindented
    {d : Document}
    {i : Nat}
    {line : Text.Line}
    (hLine : d.text.lines[i]? = some line)
    {f : LineFrame}
    (hFrame : d.frames[i]? = some f) :
    (Text.lines d.reindented)[i]? =
      some (movedLine d.options line (d.columnFor f)) := by
  rw [lines_reindented, getElem?_movedLines, hLine,
    indents_eq, List.getElem?_map, hFrame]
  rfl

/- No lines come after the last one. -/
theorem getElem?_reindented_of_none
    {d : Document}
    {i : Nat}
    (h : d.text.lines[i]? = none) :
    (Text.lines d.reindented)[i]? = none := by
  rw [lines_reindented, getElem?_movedLines, h]
  rfl

/- The state at a line start is that of its frame. -/
theorem getElem?_lineStates
    {d : Document}
    {i : Nat}
    {f : LineFrame}
    (hFrame : d.frames[i]? = some f) :
    d.lineStates[i]? = some f.startState := by
  have hStates :=
    (d.mode.rules.lineStates_agree d.mode.info d.options
      d.text d.startState).2.1
  have hMap : d.indents.map LineIndent.startState =
      d.lineStates := hStates
  rw [← hMap, indents_eq, List.getElem?_map,
    List.getElem?_map, hFrame]
  rfl

------------------------------------------------------------
-- Lines of Qhantoom documents
------------------------------------------------------------

/- The table of a Qhantoom document passes blanks over. -/
theorem passesBlanks_of_mode
    {d : Document}
    (hMode : d.mode = Qhantoom.mode) :
    d.mode.rules.PassesBlanks := by
  have hRules : d.mode.rules = Qhantoom.table := by
    rw [hMode, Qhantoom.mode]
  rw [hRules]
  exact Qhantoom.passesBlanks

theorem mode_ofText (text : Text) :
    (ofText text).mode = Qhantoom.mode := rfl

/- A document with the table as it is compiled. -/
theorem ofText_eq_compiled (text : Text) :
    ofText text =
      withMode text
        ⟨Qhantoom.name, Qhantoom.compiled, Qhantoom.info⟩ := by
  rw [ofText, Qhantoom.mode, Qhantoom.table_eq_compiled]

/- Qhantoom has lines that start in comments left alone. -/
theorem indentsIn_qhantoom (state : State) :
    Qhantoom.mode.info.indentsIn state = true ↔
      state ≠ State.comment := by
  cases state <;> decide

/-
  As many lines come out of a Qhantoom document as went in.
  A line that starts in a comment and a blank one stay as
  they are. Any other line is moved to the column suggested
  for it, and keeps all but its leading blanks; so is a line
  that starts in a string.
-/
theorem lines_of_reindented
    (d : Document)
    (hMode : d.mode = Qhantoom.mode) :
    (Text.lines d.reindented).length = d.lineCount ∧
    ∀ (i : Nat) (line : Text.Line) (state : State),
      d.text.lines[i]? = some line →
      d.lineStates[i]? = some state →
      (state = State.comment ∨ line.body.isBlankText = true →
        (Text.lines d.reindented)[i]? = some line) ∧
      (state ≠ State.comment → line.body.isBlankText = false →
        ∃ indent column, d.indents[i]? = some indent ∧
          indent.indent = some column ∧
          (Text.lines d.reindented)[i]? =
            some ⟨line.body.reindent column d.options,
              line.terminator⟩) := by
  refine ⟨length_lines_reindented d, ?_⟩
  intro i line state hLine hState
  rcases exists_frame hLine with ⟨f, hFrame⟩
  have hMoved := getElem?_reindented hLine hFrame
  rw [getElem?_lineStates hFrame] at hState
  cases hState
  have hSome : f.anchor.isSome = true ↔
      f.startState ≠ State.comment := by
    rw [d.mode.rules.isSome_anchor_framesFrom d.mode.info _ _
      _ _ _ f (List.mem_of_getElem? hFrame), hMode,
      indentsIn_qhantoom]
  constructor
  · intro hStays
    rw [hMoved]
    rcases hStays with hComment | hBlank
    · have hAnchor : f.anchor = none := by
        rw [← Option.not_isSome_iff_eq_none, hSome]
        exact not_not_intro hComment
      rw [columnFor, hAnchor, Option.map_none, movedLine_none]
    · rw [movedLine_of_blank hBlank]
  · intro hComment hBlank
    rcases Option.isSome_iff_exists.mp (hSome.mpr hComment)
      with ⟨anchor, hAnchor⟩
    refine ⟨f.toIndent d.levelAt, anchor.column d.levelAt,
      ?_, ?_, ?_⟩
    · rw [indents_eq, List.getElem?_map, hFrame]
      rfl
    · simp only [LineFrame.toIndent, hAnchor, Option.map_some]
    · rw [hMoved, columnFor, hAnchor, Option.map_some,
        movedLine_of_not_blank hBlank]

theorem lines_of_reindented_comment :
    let d := ofText "/*\n  a */".toList
    d.mode = Qhantoom.mode ∧
      d.lineStates[1]? = some State.comment ∧
      (Text.lines d.reindented)[1]? =
        some ⟨"  a */".toList, []⟩ := by
  intro d
  have hLine : d.text.lines[1]? =
      some ⟨"  a */".toList, []⟩ := by decide
  have hState : d.lineStates[1]? = some State.comment := by
    change (ofText _).lineStates[1]? = _
    rw [ofText_eq_compiled]
    decide +kernel
  exact ⟨rfl, hState,
    ((lines_of_reindented d rfl).2 1 _ _ hLine hState).1
      (Or.inl rfl)⟩

/-
  A line that starts in a string may lose the blanks that
  the string has there, so not all lines that start within
  literals stay as they are.
-/
theorem literal_moves :
    ¬ ∀ d : Document, d.mode = Qhantoom.mode →
      ∀ (i : Nat) (line : Text.Line) (state : State),
        d.text.lines[i]? = some line →
        d.lineStates[i]? = some state →
        state ≠ State.start ∨ line.body.isBlankText = true →
        (Text.lines d.reindented)[i]? = some line := by
  intro hStay
  have hLine : (Text.lines "\"a\n   b\"".toList)[1]? =
      some ⟨"   b\"".toList, []⟩ := by decide
  have hState : (ofText "\"a\n   b\"".toList).lineStates[1]? =
      some State.string := by
    rw [ofText_eq_compiled]
    decide +kernel
  have hMoved :
      (Text.lines (ofText "\"a\n   b\"".toList).reindented)[1]? ≠
        some ⟨"   b\"".toList, []⟩ := by
    rw [ofText_eq_compiled]
    decide +kernel
  exact hMoved
    (hStay _ rfl 1 _ _ hLine hState (Or.inl nofun))

end Document

end Highlighter

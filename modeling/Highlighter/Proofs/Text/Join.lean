import Highlighter.Proofs.Text.Blanks
import Highlighter.Proofs.Scan.Lines

/-
  Lines put together to a text: which lists of lines are the
  lines of the text that they make up, and lines that differ
  in their leading blanks only.

  Key definitions include:
    * `Text.AreLines`
    * `Text.Line.Replaces`
    * `Text.Line.SameBody`
    * `Text.SameBodies`

  Main statements:
    * `Text.areLines_lines` and `Text.AreLines.lines_join`:
      splitting and joining undo each other.
    * `Text.AreLines.of_replaces`
-/

namespace Highlighter

namespace Text

------------------------------------------------------------
-- Lists of lines
------------------------------------------------------------

/-
  A line can stand after a terminator: it does not begin
  with a line feed that would make one break out of a
  carriage return before it.
-/
def Line.MayFollow (next : Line) (terminator : Text) : Prop :=
  terminator = ['\r'] → next.body = [] →
    next.terminator ≠ ['\n']

/-
  Some lines are the lines of a text: none has a break in
  its body, each but the last one ends in a break, the last
  one in nothing, and no two breaks are one.
-/
inductive AreLines : List Line → Prop
  | last
      {body : Text}
      (hFree : body.BreakFree) : AreLines [⟨body, []⟩]
  | more
      {body terminator : Text}
      {next : Line}
      {rest : List Line}
      (hFree : body.BreakFree)
      (hBreak : isLineBreak terminator = true)
      (hFollows : next.MayFollow terminator)
      (hRest : AreLines (next :: rest)) :
      AreLines (⟨body, terminator⟩ :: next :: rest)

/- The same with the parts of lines as what is asked. -/
theorem AreLines.singleton
    {line : Line}
    (hFree : line.body.BreakFree)
    (hLast : line.terminator = []) : AreLines [line] := by
  rcases line with ⟨body, terminator⟩
  cases hLast
  exact last hFree

theorem AreLines.cons
    {line next : Line}
    {rest : List Line}
    (hFree : line.body.BreakFree)
    (hBreak : isLineBreak line.terminator = true)
    (hFollows : next.MayFollow line.terminator)
    (hRest : AreLines (next :: rest)) :
    AreLines (line :: next :: rest) :=
  more hFree hBreak hFollows hRest

/- A line that may follow does not add to the break. -/
theorem AreLines.head?_join
    {next : Line}
    {rest : List Line}
    (h : AreLines (next :: rest))
    (hFollows : next.MayFollow ['\r']) :
    (join (next :: rest)).head? ≠ some '\n' := by
  intro hHead
  cases h with
  | @last body hFree =>
      rw [join_cons, join_nil, Line.text, List.append_nil,
        List.append_nil] at hHead
      have hFalse := hFree '\n' (List.mem_of_head? hHead)
      cases hFalse
  | @more body terminator next rest hFree hBreak hNext
      hRest =>
      rw [join_cons, Line.text, List.append_assoc] at hHead
      cases body with
      | cons c body =>
          cases hHead
          have hFalse := hFree '\n' (List.mem_cons_self ..)
          cases hFalse
      | nil =>
          simp only [isLineBreak, Bool.or_eq_true,
            beq_iff_eq] at hBreak
          rcases hBreak with (rfl | rfl) | rfl
          · exact hFollows rfl rfl rfl
          · cases hHead
          · cases hHead

/- The break after a line is the terminator alone. -/
theorem AreLines.breakLength_eq
    {next : Line}
    {rest : List Line}
    (h : AreLines (next :: rest))
    {terminator : Text}
    (hBreak : isLineBreak terminator = true)
    (hFollows : next.MayFollow terminator) :
    breakLength (terminator ++ join (next :: rest)) =
      terminator.length := by
  simp only [isLineBreak, Bool.or_eq_true,
    beq_iff_eq] at hBreak
  rcases hBreak with (rfl | rfl) | rfl
  · rfl
  · rfl
  · have hHead := h.head?_join hFollows
    rw [List.singleton_append, breakLength_cons,
      if_neg (fun hBoth => hHead hBoth.2)]
    rfl

/- The lines of the text that lines make up are these. -/
theorem AreLines.lines_join
    {lines : List Line}
    (h : AreLines lines) : Text.lines (join lines) = lines := by
  induction h with
  | @last body hFree =>
      rw [join_cons, join_nil, Line.text, List.append_nil,
        List.append_nil]
      exact hFree.lines_eq
  | @more body terminator next rest hFree hBreak hFollows
      hRest ih =>
      have hLength := hRest.breakLength_eq hBreak hFollows
      have hPos : 0 < breakLength
          (terminator ++ join (next :: rest)) := by
        rw [hLength]
        exact List.length_pos_iff.mpr (isLineBreak_ne_nil hBreak)
      have hLines := lines_of_break hPos
      rw [hLength, List.take_left, List.drop_left, ih]
        at hLines
      rw [join_cons, Line.text, List.append_assoc,
        lines_append hFree hLines, List.append_nil]

/- A text is told by its lines. -/
theorem eq_of_lines_eq
    {s t : Text}
    (h : lines s = lines t) : s = t := by
  rw [← join_lines s, h, join_lines]

/- The lines of any text are such lines. -/
theorem areLines_lines (t : Text) : AreLines (lines t) := by
  rcases lines_cases t with
    ⟨hFree, hLines⟩ |
    ⟨body, terminator, rest, hText, hFree, hBreak, hLines⟩
  · rw [hLines]
    exact AreLines.last hFree
  · have hShorter : rest.length < t.length := by
      have hPos := List.length_pos_iff.mpr
        (isLineBreak_ne_nil hBreak)
      rw [hText]
      simp only [List.length_append]
      omega
    have hRest := areLines_lines rest
    rw [hLines]
    cases hNext : lines rest with
    | nil => exact absurd hNext (lines_ne_nil rest)
    | cons next more =>
        rw [hNext] at hRest
        refine AreLines.more hFree hBreak ?_ hRest
        -- else the break of the line would be `\r\n`
        rintro rfl hBody hTerminator
        have hJoin := join_lines rest
        rw [hNext, join_cons, Line.text, hBody, hTerminator,
          List.nil_append, List.singleton_append] at hJoin
        have hFeed : lines ('\r' :: '\n' :: join more) =
            ⟨[], ['\r', '\n']⟩ :: lines (join more) := rfl
        have hPair := lines_append hFree hFeed
        rw [hText, ← hJoin, List.singleton_append, hPair]
          at hLines
        simp at hLines
termination_by t.length

/- So none of them has a break in its body. -/
theorem AreLines.breakFree
    {lines : List Line}
    (h : AreLines lines) :
    ∀ line ∈ lines, line.body.BreakFree := by
  rw [← h.lines_join]
  exact breakFree_body (join lines)

------------------------------------------------------------
-- Lines in the place of others
------------------------------------------------------------

/-
  A line can take the place of another: it ends like that
  one, is as free of breaks, and is not empty unless that
  one is.
-/
structure Line.Replaces (new line : Line) : Prop where
  terminator_eq : new.terminator = line.terminator
  breakFree : line.body.BreakFree → new.body.BreakFree
  nil_of_nil : new.body = [] → line.body = []

theorem Line.Replaces.refl (line : Line) :
    line.Replaces line :=
  ⟨rfl, id, id⟩

/- It may follow what the other may follow. -/
theorem Line.Replaces.mayFollow
    {new line : Line}
    (h : new.Replaces line)
    {terminator : Text}
    (hFollows : line.MayFollow terminator) :
    new.MayFollow terminator := by
  intro hReturn hBody
  rw [h.terminator_eq]
  exact hFollows hReturn (h.nil_of_nil hBody)

/- Lines in the place of the lines of a text are lines. -/
theorem AreLines.of_replaces
    {lines new : List Line}
    (h : AreLines lines)
    (hNew : List.Forall₂ Line.Replaces new lines) :
    AreLines new := by
  induction h generalizing new with
  | last hFree =>
      rcases hNew with _ | ⟨hFirst, hNone⟩
      cases hNone
      exact AreLines.singleton (hFirst.breakFree hFree)
        hFirst.terminator_eq
  | more hFree hBreak hFollows hRest ih =>
      rcases hNew with _ | ⟨hFirst, hOthers⟩
      have hLines := ih hOthers
      rcases hOthers with _ | ⟨hSecond, -⟩
      have hSame := hFirst.terminator_eq
      refine AreLines.cons (hFirst.breakFree hFree) ?_ ?_ hLines
      · rw [hSame]
        exact hBreak
      · rw [hSame]
        exact hSecond.mayFollow hFollows

/- They end like those. -/
theorem map_terminator_of_replaces
    {lines new : List Line}
    (h : List.Forall₂ Line.Replaces new lines) :
    new.map Line.terminator = lines.map Line.terminator := by
  induction h with
  | nil => rfl
  | cons hFirst hRest ih =>
      rw [List.map_cons, List.map_cons, ih,
        hFirst.terminator_eq]

------------------------------------------------------------
-- Lines with the same bodies
------------------------------------------------------------

/-
  Two lines are the same but for their leading blanks.
-/
structure Line.SameBody (a b : Line) : Prop where
  trimStart_eq : a.body.trimStart = b.body.trimStart
  terminator_eq : a.terminator = b.terminator

/-
  Two texts have as many lines as each other, and the lines
  are the same but for their leading blanks.
-/
def SameBodies (s t : Text) : Prop :=
  List.Forall₂ Line.SameBody (lines s) (lines t)

instance (a b : Line) : Decidable (a.SameBody b) :=
  decidable_of_iff
    (a.body.trimStart = b.body.trimStart ∧
      a.terminator = b.terminator)
    ⟨fun h => ⟨h.1, h.2⟩, fun h => ⟨h.1, h.2⟩⟩

theorem Line.SameBody.refl (line : Line) :
    line.SameBody line :=
  ⟨rfl, rfl⟩

/- Lines that differ in leading blanks are blank together. -/
theorem Line.SameBody.isBlankText_eq
    {a b : Line}
    (h : a.SameBody b) :
    a.body.isBlankText = b.body.isBlankText :=
  isBlankText_congr h.trimStart_eq

end Text

end Highlighter

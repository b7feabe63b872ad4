import Highlighter.Proofs.Indent
import Highlighter.Proofs.Scan.Outline
import Mathlib.Data.List.Forall2

/-
  Frames: what indentation says of lines before any column
  is measured. Where a line indents with a level, its frame
  has the number of the line that opened that level. The
  columns come from the lines that the numbers stand for.

  Key definitions include:
    * `Anchor`
    * `LineFrame`
    * `RuleTable.frames`
    * `Text.levelAt`

  Main statements:
    * `RuleTable.lineIndents_eq`: frames and the columns of
      the lines give the indentation of the lines.
    * `RuleTable.anchor_lt`: a level was opened on a line
      before.
    * `RuleTable.PassesBlanks.frames_eq`: frames do not
      depend on the leading blanks of lines.
-/

namespace Highlighter

------------------------------------------------------------
-- Anchors
------------------------------------------------------------

/-
  Where the column suggested for a line is taken from: the
  margin, or the line with the bracket that opened the level
  the line is in.
-/
inductive Anchor
  | margin
  | line (number : Nat)
deriving DecidableEq, Repr

/- The column it stands for, given the level of each line. -/
def Anchor.column (level : Nat → Nat) : Anchor → Nat
  | margin => 0
  | line number => level number

/- The anchor for the innermost of some opening lines. -/
def Anchor.ofOpeners : List Nat → Anchor
  | [] => margin
  | number :: _ => line number

theorem Anchor.column_ofOpeners
    (level : Nat → Nat)
    (openers : List Nat) :
    (ofOpeners openers).column level =
      (openers.map level).headD 0 := by
  cases openers <;> rfl

/-
  The frame of a line: its number, the state it starts in,
  the number of levels before it and their change across it,
  and its anchor, if a column is suggested for it at all.
-/
structure LineFrame where
  line : Nat
  startState : State
  depth : Nat
  delta : Int
  anchor : Option Anchor
deriving DecidableEq, Repr

/- The indentation of a line, given the level of each. -/
def LineFrame.toIndent (level : Nat → Nat) (f : LineFrame) :
    LineIndent :=
  ⟨f.line, f.startState, f.depth, f.delta,
    f.anchor.map (Anchor.column level)⟩

namespace Text

/-
  The level that a bracket on a line asks for, given the
  lines.
-/
def levelAt (options : IndentOptions) (lines : List Line)
    (number : Nat) : Nat :=
  let body := (lines[number]?.map Line.body).getD []
  body.level options

theorem levelAt_of_getElem?
    {lines : List Line}
    {number : Nat}
    {line : Line}
    (h : lines[number]? = some line)
    (options : IndentOptions) :
    levelAt options lines number =
      line.body.level options := by
  rw [levelAt, h]
  rfl

end Text

------------------------------------------------------------
-- Effects on opening lines
------------------------------------------------------------

namespace Token

/- Levels are measured before or after all the same. -/
theorem map_foldl_applyEffect
    (level : Nat → Nat)
    (number : Nat)
    (openers : List Nat)
    (tokens : List Token) :
    (tokens.foldl (applyEffect number) openers).map level =
      tokens.foldl (applyEffect (level number))
        (openers.map level) := by
  induction tokens generalizing openers with
  | nil => rfl
  | cons t tokens ih =>
      have hOne : (applyEffect number openers t).map level =
          applyEffect (level number) (openers.map level)
            t := by
        cases hEffect : t.effect <;>
          simp [applyEffect, hEffect]
      rw [List.foldl_cons, List.foldl_cons, ih, hOne]

/- What is open was open before or was opened here. -/
theorem mem_foldl_applyEffect
    {number : Nat}
    {openers : List Nat}
    {tokens : List Token}
    {j : Nat}
    (h : j ∈ tokens.foldl (applyEffect number) openers) :
    j = number ∨ j ∈ openers := by
  induction tokens generalizing openers with
  | nil => exact Or.inr h
  | cons t tokens ih =>
      rcases ih h with rfl | hMem
      · exact Or.inl rfl
      · unfold applyEffect at hMem
        split at hMem
        · exact List.mem_cons.mp hMem
        · exact Or.inr (List.mem_of_mem_tail hMem)
        · exact Or.inr hMem

/- Tokens that are no marks have no effect. -/
theorem foldl_applyEffect_outline
    (number : Nat)
    (openers : List Nat)
    (tokens : List Token) :
    (outline tokens).foldl (applyEffect number) openers =
      tokens.foldl (applyEffect number) openers := by
  induction tokens generalizing openers with
  | nil => rfl
  | cons t tokens ih =>
      rw [outline_cons, List.foldl_append, ih,
        List.foldl_cons]
      congr 1
      cases hMark : t.isMark with
      | true =>
          rw [outline_of_isMark hMark]
          rfl
      | false =>
          rw [outline_of_not_isMark hMark]
          rw [isMark, Bool.or_eq_false_iff] at hMark
          have hEffect : t.effect = Effect.none := by
            simpa [hasEffect] using hMark.2
          simp only [List.foldl_nil, applyEffect, hEffect]

/- An outline is divided where the tokens are. -/
theorem beforeBreak_outline (tokens : List Token) :
    beforeBreak (outline tokens) =
      outline (beforeBreak tokens) := by
  induction tokens with
  | nil => rfl
  | cons t tokens ih =>
      rw [outline_cons]
      cases hBreak : t.isLineBreak with
      | true =>
          rw [outline_of_isMark (by simp [isMark, hBreak])]
          simp [beforeBreak, hBreak]
      | false =>
          have hRest : beforeBreak (t :: tokens) =
              t :: beforeBreak tokens := by
            simp [beforeBreak, hBreak]
          rw [hRest, outline_cons t (beforeBreak tokens), ← ih]
          cases hMark : t.isMark with
          | true =>
              rw [outline_of_isMark hMark]
              simp [beforeBreak, hBreak]
          | false =>
              rw [outline_of_not_isMark hMark]
              rfl

theorem fromBreak_outline (tokens : List Token) :
    fromBreak (outline tokens) =
      outline (fromBreak tokens) := by
  induction tokens with
  | nil => rfl
  | cons t tokens ih =>
      cases hBreak : t.isLineBreak with
      | true =>
          have hAll : fromBreak (t :: tokens) =
              t :: tokens := by
            simp [fromBreak, hBreak]
          rw [hAll, outline_cons,
            outline_of_isMark (by simp [isMark, hBreak])]
          simp [fromBreak, hBreak]
      | false =>
          have hRest : fromBreak (t :: tokens) =
              fromBreak tokens := by
            simp [fromBreak, hBreak]
          rw [hRest, ← ih, outline_cons]
          cases hMark : t.isMark with
          | true =>
              rw [outline_of_isMark hMark]
              simp [fromBreak, hBreak]
          | false =>
              rw [outline_of_not_isMark hMark]
              rfl

/- Tokens from a break on begin with it, if there is one. -/
theorem fromBreak_cases (tokens : List Token) :
    fromBreak tokens = [] ∨
      ∃ brk rest, fromBreak tokens = brk :: rest ∧
        brk.isLineBreak = true := by
  induction tokens with
  | nil => exact Or.inl rfl
  | cons t tokens ih =>
      cases hBreak : t.isLineBreak with
      | true =>
          refine Or.inr ⟨t, tokens, ?_, hBreak⟩
          simp [fromBreak, hBreak]
      | false =>
          have hRest : fromBreak (t :: tokens) =
              fromBreak tokens := by
            simp [fromBreak, hBreak]
          rwa [hRest]

end Token

------------------------------------------------------------
-- Frames
------------------------------------------------------------

namespace RuleTable

variable (table : RuleTable)
variable (m : LanguageMeta)

/-
  The anchor of a line, given the lines that opened the
  levels before it, innermost first.
-/
def anchorFor
    (state : State)
    (openers : List Nat)
    (body : Text) : Option Anchor :=
  if m.indentsIn state then
    some (Anchor.ofOpeners
      (openers.drop (table.closers (table.rules state) body)))
  else
    none

/-
  The frames of lines from a number on, given the state and
  the opening lines at the start of the first of them and
  the tokens from there on.
-/
def framesFrom :
    Nat → State → List Nat → List Token → List Text.Line →
      List LineFrame
  | _, _, _, _, [] => []
  | number, state, openers, tokens, line :: lines =>
      let openers' :=
        (Token.beforeBreak tokens).foldl
          (Token.applyEffect number) openers
      let after := Token.fromBreak tokens
      let anchor :=
        table.anchorFor m state openers line.body.trimStart
      ⟨number, state, openers.length,
          (openers'.length : Int) - openers.length, anchor⟩ ::
        framesFrom (number + 1)
          (Token.endState state after.head?.toList) openers'
          after.tail lines

/- The frame of every line of a text. -/
def frames (text : Text) (state : State) : List LineFrame :=
  table.framesFrom m 0 state [] (table.scan text state)
    text.lines

------------------------------------------------------------
-- Columns
------------------------------------------------------------

/- The column suggested is that of the anchor. -/
theorem suggest_map
    (level : Nat → Nat)
    (state : State)
    (openers : List Nat)
    (body : Text) :
    table.suggest m state (openers.map level) body =
      (table.anchorFor m state openers body).map
        (Anchor.column level) := by
  unfold suggest anchorFor
  split
  · simp only [← List.map_drop, ← Anchor.column_ofOpeners,
      Option.map_some]
  · rfl

theorem indentsFrom_eq
    {options : IndentOptions}
    {level : Nat → Nat}
    {lines : List Text.Line}
    (number : Nat)
    (hLevel : ∀ (i : Nat) (line : Text.Line),
      lines[i]? = some line →
      level (number + i) = line.body.level options)
    (state : State)
    (openers : List Nat)
    (tokens : List Token) :
    table.indentsFrom m options number state
        (openers.map level) tokens lines =
      (table.framesFrom m number state openers tokens
        lines).map (LineFrame.toIndent level) := by
  induction lines generalizing number state openers tokens with
  | nil => rfl
  | cons line lines ih =>
      have hHere := hLevel 0 line rfl
      rw [Nat.add_zero] at hHere
      have hLater : ∀ (i : Nat) (line' : Text.Line),
          lines[i]? = some line' →
          level (number + 1 + i) =
            line'.body.level options := by
        intro i line' hLine
        rw [Nat.add_assoc, Nat.add_comm 1 i]
        exact hLevel (i + 1) line' hLine
      have hRest := ih (number + 1) hLater
      simp only [indentsFrom, framesFrom, List.map_cons,
        ← hHere, ← Token.map_foldl_applyEffect, hRest,
        suggest_map, List.length_map, LineFrame.toIndent]

/-
  The indentation of lines is told by their frames and the
  columns that the lines stand at.
-/
theorem lineIndents_eq
    (text : Text)
    (state : State)
    (options : IndentOptions) :
    table.lineIndents m text state options =
      (table.frames m text state).map
        (LineFrame.toIndent
          (Text.levelAt options text.lines)) := by
  apply table.indentsFrom_eq m 0 _ state []
  intro i line hLine
  rw [Nat.zero_add, Text.levelAt_of_getElem? hLine]

------------------------------------------------------------
-- Anchors of frames
------------------------------------------------------------

theorem length_framesFrom
    (number : Nat)
    (state : State)
    (openers : List Nat)
    (tokens : List Token)
    (lines : List Text.Line) :
    (table.framesFrom m number state openers tokens
      lines).length = lines.length := by
  induction lines generalizing number state openers tokens with
  | nil => rfl
  | cons line lines ih =>
      simp only [framesFrom, List.length_cons, ih]

/- There is a frame for each line. -/
theorem length_frames
    (text : Text)
    (state : State) :
    (table.frames m text state).length = text.lines.length :=
  table.length_framesFrom m 0 state [] _ _

/- The state tells whether there is an anchor. -/
theorem isSome_anchor_framesFrom
    (number : Nat)
    (state : State)
    (openers : List Nat)
    (tokens : List Token)
    (lines : List Text.Line) :
    ∀ f ∈ table.framesFrom m number state openers tokens
        lines,
      f.anchor.isSome = m.indentsIn f.startState := by
  induction lines generalizing number state openers tokens with
  | nil =>
      intro f hf
      cases hf
  | cons line lines ih =>
      intro f hf
      rcases List.mem_cons.mp hf with rfl | hRest
      · unfold anchorFor
        cases hIndents : m.indentsIn state <;> simp
      · exact ih _ _ _ _ f hRest

/- An anchor is the margin or one of the opening lines. -/
theorem mem_openers_of_anchorFor
    {state : State}
    {openers : List Nat}
    {body : Text}
    {j : Nat}
    (h : table.anchorFor m state openers body =
      some (Anchor.line j)) : j ∈ openers := by
  unfold anchorFor at h
  split at h
  · cases hDrop : openers.drop
        (table.closers (table.rules state) body) with
    | nil =>
        rw [hDrop] at h
        cases h
    | cons number rest =>
        rw [hDrop] at h
        cases h
        apply List.mem_of_mem_drop
        rw [hDrop]
        exact List.mem_cons_self ..
  · cases h

theorem anchor_lt_framesFrom
    {number : Nat}
    {openers : List Nat}
    (hOpeners : ∀ j ∈ openers, j < number)
    (state : State)
    (tokens : List Token)
    (lines : List Text.Line)
    {i : Nat}
    {f : LineFrame}
    (hFrame :
      (table.framesFrom m number state openers tokens
        lines)[i]? = some f)
    {j : Nat}
    (hAnchor : f.anchor = some (Anchor.line j)) :
    j < number + i := by
  induction lines generalizing number state openers tokens i with
  | nil => cases hFrame
  | cons line lines ih =>
      cases i with
      | zero =>
          cases hFrame
          exact hOpeners j
            (table.mem_openers_of_anchorFor m hAnchor)
      | succ i =>
          have hOpeners' : ∀ k ∈
              (Token.beforeBreak tokens).foldl
                (Token.applyEffect number) openers,
              k < number + 1 := by
            intro k hk
            rcases Token.mem_foldl_applyEffect hk with
              rfl | hMem
            · exact Nat.lt_succ_self k
            · exact Nat.lt_succ_of_lt (hOpeners k hMem)
          have hLt := ih hOpeners' _ _ hFrame
          omega

/- The anchor of a line is a line before it. -/
theorem anchor_lt
    {text : Text}
    {state : State}
    {i : Nat}
    {f : LineFrame}
    (hFrame : (table.frames m text state)[i]? = some f)
    {j : Nat}
    (hAnchor : f.anchor = some (Anchor.line j)) :
    j < i := by
  have hNone : ∀ j ∈ ([] : List Nat), j < 0 := by
    intro j hj
    cases hj
  have hLt := table.anchor_lt_framesFrom m hNone state _ _
    hFrame hAnchor
  rwa [Nat.zero_add] at hLt

------------------------------------------------------------
-- Frames and leading blanks
------------------------------------------------------------

/- Frames are told by the outline of the tokens. -/
theorem framesFrom_outline
    (number : Nat)
    (state : State)
    (openers : List Nat)
    (tokens : List Token)
    (lines : List Text.Line) :
    table.framesFrom m number state openers
        (Token.outline tokens) lines =
      table.framesFrom m number state openers tokens
        lines := by
  induction lines generalizing number state openers tokens with
  | nil => rfl
  | cons line lines ih =>
      simp only [framesFrom, Token.beforeBreak_outline,
        Token.foldl_applyEffect_outline,
        Token.fromBreak_outline]
      rcases Token.fromBreak_cases tokens with
        hNil | ⟨brk, rest, hFrom, hBreak⟩
      · rw [hNil]
        rfl
      · rw [hFrom, Token.outline_cons, Token.outline_of_isMark
          (by simp [Token.isMark, hBreak])]
        simp only [List.singleton_append, List.head?_cons,
          List.tail_cons, Option.toList_some,
          Token.endState_cons, Token.stateAfter_unplaced, ih]

/- And by what stands on the lines after their blanks. -/
theorem framesFrom_lines
    {xs ys : List Text.Line}
    (h : List.Forall₂ Text.Line.SameBody xs ys)
    (number : Nat)
    (state : State)
    (openers : List Nat)
    (tokens : List Token) :
    table.framesFrom m number state openers tokens xs =
      table.framesFrom m number state openers tokens ys := by
  induction h generalizing number state openers tokens with
  | nil => rfl
  | cons hLine hRest ih =>
      simp only [framesFrom, hLine.trimStart_eq, ih]

variable {table}

/-
  A table that passes blanks over gives the same frames to
  texts whose lines differ in leading blanks only.
-/
theorem PassesBlanks.frames_eq
    (h : table.PassesBlanks)
    {s t : Text}
    (hSame : Text.SameBodies s t)
    (state : State) :
    table.frames m s state = table.frames m t state := by
  unfold frames
  rw [← framesFrom_outline, (h.sameTrace hSame state).outline_eq,
    framesFrom_outline, table.framesFrom_lines m hSame]

end RuleTable

end Highlighter

import Highlighter.Proofs.Indent.Frames

/-
  Indentation told by the brackets that are open: the column
  suggested for a line comes from the line on which the
  innermost bracket stands that the line itself leaves open.

  Key definitions include:
    * `Text.LiesOn`
    * `Token.openBy`

  Main statements:
    * `RuleTable.anchor_framesFrom`: the lines that opened
      the levels before a line are those on which the open
      brackets stand.
    * `RuleTable.indent_of_openBy`
-/

namespace Highlighter

/- Lists that go along have elements at the same places. -/
theorem forall₂_getElem?
    {α β : Type}
    {R : α → β → Prop}
    {xs : List α}
    {ys : List β}
    (h : List.Forall₂ R xs ys)
    (i : Nat) :
    (xs[i]? = none ∧ ys[i]? = none) ∨
      ∃ x y, xs[i]? = some x ∧ ys[i]? = some y ∧ R x y := by
  induction h generalizing i with
  | nil => exact Or.inl ⟨rfl, rfl⟩
  | @cons x y xs ys hFirst hRest ih =>
      cases i with
      | zero => exact Or.inr ⟨x, y, rfl, rfl, hFirst⟩
      | succ i => exact ih i

/- The anchor that is left when some levels are closed. -/
theorem Anchor.column_drop
    (level : Nat → Nat)
    (openers : List Nat)
    (n : Nat) :
    (ofOpeners (openers.drop n)).column level =
      (openers[n]?.map level).getD 0 := by
  rw [column_ofOpeners, List.map_drop,
    List.headD_eq_head?_getD, List.head?_drop,
    List.getElem?_map]

namespace Text

/- A byte offset lies on a line, given all lines. -/
def LiesOn (lines : List Line) (offset number : Nat) : Prop :=
  lineOffset lines number ≤ offset ∧
    offset < lineOffset lines (number + 1)

/- Past the last line there is no offset. -/
theorem LiesOn.exists_line
    {lines : List Line}
    {offset number : Nat}
    (h : LiesOn lines offset number) :
    ∃ line, lines[number]? = some line := by
  cases hLine : lines[number]? with
  | some line => exact ⟨line, rfl⟩
  | none =>
      have hEnd := List.getElem?_eq_none_iff.mp hLine
      rcases h with ⟨hLe, hLt⟩
      rw [lineOffset, List.take_of_length_le hEnd] at hLe
      rw [lineOffset, List.take_of_length_le (by omega)] at hLt
      omega

end Text

------------------------------------------------------------
-- Open brackets
------------------------------------------------------------

namespace Token

/-
  The open brackets after one more token, newest first: an
  indent is one more, and a dedent closes the newest one.
-/
def openStep (stack : List Token) (t : Token) : List Token :=
  match t.effect with
  | Effect.indent => t :: stack
  | Effect.dedent => stack.tail
  | Effect.none => stack

/-
  The brackets left open by the tokens that end at a byte
  offset or before it, newest first.
-/
def openBy (tokens : List Token) (offset : Nat) :
    List Token :=
  foldBy openStep [] tokens offset

/- Each open bracket is a token that indents. -/
theorem mem_foldl_openStep
    {tokens stack : List Token}
    {t : Token}
    (h : t ∈ tokens.foldl openStep stack) :
    t ∈ stack ∨ t ∈ tokens ∧ t.effect = Effect.indent := by
  induction tokens generalizing stack with
  | nil => exact Or.inl h
  | cons u tokens ih =>
      rcases ih h with hMem | ⟨hMem, hEffect⟩
      · unfold openStep at hMem
        split at hMem
        · rename_i hEffect
          rcases List.mem_cons.mp hMem with rfl | hOld
          · exact Or.inr ⟨List.mem_cons_self .., hEffect⟩
          · exact Or.inl hOld
        · exact Or.inl (List.mem_of_mem_tail hMem)
        · exact Or.inl hMem
      · exact Or.inr ⟨List.mem_cons_of_mem u hMem, hEffect⟩

theorem mem_openBy
    {tokens : List Token}
    {offset : Nat}
    {t : Token}
    (h : t ∈ openBy tokens offset) :
    t ∈ tokens ∧ t.effect = Effect.indent := by
  rcases mem_foldl_openStep h with hMem | ⟨hMem, hEffect⟩
  · cases hMem
  · exact ⟨(List.mem_filter.mp hMem).1, hEffect⟩

/-
  Along the tokens of a line the stack of open brackets goes
  with that of the lines they stand on.
-/
theorem forall₂_openStep
    {R : Token → Nat → Prop}
    {number : Nat}
    {tokens : List Token}
    (hTokens : ∀ t ∈ tokens, R t number)
    {stack : List Token}
    {openers : List Nat}
    (h : List.Forall₂ R stack openers) :
    List.Forall₂ R (tokens.foldl openStep stack)
      (tokens.foldl (applyEffect number) openers) := by
  induction tokens generalizing stack openers with
  | nil => exact h
  | cons t tokens ih =>
      rw [List.foldl_cons, List.foldl_cons]
      apply ih fun u hu =>
        hTokens u (List.mem_cons_of_mem t hu)
      have hFirst := hTokens t (List.mem_cons_self ..)
      cases hEffect : t.effect with
      | none =>
          simp only [openStep, applyEffect, hEffect]
          exact h
      | indent =>
          simp only [openStep, applyEffect, hEffect]
          exact List.Forall₂.cons hFirst h
      | dedent =>
          simp only [openStep, applyEffect, hEffect]
          cases h with
          | nil => exact List.Forall₂.nil
          | cons hNewest hOthers => exact hOthers

/- The tokens of the first of some lines lie on it. -/
theorem Tiles.liesOn
    {n : Nat}
    {tokens : List Token}
    {body terminator : Text}
    {lines all : List Text.Line}
    {number : Nat}
    (h : Tiles n tokens body)
    (hAll : ∀ i, Text.lineOffset all (number + i) =
      n + Text.lineOffset (⟨body, terminator⟩ :: lines) i) :
    ∀ t ∈ tokens, Text.LiesOn all t.start number := by
  intro t ht
  have hFrom : Text.lineOffset all number = n := hAll 0
  have hTo := hAll 1
  rw [Text.lineOffset_one, Text.Line.text,
    Text.size_append] at hTo
  simp only at hTo
  have hBounds := h.bounds t ht
  have hLt := start_lt_stop (h.text_ne_nil t ht)
  constructor
  · omega
  · omega

end Token

------------------------------------------------------------
-- Anchors
------------------------------------------------------------

namespace RuleTable

variable (table : RuleTable)
variable (m : LanguageMeta)

/-
  The lines that opened the levels before a line are those
  on which the open brackets stand, and its anchor is one of
  these.
-/
theorem anchor_framesFrom
    {n : Nat}
    {tokens : List Token}
    {lines : List Text.Line}
    (h : Token.Aligned n tokens lines)
    {all : List Text.Line}
    {number : Nat}
    (hAll : ∀ i, Text.lineOffset all (number + i) =
      n + Text.lineOffset lines i)
    (state : State)
    {stack : List Token}
    {openers : List Nat}
    (hStack : List.Forall₂
      (fun t => Text.LiesOn all t.start) stack openers)
    {i : Nat}
    {f : LineFrame}
    {line : Text.Line}
    (hFrame :
      (table.framesFrom m number state openers tokens
        lines)[i]? = some f)
    (hLine : lines[i]? = some line) :
    ∃ openers',
      List.Forall₂ (fun t => Text.LiesOn all t.start)
        (Token.foldBy Token.openStep stack tokens
          (n + Text.lineOffset lines i)) openers' ∧
      f.anchor =
        table.anchorFor m f.startState openers'
          line.body.trimStart := by
  induction h generalizing number state stack openers i with
  | @last n tokens body hFree hTiles =>
      cases i with
      | succ i => cases hLine
      | zero =>
          cases hFrame
          cases hLine
          refine ⟨openers, ?_, rfl⟩
          rw [Text.lineOffset_zero, Nat.add_zero,
            hTiles.foldBy_start]
          exact hStack
  | @more n tokens rest body brk lines hFree hTiles hStart
      hBreak hEffect hRest ih =>
      cases i with
      | zero =>
          cases hFrame
          cases hLine
          refine ⟨openers, ?_, rfl⟩
          have hTokens :=
            (Token.Aligned.more hFree hTiles hStart hBreak
              hEffect hRest).tiles
          rw [Text.lineOffset_zero, Nat.add_zero,
            hTokens.foldBy_start]
          exact hStack
      | succ i =>
          have hNot := hTiles.not_isLineBreak hFree
          simp only [framesFrom,
            Token.beforeBreak_append hNot hBreak,
            Token.fromBreak_append hNot hBreak,
            List.head?_cons, List.tail_cons,
            List.getElem?_cons_succ] at hFrame hLine
          have hLater : ∀ j,
              Text.lineOffset all (number + 1 + j) =
                brk.stop + Text.lineOffset lines j := by
            intro j
            have hNext := hAll (j + 1)
            rw [Text.lineOffset_succ, Text.Line.text,
              Text.size_append] at hNext
            rw [Token.stop, hStart, Nat.add_assoc number,
              Nat.add_comm 1 j, hNext]
            simp only
            omega
          have hStack' := Token.forall₂_openStep
            (hTiles.liesOn hAll) hStack
          have hNothing : ∀ stack,
              Token.openStep stack brk = stack := by
            intro stack
            simp only [Token.openStep, hEffect]
          rw [Token.foldBy_more hTiles hStart hBreak hNothing]
          exact ih hLater _ hStack' hFrame hLine

/-
  Of the open brackets before a line those are passed over
  that it closes itself with its first characters. The next
  one gives the line its column, and if there is none it is
  the margin.
-/
theorem indent_of_openBy
    (text : Text)
    (state : State)
    (options : IndentOptions)
    {i : Nat}
    {line : Text.Line}
    (hLine : text.lines[i]? = some line) :
    let lines := text.lines
    let stack := Token.openBy (table.scan text state)
      (Text.lineOffset lines i)
    ∃ f, (table.lineIndents m text state options)[i]? =
        some f ∧
      (table.lineStates text state)[i]? =
        some f.startState ∧
      let closed := table.closers (table.rules f.startState)
        line.body.trimStart
      (f.indent = none ↔ m.indentsIn f.startState = false) ∧
      (m.indentsIn f.startState = true →
        (stack[closed]? = none → f.indent = some 0) ∧
        ∀ bracket, stack[closed]? = some bracket →
          ∃ number opener,
            Text.LiesOn lines bracket.start number ∧
            lines[number]? = some opener ∧
            f.indent = some (opener.body.level options)) := by
  intro lines stack
  have hLt : i < lines.length :=
    (List.getElem?_eq_some_iff.mp hLine).1
  rw [← table.length_frames m text state] at hLt
  have hFrame := List.getElem?_eq_getElem hLt
  generalize (table.frames m text state)[i] = frame
    at hFrame
  have hIndent :
      (table.lineIndents m text state options)[i]? =
        some (frame.toIndent (Text.levelAt options lines)) := by
    rw [lineIndents_eq, List.getElem?_map, hFrame]
    rfl
  refine ⟨_, hIndent, ?_, ?_⟩
  · have hStates :=
      (table.lineStates_agree m options text state).2.1
    rw [← hStates, List.getElem?_map, hIndent]
    rfl
  · have hAligned := table.scanFrom_aligned ⟨0, state⟩ text
    have hAll : ∀ j, Text.lineOffset lines (0 + j) =
        0 + Text.lineOffset lines j := by
      intro j
      rw [Nat.zero_add, Nat.zero_add]
    rcases table.anchor_framesFrom m hAligned hAll state
        List.Forall₂.nil hFrame hLine with
      ⟨openers, hOpeners, hAnchor⟩
    rw [Nat.zero_add] at hOpeners
    have hColumn :
        m.indentsIn frame.startState = true →
          (frame.toIndent (Text.levelAt options lines)).indent =
            some ((openers[table.closers
              (table.rules frame.startState)
              line.body.trimStart]?.map
                (Text.levelAt options lines)).getD 0) := by
      intro hIndents
      rw [LineFrame.toIndent, hAnchor, anchorFor,
        if_pos hIndents, Option.map_some, Anchor.column_drop]
    refine ⟨?_, fun hIndents => ?_⟩
    · cases hIndents : m.indentsIn frame.startState with
      | false =>
          simp only [LineFrame.toIndent, hAnchor, anchorFor,
            hIndents, Bool.false_eq_true, if_false,
            Option.map_none]
      | true =>
          rw [hColumn hIndents]
          change _ ↔ m.indentsIn frame.startState = false
          simp only [hIndents, reduceCtorEq]
    · rw [hColumn hIndents]
      rcases forall₂_getElem? hOpeners _ with
        ⟨hNone, hNone'⟩ | ⟨t, number, hSome, hSome', hOn⟩
      · constructor
        · intro _
          rw [hNone']
          rfl
        · intro bracket hBracket
          cases hNone.symm.trans hBracket
      · constructor
        · intro hNone
          cases hNone.symm.trans hSome
        · intro bracket hBracket
          cases hSome.symm.trans hBracket
          rcases hOn.exists_line with ⟨opener, hOpener⟩
          refine ⟨number, opener, hOn, hOpener, ?_⟩
          rw [hSome', ← Text.levelAt_of_getElem? hOpener]
          rfl

end RuleTable

end Highlighter

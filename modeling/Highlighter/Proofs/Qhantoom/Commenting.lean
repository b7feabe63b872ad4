import Highlighter.Proofs.Qhantoom.Blanks
import Highlighter.Proofs.Qhantoom.Markers
import Highlighter.Qhantoom

/-
  Text that an editor turns into a comment is scanned as one:
  a line with the marker in it is skipped blanks and a
  comment, and a text between the markers of a block is one
  comment unless it closes that comment itself.

  Key definitions include:
    * `Qhantoom.skipped`
    * `Qhantoom.IsOneComment`

  Main statements:
    * `Qhantoom.scan_commentLine`
    * `Qhantoom.isOneComment_wrapBlockComment_iff`
    * `Qhantoom.commented_scans_as_comment`
-/

namespace Highlighter

namespace Qhantoom

open RuleTable

------------------------------------------------------------
-- Lines
------------------------------------------------------------

/- Characters skipped in the start state, one by one. -/
def skipped (offset : Nat) (s : Text) : List Token :=
  Token.layOut State.start Effect.none offset
    (s.map fun c => ⟨none, [c]⟩)

/- A blank is skipped. -/
theorem recovers_blank
    {cursor : Cursor}
    (hState : cursor.state = State.start)
    {c : Char}
    (hBlank : Text.isBlank c = true)
    (hBreak : Text.isBreakChar c = false)
    (rest : Text) : table.Recovers cursor (c :: rest) := by
  have hZero := (Text.breakLength_eq_zero_iff c rest).mpr hBreak
  refine ⟨List.cons_ne_nil c rest, hZero, ?_⟩
  rw [hState, Text.currentLine_cons hZero]
  exact firstHit_blank hBlank _

/- So are all blanks in front of a text. -/
theorem scanFrom_blanks
    {blanks : Text}
    (hBlank : blanks.AllBlank)
    (hFree : blanks.BreakFree)
    (offset : Nat)
    (rest : Text) :
    table.scanFrom ⟨offset, State.start⟩ (blanks ++ rest) =
      skipped offset blanks ++
        table.scanFrom ⟨offset + blanks.size, State.start⟩
          rest := by
  induction blanks generalizing offset with
  | nil => rfl
  | cons c blanks ih =>
      have hSkipped :
          table.Recovers ⟨offset, State.start⟩
            (c :: (blanks ++ rest)) :=
        recovers_blank rfl (hBlank c (List.mem_cons_self ..))
          (hFree c (List.mem_cons_self ..)) _
      have hRest := ih
        (fun d hd => hBlank d (List.mem_cons_of_mem c hd))
        (fun d hd => hFree d (List.mem_cons_of_mem c hd))
        (offset + c.utf8Size)
      rw [List.cons_append,
        scanFrom_of_stepOn (stepOn_of_recovers hSkipped),
        Text.size_cons, ← Nat.add_assoc]
      exact congrArg
        (⟨none, [c], offset, State.start, Effect.none⟩ :: ·)
        hRest

/- A line that begins with the marker is one comment. -/
theorem scanFrom_lineComment
    {line : Text}
    (hFree : line.BreakFree)
    (offset : Nat) :
    table.scanFrom ⟨offset, State.start⟩
        ('/' :: '/' :: line) =
      [⟨some Label.comment, '/' :: '/' :: line, offset,
        State.start, Effect.none⟩] := by
  have hBoth : Text.BreakFree ('/' :: '/' :: line) :=
    Text.BreakFree.append (s := ['/', '/']) (by decide) hFree
  have hComment :
      comment? (Text.currentLine ('/' :: '/' :: line)) =
        some ('/' :: '/' :: line, State.start) := by
    rw [currentLine_of_breakFree hBoth]
    rfl
  rcases stepOn_comment hComment offset with
    ⟨rest, hText, hStep⟩
  have hRest : rest = [] :=
    List.append_right_eq_self.mp hText.symm
  rw [scanFrom_of_stepOn hStep, hRest]
  show _ ++ table.scanFrom _ [] = _
  rw [scanFrom_nil]
  rfl

/-
  A line turned into a comment is its indentation, skipped,
  and a comment up to its end.
-/
theorem scan_commentLine
    {line : Text}
    (hFree : line.BreakFree) :
    table.scan (info.commentLine line) State.start =
      skipped 0 line.leadingBlanks ++
        [⟨some Label.comment,
          info.lineComment ++ ' ' :: line.trimStart,
          line.leadingBlanks.size, State.start,
          Effect.none⟩] := by
  have hBlanks : line.leadingBlanks.BreakFree :=
    fun c hc => hFree c ((List.takeWhile_prefix _).mem hc)
  have hBody : Text.BreakFree (' ' :: line.trimStart) :=
    Text.BreakFree.append (s := [' ']) (by decide)
      hFree.trimStart
  have hScan := scanFrom_blanks
    (Text.allBlank_leadingBlanks line) hBlanks 0
    ('/' :: '/' :: ' ' :: line.trimStart)
  rw [Nat.zero_add, scanFrom_lineComment hBody] at hScan
  have hText : info.commentLine line =
      line.leadingBlanks ++
        '/' :: '/' :: ' ' :: line.trimStart := by
    rw [LanguageMeta.commentLine, List.append_assoc]
    rfl
  rw [scan, hText]
  exact hScan

------------------------------------------------------------
-- Blocks
------------------------------------------------------------

/-
  Some tokens are one block comment: the scan is in the
  comment after each of them but the last one, which leaves
  it, and all are comment tokens or line breaks.
-/
structure IsOneComment (tokens : List Token) : Prop where
  leaves_last :
    ∃ inside last, tokens = inside ++ [last] ∧
      (∀ t ∈ inside, t.stateAfter = State.comment) ∧
      last.stateAfter = State.start
  comment_or_break :
    ∀ t ∈ tokens,
      t.isLineBreak = true ∨ t.label = some Label.comment

/- The token of the marker that a block begins with. -/
def blockMarker : Token :=
  ⟨some Label.comment, ['/', '*'], 0, State.comment,
    Effect.none⟩

/- After the marker of a block the scan is in a comment. -/
theorem scan_blockStart (text : Text) :
    table.scan ('/' :: '*' :: text) State.start =
      blockMarker ::
        (table.scan text State.comment).map
          (Token.shift 2) := by
  have hComment :
      comment? (Text.currentLine ('/' :: '*' :: text)) =
        some (['/', '*'], State.comment) := by
    rw [Text.currentLine_cons rfl, Text.currentLine_cons rfl]
    rfl
  rcases stepOn_comment hComment 0 with ⟨rest, hText, hStep⟩
  have hRest : text = rest :=
    @List.append_cancel_left _ ['/', '*'] _ _ hText
  rw [scan, scanFrom_of_stepOn hStep, ← hRest]
  exact congrArg (blockMarker :: ·)
    (scanFrom_eq_scan table ⟨2, State.comment⟩ text)

/- A comment that has begun is closed in front of its end. -/
theorem closer_of_closer_append
    {s : Text}
    (hSome : s ≠ [])
    (h : ['*', '/'] <+: s ++ ['*', '/']) :
    ['*', '/'] <+: s := by
  rcases h with ⟨after, hText⟩
  match s, hSome with
  | [c], _ => cases hText
  | c :: d :: s, _ =>
      cases hText
      exact List.prefix_append ['*', '/'] s

section Closers

variable (text : Text)

/- Where a comment that begins before a text is closed. -/
def closesAt : Nat :=
  Pattern.lengthUpTo ['*', '/'] (text ++ ['*', '/'])

/- It is closed by the end of the block at the latest. -/
theorem closesAt_le : closesAt text ≤ text.length := by
  by_contra hLater
  apply Pattern.not_prefix_of_lt_lengthUpTo
    (Nat.lt_of_not_le hLater)
  rw [List.drop_left]

theorem prefix_drop_closesAt :
    ['*', '/'] <+: (text ++ ['*', '/']).drop (closesAt text) := by
  apply Pattern.prefix_drop_lengthUpTo
  apply Nat.lt_of_le_of_lt (closesAt_le text)
  rw [List.length_append]
  exact Nat.lt_add_of_pos_right Nat.two_pos

theorem closesFirst_closesAt :
    ClosesFirst State.comment (text ++ ['*', '/'])
      (closesAt text) ['*', '/'] :=
  ⟨if_pos (prefix_drop_closesAt text),
    fun _ hj => if_neg (Pattern.not_prefix_of_lt_lengthUpTo hj)⟩

/- It is closed before that just if the text has a closer. -/
theorem closesAt_lt_iff :
    closesAt text < text.length ↔ ['*', '/'] <:+: text := by
  constructor
  · intro hLt
    have hPrefix := prefix_drop_closesAt text
    rw [List.drop_append_of_le_length (Nat.le_of_lt hLt)]
      at hPrefix
    have hSome : text.drop (closesAt text) ≠ [] := by
      rw [Ne, List.drop_eq_nil_iff]
      exact Nat.not_le_of_lt hLt
    exact (closer_of_closer_append hSome hPrefix).isInfix.trans
      (List.drop_suffix _ text).isInfix
  · rintro ⟨before, after, hText⟩
    by_contra hLater
    have hShorter : before.length < closesAt text := by
      have hLength := congrArg List.length hText
      simp only [List.length_append, List.length_cons]
        at hLength
      omega
    apply Pattern.not_prefix_of_lt_lengthUpTo hShorter
    rw [← hText, List.append_assoc, List.append_assoc,
      List.drop_left]
    exact List.prefix_append _ _

end Closers

/-
  Tokens that leave a comment are one comment just if there
  is no more after them.
-/
theorem isOneComment_iff_of_leaves
    {inside later : List Token}
    {last : Token}
    (hInside : ∀ t ∈ inside, t.stateAfter = State.comment)
    (hLast : last.stateAfter = State.start)
    (hBelongs :
      ∀ t ∈ inside ++ [last], Belongs State.comment t) :
    IsOneComment (inside ++ last :: later) ↔ later = [] := by
  constructor
  · rintro ⟨⟨inside', last', hTokens, hInside', -⟩, -⟩
    rcases List.eq_nil_or_concat later with hNil | ⟨init, t, rfl⟩
    · exact hNil
    · -- then the token that leaves it is not the last one
      have hSplit :
          (inside ++ last :: init) ++ [t] =
            inside' ++ [last'] := by
        rw [← hTokens, List.concat_eq_append,
          List.append_assoc, List.cons_append]
      rcases List.append_inj' hSplit rfl with ⟨rfl, -⟩
      have hComment := hInside' last (by simp)
      rw [hLast] at hComment
      cases hComment
  · rintro rfl
    exact ⟨⟨inside, last, rfl, hInside, hLast⟩,
      fun t ht => (hBelongs t ht).1⟩

/- Only of the empty text there are no tokens. -/
theorem scan_eq_nil_iff {text : Text} {state : State} :
    table.scan text state = [] ↔ text = [] := by
  constructor
  · intro hNone
    by_contra hText
    exact (table.scanFrom_tiles ⟨0, state⟩ text).ne_nil hText
      hNone
  · rintro rfl
    exact scanFrom_nil table _

/-
  A text between the markers of a block is one comment just
  if it has no closer in it.
-/
theorem isOneComment_wrapBlockComment_iff (text : Text) :
    IsOneComment
        (table.scan (info.wrapBlockComment text)
          State.start) ↔
      ¬ ['*', '/'] <:+: text := by
  have hWrapped : info.wrapBlockComment text =
      '/' :: '*' :: (text ++ ['*', '/']) := rfl
  rcases leaves_when_closed (by decide)
      (closesFirst_closesAt text) with
    ⟨inside, last, hScan, -, -, hLast, hInside, hBelongs⟩
  have hLeaves : (last.shift 2).stateAfter = State.start :=
    hLast
  have hMarked :
      ∀ t ∈ blockMarker :: inside.map (Token.shift 2),
        t.stateAfter = State.comment := by
    rw [List.forall_mem_cons, List.forall_mem_map]
    exact ⟨rfl, hInside⟩
  have hBelong :
      ∀ t ∈ (blockMarker :: inside.map (Token.shift 2)) ++
          [last.shift 2], Belongs State.comment t := by
    rw [List.cons_append, List.forall_mem_cons,
      ← List.map_singleton, ← List.map_append,
      List.forall_mem_map]
    exact ⟨⟨Or.inr rfl, rfl⟩, hBelongs⟩
  rw [hWrapped, scan_blockStart, hScan, List.map_append,
    List.map_cons, ← List.cons_append,
    isOneComment_iff_of_leaves hMarked hLeaves hBelong,
    List.map_eq_nil_iff, List.map_eq_nil_iff, scan_eq_nil_iff,
    List.drop_eq_nil_iff, ← closesAt_lt_iff]
  simp only [List.length_append, List.length_cons,
    List.length_nil]
  omega

------------------------------------------------------------
-- Commands
------------------------------------------------------------

/-
  A line with the marker put into it is scanned as its
  indentation, each character of which is skipped, and as
  one comment up to its end, without effect and back to the
  start state. A text between the markers of a block is
  scanned as one comment, which ends with the last token, if
  and only if it has no closer in it.
-/
theorem commented_scans_as_comment :
    (∀ line : Text, line.BreakFree →
      let tokens :=
        table.scan (info.commentLine line) State.start
      tokens =
        skipped 0 line.leadingBlanks ++
          [⟨some Label.comment,
            info.lineComment ++ ' ' :: line.trimStart,
            line.leadingBlanks.size, State.start,
            Effect.none⟩] ∧
      (∀ t ∈ tokens, t.effect = Effect.none) ∧
      Token.endState State.start tokens = State.start) ∧
    ∀ text : Text,
      IsOneComment
          (table.scan (info.wrapBlockComment text)
            State.start) ↔
        ¬ info.blockEnd <:+: text := by
  refine ⟨fun line hFree => ?_,
    isOneComment_wrapBlockComment_iff⟩
  intro tokens
  have hTokens : tokens = _ := scan_commentLine hFree
  refine ⟨hTokens, ?_, ?_⟩
  · intro t ht
    rw [hTokens] at ht
    rcases List.mem_append.mp ht with ht | ht
    · exact Token.effect_of_mem_layOut ht
    · rw [List.mem_singleton.mp ht]
  · rw [hTokens, Token.endState_append, Token.endState_cons,
      Token.endState_nil]

/-
  A line with a bracket and a comment in it becomes one
  comment. So does a block with a slash first and a star
  last, over two lines.
-/
theorem commented_scans_as_comment_bracket :
    Text.BreakFree "\t[ // end".toList ∧
      table.scan "\t// [ // end".toList State.start =
        [⟨none, ['\t'], 0, State.start, Effect.none⟩,
          ⟨some Label.comment, "// [ // end".toList, 1,
            State.start, Effect.none⟩] ∧
      IsOneComment
        (table.scan "/*/ a\n**/".toList State.start) := by
  have hFree : Text.BreakFree "\t[ // end".toList := by decide
  have hText : info.commentLine "\t[ // end".toList =
      "\t// [ // end".toList := by decide
  have hLine := (commented_scans_as_comment.1 _ hFree).1
  rw [hText] at hLine
  have hBlock :=
    commented_scans_as_comment.2 "/ a\n*".toList
  exact ⟨hFree, hLine, hBlock.mpr (by decide)⟩

end Qhantoom

end Highlighter

import Highlighter.Proofs.Highlight
import Highlighter.Proofs.Scan.Step

/-
  The tokens of a scan, line by line: each line of the text
  is tiled by tokens of its own, and after them its line
  break is one token.

  Key definitions include:
    * `Token.Aligned`
    * `Text.breaksFrom`

  Main statements:
    * `RuleTable.scanFrom_aligned`
    * `Token.Aligned.breaks_eq`
    * `Token.Aligned.length_statesAfterBreaks`
-/

namespace Highlighter

------------------------------------------------------------
-- Terminators
------------------------------------------------------------

namespace Text

/-
  The line breaks among lines with the byte offsets they
  stand at, given the offset of the first line.
-/
def breaksFrom : Nat → List Line → List (Nat × Text)
  | _, [] => []
  | n, line :: lines =>
      let rest := breaksFrom (n + line.text.size) lines
      if line.terminator = [] then rest
      else (n + line.body.size, line.terminator) :: rest

/- No line of a text has a break in it. -/
theorem breakFree_body (t : Text) :
    ∀ line ∈ lines t, line.body.BreakFree := by
  induction t using lines_induction with
  | hOne t hFree =>
      intro line hLine
      rcases List.mem_singleton.mp hLine with rfl
      exact hFree
  | hMore body terminator rest hFree hBreak ih =>
      intro line hLine
      rcases List.mem_cons.mp hLine with rfl | hLine
      · exact hFree
      · exact ih line hLine

/- A text has at least one line. -/
theorem lines_ne_nil (t : Text) : lines t ≠ [] := by
  rcases lines_cases t with ⟨-, hLines⟩ |
    ⟨body, terminator, rest, -, -, -, hLines⟩
  · rw [hLines]
    simp
  · rw [hLines]
    simp

/- Every line but the last one ends in a line break. -/
theorem isLineBreak_terminator (t : Text) :
    ∀ line ∈ (lines t).dropLast,
      isLineBreak line.terminator = true := by
  induction t using lines_induction with
  | hOne t hFree =>
      intro line hLine
      cases hLine
  | hMore body terminator rest hFree hBreak ih =>
      intro line hLine
      rw [List.dropLast_cons_of_ne_nil (lines_ne_nil rest)]
        at hLine
      rcases List.mem_cons.mp hLine with rfl | hLine
      · exact hBreak
      · exact ih line hLine

/- The last line does not. -/
theorem terminator_getLast (t : Text) :
    ∃ line, (lines t).getLast? = some line ∧
      line.terminator = [] := by
  induction t using lines_induction with
  | hOne t hFree => exact ⟨⟨t, []⟩, rfl, rfl⟩
  | hMore body terminator rest hFree hBreak ih =>
      rcases ih with ⟨line, hLast, hNil⟩
      refine ⟨line, ?_, hNil⟩
      rw [List.getLast?_cons, hLast]
      rfl

/-
  A text is split into lines when they make it up, no line
  has a break in it, and each line but the last one, which
  has no terminator, ends in a line break.
-/
structure SplitsInto (t : Text) (lines : List Line) :
    Prop where
  join_eq : join lines = t
  breakFree : ∀ line ∈ lines, line.body.BreakFree
  isLineBreak :
    ∀ line ∈ lines.dropLast,
      isLineBreak line.terminator = true
  last :
    ∃ line, lines.getLast? = some line ∧
      line.terminator = []

theorem splitsInto_lines (t : Text) :
    SplitsInto t (lines t) :=
  ⟨join_lines t, breakFree_body t, isLineBreak_terminator t,
    terminator_getLast t⟩

end Text

------------------------------------------------------------
-- Tokens along lines
------------------------------------------------------------

namespace Token

/-
  Tokens go along with lines from a byte offset on when the
  body of each line is tiled by tokens, after which its line
  break is one token without effect.
-/
inductive Aligned : Nat → List Token → List Text.Line → Prop
  | last
      {n : Nat}
      {tokens : List Token}
      {body : Text}
      (hFree : body.BreakFree)
      (hTiles : Tiles n tokens body) :
      Aligned n tokens [⟨body, []⟩]
  | more
      {n : Nat}
      {tokens rest : List Token}
      {body : Text}
      {brk : Token}
      {lines : List Text.Line}
      (hFree : body.BreakFree)
      (hTiles : Tiles n tokens body)
      (hStart : brk.start = n + body.size)
      (hBreak : brk.isLineBreak = true)
      (hEffect : brk.effect = Effect.none)
      (hRest : Aligned brk.stop rest lines) :
      Aligned n (tokens ++ brk :: rest)
        (⟨body, brk.text⟩ :: lines)

/- More tokens of the first line may go in front. -/
theorem Aligned.prepend
    {n : Nat}
    {xs tokens : List Token}
    {s : Text}
    {line : Text.Line}
    {lines : List Text.Line}
    (hFree : s.BreakFree)
    (hTiles : Tiles n xs s)
    (h : Aligned (n + s.size) tokens (line :: lines)) :
    Aligned n (xs ++ tokens)
      (⟨s ++ line.body, line.terminator⟩ :: lines) := by
  cases h with
  | last hBody hTokens =>
      exact Aligned.last (hFree.append hBody)
        (hTiles.append hTokens)
  | more hBody hTokens hStart hBreak hEffect hRest =>
      rw [← List.append_assoc]
      refine Aligned.more (hFree.append hBody)
        (hTiles.append hTokens) ?_ hBreak hEffect hRest
      rw [hStart, Text.size_append, Nat.add_assoc]

/- Tokens that tile a part of a line lie within it. -/
theorem Tiles.breakFree_text
    {n : Nat}
    {tokens : List Token}
    {s : Text}
    (h : Tiles n tokens s)
    (hFree : s.BreakFree) :
    ∀ t ∈ tokens, t.text.BreakFree :=
  fun _ ht c hc => hFree c (h.mem_of_mem_text ht hc)

/- So none of them is a break. -/
theorem Tiles.not_isLineBreak
    {n : Nat}
    {tokens : List Token}
    {s : Text}
    (h : Tiles n tokens s)
    (hFree : s.BreakFree) :
    ∀ t ∈ tokens, t.isLineBreak = false := by
  intro t ht
  by_contra hBreak
  rw [Bool.not_eq_false] at hBreak
  exact Text.not_breakFree_of_isLineBreak hBreak
    (h.breakFree_text hFree t ht)

theorem Tiles.filter_isLineBreak
    {n : Nat}
    {tokens : List Token}
    {s : Text}
    (h : Tiles n tokens s)
    (hFree : s.BreakFree) :
    tokens.filter isLineBreak = [] := by
  apply List.filter_eq_nil_iff.mpr
  intro t ht
  simp [h.not_isLineBreak hFree t ht]

/- Aligned tokens tile the text of the lines. -/
theorem Aligned.tiles
    {n : Nat}
    {tokens : List Token}
    {lines : List Text.Line}
    (h : Aligned n tokens lines) :
    Tiles n tokens (Text.join lines) := by
  induction h with
  | @last n tokens body hFree hTiles =>
      simpa [Text.Line.text] using hTiles
  | @more n tokens rest body brk lines hFree hTiles hStart
      hBreak hEffect hRest ih =>
      have hText : brk.text ≠ [] :=
        Text.isLineBreak_ne_nil hBreak
      have hTail := Tiles.cons hText ih
      rw [hStart] at hTail
      rw [Text.join_cons, Text.Line.text, List.append_assoc]
      exact hTiles.append hTail

/- The break tokens are the line breaks of the lines. -/
theorem Aligned.breaks_eq
    {n : Nat}
    {tokens : List Token}
    {lines : List Text.Line}
    (h : Aligned n tokens lines) :
    (tokens.filter isLineBreak).map
        (fun t => (t.start, t.text)) =
      Text.breaksFrom n lines := by
  induction h with
  | @last n tokens body hFree hTiles =>
      rw [hTiles.filter_isLineBreak hFree]
      rfl
  | @more n tokens rest body brk lines hFree hTiles hStart
      hBreak hEffect hRest ih =>
      have hNone := hTiles.filter_isLineBreak hFree
      have hText : brk.text ≠ [] :=
        Text.isLineBreak_ne_nil hBreak
      have hStop :
          n + (body ++ brk.text).size = brk.stop := by
        rw [Text.size_append, stop, hStart, Nat.add_assoc]
      simp only [Text.breaksFrom, Text.Line.text, hText,
        if_false, List.filter_append, hNone,
        List.filter_cons_of_pos hBreak, List.nil_append,
        List.map_cons, hStart, hStop, ih]

/- The state after a line is that of its break. -/
theorem statesAfterBreaks_more
    {n : Nat}
    {tokens : List Token}
    {body : Text}
    {brk : Token}
    (hFree : body.BreakFree)
    (hTiles : Tiles n tokens body)
    (hBreak : brk.isLineBreak = true)
    (rest : List Token) :
    statesAfterBreaks (tokens ++ brk :: rest) =
      brk.stateAfter :: statesAfterBreaks rest := by
  simp [statesAfterBreaks, hTiles.filter_isLineBreak hFree,
    List.filter_cons_of_pos hBreak]

/- There is a state for each line. -/
theorem Aligned.length_statesAfterBreaks
    {n : Nat}
    {tokens : List Token}
    {lines : List Text.Line}
    (h : Aligned n tokens lines) :
    (statesAfterBreaks tokens).length + 1 =
      lines.length := by
  induction h with
  | @last n tokens body hFree hTiles =>
      simp [statesAfterBreaks,
        hTiles.filter_isLineBreak hFree]
  | @more n tokens rest body brk lines hFree hTiles hStart
      hBreak hEffect hRest ih =>
      rw [statesAfterBreaks_more hFree hTiles hBreak,
        List.length_cons, ih, List.length_cons]

end Token

------------------------------------------------------------
-- Scans along lines
------------------------------------------------------------

namespace RuleTable

/- A step over a line break ends an empty line. -/
theorem Step.Consumes.lines_of_break
    {cursor : Cursor}
    {text consumed : Text}
    {s : Step}
    (h : s.Consumes cursor text consumed)
    (hTake : consumed = text.take (Text.breakLength text)) :
    Text.lines text = ⟨[], consumed⟩ :: Text.lines s.rest := by
  have hPos : 0 < Text.breakLength text := by
    apply Nat.pos_of_ne_zero
    intro hZero
    rw [hZero, List.take_zero] at hTake
    exact h.nonempty hTake
  have hText : consumed ++ s.rest =
      consumed ++ text.drop (Text.breakLength text) := by
    rw [← h.text_eq, hTake, List.take_append_drop]
  rw [Text.lines_of_break hPos,
    ← List.append_cancel_left hText, ← hTake]

/- A step within a line shortens the first line. -/
theorem Step.Consumes.lines_of_breakFree
    {cursor : Cursor}
    {text consumed : Text}
    {s : Step}
    (h : s.Consumes cursor text consumed)
    (hFree : consumed.BreakFree) :
    ∃ line lines,
      Text.lines s.rest = line :: lines ∧
      Text.lines text =
        ⟨consumed ++ line.body, line.terminator⟩ :: lines := by
  cases hLines : Text.lines s.rest with
  | nil => exact absurd hLines (Text.lines_ne_nil s.rest)
  | cons line lines =>
      have hText := Text.lines_append hFree hLines
      rw [← h.text_eq] at hText
      exact ⟨line, lines, rfl, hText⟩

/- The tokens of a scan go along with the lines. -/
theorem scanFrom_aligned
    (table : RuleTable)
    (cursor : Cursor)
    (text : Text) :
    Token.Aligned cursor.offset (table.scanFrom cursor text)
      (Text.lines text) := by
  induction cursor, text using scan_induction table with
  | hEnd cursor =>
      rw [scanFrom_nil, Text.breakFree_nil.lines_eq]
      exact Token.Aligned.last Text.breakFree_nil
        (Token.Tiles.nil cursor.offset)
  | hStep cursor text s consumed hs hConsumes ih =>
      rw [scanFrom_of_stepOn hs]
      rcases hConsumes.kind with
        ⟨hTake, hBreak, -, hTokens⟩ | hFree
      · -- the break ends an empty line
        rw [hConsumes.lines_of_break hTake, hTokens]
        let brk : Token :=
          ⟨none, consumed, cursor.offset, cursor.state,
            Effect.none⟩
        have hIs : brk.isLineBreak = true := hBreak
        have hAfter : Token.Aligned brk.stop
            (table.scanFrom s.cursor s.rest)
            (Text.lines s.rest) := by
          rw [Token.stop, ← hConsumes.offset_eq]
          exact ih
        have hMore := Token.Aligned.more Text.breakFree_nil
          (Token.Tiles.nil cursor.offset) rfl hIs rfl hAfter
        exact hMore
      · -- the tokens belong to the first line of the rest
        rcases hConsumes.lines_of_breakFree hFree with
          ⟨line, lines, hRest, hLines⟩
        rw [hConsumes.offset_eq, hRest] at ih
        rw [hLines]
        exact ih.prepend hFree hConsumes.tiles

end RuleTable

end Highlighter

import Highlighter.Proofs.Scan.Lines
import Highlighter.Proofs.Text.Join
import Highlighter.Proofs.Theme.Terminal

/-
  Text in the colours of a theme: a terminal shows the text
  that was scanned, each labelled token between its colour
  and the end of it and the rest plain, and no colour goes
  on past the end of a line.

  Key definitions include:
    * `Theme.events`

  Main statements:
    * `Theme.strip_render`
    * `Theme.read_render`
    * `Token.Aligned.exists_rendered`: the lines that come
      out are the tokens of each line rendered alone.
    * `Theme.render_faithful`
-/

namespace Highlighter

open Terminal

namespace Theme

------------------------------------------------------------
-- Single tokens
------------------------------------------------------------

/-
  What is to be seen of a token: its characters, and before
  and after them a colour if it has a label.
-/
def events (theme : Theme) (t : Token) : List Event :=
  match t.label with
  | none => t.text.map Event.shown
  | some label =>
      Event.paint (theme.color (some label)) ::
        (t.text.map Event.shown ++ [Event.reset])

/- A line break is left plain, and so is text unlabelled. -/
theorem renderToken_of_isLineBreak
    {t : Token}
    (h : t.isLineBreak = true)
    (theme : Theme) : theme.renderToken t = t.text := by
  rw [renderToken, h]
  rfl

theorem renderToken_of_label
    {t : Token}
    (h : t.label = none)
    (theme : Theme) : theme.renderToken t = t.text := by
  rw [renderToken, h, Option.isNone_none, Bool.or_true]
  rfl

/- Other tokens are put between two sequences. -/
theorem renderToken_of_labelled
    {t : Token}
    {label : Label}
    (hLabel : t.label = some label)
    (hBreak : t.isLineBreak = false)
    (theme : Theme) :
    theme.renderToken t =
      (theme.color (some label)).ansi ++
        (t.text ++ reset) := by
  rw [renderToken, hLabel, hBreak, List.append_assoc]
  rfl

/- With the sequences taken off it is the token's text. -/
theorem strip_renderToken
    {t : Token}
    (h : escape ∉ t.text)
    (theme : Theme)
    (rest : Text) :
    strip (theme.renderToken t ++ rest) =
      t.text ++ strip rest := by
  unfold renderToken
  split
  · exact strip_append h rest
  · rw [List.append_assoc, List.append_assoc,
      (means_ansi _).strip_append, strip_append h,
      means_reset.strip_append]

/- A terminal sees of it what is to be seen. -/
theorem read_renderToken
    {t : Token}
    (hPlain : escape ∉ t.text)
    (hBreak : t.isLineBreak = true → t.label = none)
    (theme : Theme)
    (rest : Text) :
    read (theme.renderToken t ++ rest) =
      (read rest).map (theme.events t ++ ·) := by
  cases hLabel : t.label with
  | none =>
      rw [renderToken_of_label hLabel, events, hLabel]
      exact read_append hPlain rest
  | some label =>
      have hNot : t.isLineBreak = false := by
        by_contra hIs
        rw [Bool.not_eq_false] at hIs
        rw [hBreak hIs] at hLabel
        cases hLabel
      rw [renderToken_of_labelled hLabel hNot,
        List.append_assoc, List.append_assoc,
        (means_ansi _).read_append, read_append hPlain,
        means_reset.read_append, events, hLabel]
      cases read rest with
      | none => rfl
      | some more => simp

/- Sequences do not break lines. -/
theorem breakFree_ansi (c : Color) : Text.BreakFree c.ansi := by
  have hDigit : ∀ d, Text.isAsciiDigit d = true →
      Text.isBreakChar d = false := by
    intro d hd
    by_contra hBreak
    simp only [Text.isBreakChar, Bool.not_eq_false,
      Bool.or_eq_true, beq_iff_eq] at hBreak
    rcases hBreak with rfl | rfl <;> cases hd
  intro d hd
  rw [ansi_eq] at hd
  rcases List.mem_cons.mp hd with rfl | hd
  · rfl
  · rcases List.mem_append.mp hd with hd | hd
    · rcases mem_ansiBody hd with rfl | rfl | hd
      · rfl
      · rfl
      · exact hDigit d hd
    · cases List.mem_singleton.mp hd
      rfl

theorem breakFree_reset : Text.BreakFree reset := by
  decide

theorem breakFree_renderToken
    {t : Token}
    (h : t.text.BreakFree)
    (theme : Theme) : (theme.renderToken t).BreakFree := by
  unfold renderToken
  split
  · exact h
  · exact ((breakFree_ansi _).append h).append breakFree_reset

/- Nothing comes of a token only if there is none of it. -/
theorem text_eq_nil_of_renderToken
    {theme : Theme}
    {t : Token}
    (h : theme.renderToken t = []) : t.text = [] := by
  unfold renderToken at h
  split at h
  · exact h
  · exact (List.append_eq_nil_iff.mp
      (List.append_eq_nil_iff.mp h).1).2

------------------------------------------------------------
-- Tokens one after the other
------------------------------------------------------------

section Tokens

variable
  (theme : Theme)
  {tokens : List Token}

/- Taking the sequences off gives the texts of the tokens. -/
theorem strip_render
    (h : ∀ t ∈ tokens, escape ∉ t.text) :
    strip (theme.render tokens) =
      tokens.flatMap Token.text := by
  unfold render
  induction tokens with
  | nil => rfl
  | cons t tokens ih =>
      rw [List.forall_mem_cons] at h
      rw [List.flatMap_cons, List.flatMap_cons,
        strip_renderToken h.1, ih h.2]

/- A terminal sees one token after the other. -/
theorem read_render
    (hPlain : ∀ t ∈ tokens, escape ∉ t.text)
    (hBreaks :
      ∀ t ∈ tokens, t.isLineBreak = true → t.label = none) :
    read (theme.render tokens) =
      some (tokens.flatMap theme.events) := by
  unfold render
  induction tokens with
  | nil => rfl
  | cons t tokens ih =>
      rw [List.forall_mem_cons] at hPlain hBreaks
      rw [List.flatMap_cons, List.flatMap_cons,
        read_renderToken hPlain.1 hBreaks.1,
        ih hPlain.2 hBreaks.2]
      rfl

/- Tokens within a line are rendered within a line. -/
theorem breakFree_render
    (h : ∀ t ∈ tokens, t.text.BreakFree) :
    (theme.render tokens).BreakFree := by
  intro c hc
  rcases List.mem_flatMap.mp hc with ⟨t, ht, hc⟩
  exact breakFree_renderToken (h t ht) theme c hc

end Tokens

end Theme

------------------------------------------------------------
-- Lines
------------------------------------------------------------

namespace Token

section Lines

variable
  {n : Nat}
  {tokens : List Token}
  {lines : List Text.Line}

/- Between two line breaks are the tokens of a line. -/
theorem Aligned.exists_line_of_mem_splitOnP
    (h : Aligned n tokens lines)
    {piece : List Token}
    (hPiece : piece ∈ tokens.splitOnP isLineBreak) :
    ∃ k, ∃ line ∈ lines,
      line.body.BreakFree ∧ Tiles k piece line.body := by
  induction h with
  | @last n tokens body hFree hTiles =>
      have hNone := hTiles.not_isLineBreak hFree
      rw [List.splitOnP_eq_singleton hNone] at hPiece
      cases List.mem_singleton.mp hPiece
      exact ⟨n, _, List.mem_singleton_self _, hFree, hTiles⟩
  | @more n tokens rest body brk lines hFree hTiles hStart
      hBreak hEffect hRest ih =>
      have hNone := hTiles.not_isLineBreak hFree
      rw [List.splitOnP_append_cons_of_forall_mem hNone _ hBreak]
        at hPiece
      rcases List.mem_cons.mp hPiece with rfl | hLater
      · exact ⟨n, _, List.mem_cons_self .., hFree, hTiles⟩
      · rcases ih hLater with ⟨k, line, hLine, hBoth⟩
        exact ⟨k, line, List.mem_cons_of_mem _ hLine, hBoth⟩

/- They are the tokens of one line after the other. -/
theorem Aligned.map_splitOnP
    (h : Aligned n tokens lines) :
    (tokens.splitOnP isLineBreak).map
        (fun line => line.flatMap text) =
      lines.map Text.Line.body := by
  induction h with
  | last hFree hTiles =>
      have hNone := hTiles.not_isLineBreak hFree
      rw [List.splitOnP_eq_singleton hNone, List.map_singleton,
        hTiles.flatMap_text]
      rfl
  | more hFree hTiles hStart hBreak hEffect hRest ih =>
      have hNone := hTiles.not_isLineBreak hFree
      rw [List.splitOnP_append_cons_of_forall_mem hNone _ hBreak,
        List.map_cons, List.map_cons, ih, hTiles.flatMap_text]

/- Tokens that tile a line come to nothing if it is empty. -/
theorem Tiles.eq_nil_of_render
    {theme : Theme}
    {s : Text}
    (h : Tiles n tokens s)
    (hNone : theme.render tokens = []) : s = [] := by
  rw [← h.flatMap_text]
  apply List.flatMap_eq_nil_iff.mpr
  intro t ht
  exact Theme.text_eq_nil_of_renderToken
    (List.flatMap_eq_nil_iff.mp hNone t ht)

/-
  What comes out are lines in the place of those that went
  in, and each is what the tokens of that line come to.
-/
theorem Aligned.exists_rendered
    (h : Aligned n tokens lines)
    (theme : Theme) :
    ∃ out, Text.join out = theme.render tokens ∧
      List.Forall₂ Text.Line.Replaces out lines ∧
      out.map Text.Line.body =
        (tokens.splitOnP isLineBreak).map theme.render := by
  induction h with
  | @last n tokens body hFree hTiles =>
      have hNone := hTiles.not_isLineBreak hFree
      refine ⟨[⟨theme.render tokens, []⟩], ?_,
        List.Forall₂.cons ⟨rfl, ?_, ?_⟩ List.Forall₂.nil, ?_⟩
      · simp [Text.Line.text]
      · intro _
        exact theme.breakFree_render
          (hTiles.breakFree_text hFree)
      · exact hTiles.eq_nil_of_render
      · rw [List.splitOnP_eq_singleton hNone]
        rfl
  | @more n tokens rest body brk lines hFree hTiles hStart
      hBreak hEffect hRest ih =>
      have hNone := hTiles.not_isLineBreak hFree
      rcases ih with ⟨out, hJoin, hReplaces, hBodies⟩
      refine ⟨⟨theme.render tokens, brk.text⟩ :: out, ?_,
        List.Forall₂.cons ⟨rfl, ?_, ?_⟩ hReplaces, ?_⟩
      · rw [Text.join_cons, hJoin, Text.Line.text, Theme.render,
          Theme.render, Theme.render, List.flatMap_append,
          List.flatMap_cons,
          Theme.renderToken_of_isLineBreak hBreak,
          List.append_assoc]
      · intro _
        exact theme.breakFree_render
          (hTiles.breakFree_text hFree)
      · exact hTiles.eq_nil_of_render
      · rw [List.map_cons, hBodies,
          List.splitOnP_append_cons_of_forall_mem hNone _ hBreak]
        rfl

end Lines

end Token

------------------------------------------------------------
-- Scans
------------------------------------------------------------

namespace Theme

/-
  For every theme, table and state and every text without
  the escape character: without its escape sequences the
  rendered text is the text itself. A terminal sees one
  token after the other: a labelled one between the theme's
  colour for the label and the end of it, other text outside
  of colours. Labelled tokens lie within lines. The rendered
  text has the lines of the text, with the same line breaks,
  and each is what the tokens of that line come to alone, so
  that every colour begun on it ends on it.
-/
theorem render_faithful
    (theme : Theme)
    (table : RuleTable)
    (state : State)
    {text : Text}
    (hPlain : escape ∉ text) :
    let tokens := table.scan text state
    let lines := tokens.splitOnP Token.isLineBreak
    let out := theme.render tokens
    strip out = text ∧
    read out = some (tokens.flatMap theme.events) ∧
    (∀ t ∈ tokens, t.label.isSome = true →
      t.text ≠ [] ∧ t.text.BreakFree) ∧
    out.lines.map Text.Line.body = lines.map theme.render ∧
    out.lines.map Text.Line.terminator =
      text.lines.map Text.Line.terminator ∧
    lines.map (fun line => line.flatMap Token.text) =
      text.lines.map Text.Line.body ∧
    ∀ line ∈ lines,
      read (theme.render line) =
        some (line.flatMap theme.events) := by
  intro tokens lines out
  have hTiles : Token.Tiles 0 tokens text :=
    table.scanFrom_tiles ⟨0, state⟩ text
  have hAligned : Token.Aligned 0 tokens text.lines :=
    table.scanFrom_aligned ⟨0, state⟩ text
  have hBreaks : ∀ t ∈ tokens,
      t.isLineBreak = true → t.label = none :=
    table.scanFrom_label_of_isLineBreak ⟨0, state⟩ text
  have hTexts : ∀ t ∈ tokens, escape ∉ t.text :=
    fun t ht hEscape => hPlain (hTiles.mem_of_mem_text ht hEscape)
  rcases hAligned.exists_rendered theme with
    ⟨outLines, hJoin, hReplaces, hBodies⟩
  have hLines : out.lines = outLines := by
    show Text.lines (theme.render tokens) = outLines
    rw [← hJoin]
    exact ((Text.areLines_lines text).of_replaces
      hReplaces).lines_join
  refine ⟨?_, theme.read_render hTexts hBreaks, ?_, ?_, ?_,
    hAligned.map_splitOnP, ?_⟩
  · exact (theme.strip_render hTexts).trans hTiles.flatMap_text
  · intro t ht hLabel
    refine ⟨hTiles.text_ne_nil t ht, ?_⟩
    rcases table.scanFrom_kind ⟨0, state⟩ text t ht with
      hBreak | hFree
    · rw [hBreaks t ht hBreak] at hLabel
      cases hLabel
    · exact hFree
  · rw [hLines]
    exact hBodies
  · rw [hLines]
    exact Text.map_terminator_of_replaces hReplaces
  · intro piece hPiece
    rcases hAligned.exists_line_of_mem_splitOnP hPiece with
      ⟨k, line, hLine, hFree, hLineTiles⟩
    apply theme.read_render
    · intro t ht hEscape
      apply hPlain
      rw [← Text.join_lines text]
      exact List.mem_flatMap.mpr ⟨line, hLine,
        List.mem_append_left _
          (hLineTiles.mem_of_mem_text ht hEscape)⟩
    · intro t ht hBreak
      rw [hLineTiles.not_isLineBreak hFree t ht] at hBreak
      cases hBreak

/-
  A comment over two lines in which stands what looks like
  the end of a colour.
-/
theorem render_faithful_brackets :
    let table := RuleTable.empty.insert State.comment
      [⟨Pattern.upTo ['*', '/'],
        Labelling.whole (some Label.comment), none, false,
        false⟩]
    let text := "[0m\n1".toList
    let out := monokai.render (table.scan text State.comment)
    escape ∉ text ∧ strip out = text ∧
      read out =
        some
          ([Event.paint ⟨0x75, 0x71, 0x5E⟩, Event.shown '[',
              Event.shown '0', Event.shown 'm', Event.reset,
              Event.shown '\n'] ++
            [Event.paint ⟨0x75, 0x71, 0x5E⟩, Event.shown '1',
              Event.reset]) := by
  intro table text out
  have hPlain : escape ∉ text := by decide
  have hTokens : table.scan text State.comment =
      [⟨some Label.comment, "[0m".toList, 0, State.comment,
          Effect.none⟩,
        ⟨none, ['\n'], 3, State.comment, Effect.none⟩,
        ⟨some Label.comment, ['1'], 4, State.comment,
          Effect.none⟩] := by
    decide +kernel
  rcases render_faithful monokai table State.comment hPlain
    with ⟨hStrip, hRead, -⟩
  refine ⟨hPlain, hStrip, ?_⟩
  rw [hTokens] at hRead
  rw [show out = _ from congrArg monokai.render hTokens, hRead]
  rfl

end Theme

end Highlighter

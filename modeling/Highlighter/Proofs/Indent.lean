import Highlighter.Indent
import Highlighter.Proofs.Scan.Lines

/-
  Indentation along lines: the states and the levels that
  lines start with agree with the lines of the text and the
  tokens of the scan.

  Key definitions include:
    * `Text.lineOffset`
    * `Token.foldBy`
    * `Token.depthAfter`
    * `Token.depthBy`

  Main statements:
    * `RuleTable.startStates_indentsFrom`
    * `RuleTable.depth_indentsFrom`
    * `RuleTable.lines_agree`
-/

namespace Highlighter

------------------------------------------------------------
-- Offsets of lines
------------------------------------------------------------

namespace Text

/- The number of bytes before a line, given all lines. -/
def lineOffset (lines : List Line) (i : Nat) : Nat :=
  size (join (lines.take i))

@[simp]
theorem lineOffset_zero (lines : List Line) :
    lineOffset lines 0 = 0 := rfl

theorem lineOffset_succ
    (line : Line)
    (lines : List Line)
    (i : Nat) :
    lineOffset (line :: lines) (i + 1) =
      line.text.size + lineOffset lines i := by
  rw [lineOffset, List.take_succ_cons, join_cons,
    size_append, lineOffset]

theorem lineOffset_one (line : Line) (lines : List Line) :
    lineOffset (line :: lines) 1 = line.text.size :=
  lineOffset_succ line lines 0

end Text

------------------------------------------------------------
-- Tokens by an offset
------------------------------------------------------------

namespace Token

variable {β : Type}

/-
  What comes of the tokens that end at a byte offset or
  before it, taken one after the other.
-/
def foldBy (f : β → Token → β) (b : β) (tokens : List Token)
    (offset : Nat) : β :=
  (tokens.filter (fun t => t.stop ≤ offset)).foldl f b

theorem Tiles.foldBy_start
    {n : Nat}
    {tokens : List Token}
    {s : Text}
    (h : Tiles n tokens s)
    (f : β → Token → β)
    (b : β) : foldBy f b tokens n = b := by
  rw [foldBy, h.filter_stop_le_start]
  rfl

theorem Tiles.foldBy_end
    {n : Nat}
    {tokens : List Token}
    {s : Text}
    (h : Tiles n tokens s)
    (f : β → Token → β)
    (b : β) :
    foldBy f b tokens (n + s.size) = tokens.foldl f b := by
  rw [foldBy, h.filter_stop_le_end]

/-
  What comes of the tokens some lines after the first one is
  what comes of its tokens, and then of those from its break
  on, if nothing comes of the break.
-/
theorem foldBy_more
    {n : Nat}
    {tokens : List Token}
    {body : Text}
    {brk : Token}
    (hTiles : Tiles n tokens body)
    (hStart : brk.start = n + body.size)
    (hBreak : brk.isLineBreak = true)
    {f : β → Token → β}
    (hNothing : ∀ b, f b brk = b)
    (b : β)
    (rest : List Token)
    (lines : List Text.Line)
    (j : Nat) :
    foldBy f b (tokens ++ brk :: rest)
        (n + Text.lineOffset (⟨body, brk.text⟩ :: lines)
          (j + 1)) =
      foldBy f (tokens.foldl f b) rest
        (brk.stop + Text.lineOffset lines j) := by
  -- the first line with its break, all of which counts
  have hHead :
      Tiles n (tokens ++ [brk]) (body ++ brk.text) := by
    apply hTiles.append
    rw [← hStart, ← List.append_nil brk.text]
    exact Tiles.cons (Text.isLineBreak_ne_nil hBreak)
      (Tiles.nil _)
  have hStop : brk.stop = n + (body ++ brk.text).size := by
    rw [stop, hStart, Text.size_append, Nat.add_assoc]
  rw [Text.lineOffset_succ, Text.Line.text, hStop,
    ← Nat.add_assoc, foldBy, List.append_cons tokens brk rest,
    hHead.filter_stop_le_after, List.foldl_append,
    List.foldl_append, List.foldl_cons, List.foldl_nil,
    hNothing, foldBy]

end Token

------------------------------------------------------------
-- Counting levels
------------------------------------------------------------

namespace Token

/- The number of open levels after one more token. -/
def depthStep (depth : Nat) (t : Token) : Nat :=
  match t.effect with
  | Effect.indent => depth + 1
  | Effect.dedent => depth - 1
  | Effect.none => depth

/-
  The number of open levels after some tokens: one more for
  each indent, one less for each dedent, never below zero.
-/
def depthAfter (depth : Nat) (tokens : List Token) : Nat :=
  tokens.foldl depthStep depth

/-
  The number of open levels after the tokens that end at a
  byte offset or before it.
-/
def depthBy (depth : Nat) (tokens : List Token)
    (offset : Nat) : Nat :=
  depthAfter depth (tokens.filter (fun t => t.stop ≤ offset))

theorem Tiles.depthBy_start
    {n : Nat}
    {tokens : List Token}
    {s : Text}
    (h : Tiles n tokens s)
    (depth : Nat) : depthBy depth tokens n = depth :=
  h.foldBy_start depthStep depth

theorem Tiles.depthBy_end
    {n : Nat}
    {tokens : List Token}
    {s : Text}
    (h : Tiles n tokens s)
    (depth : Nat) :
    depthBy depth tokens (n + s.size) =
      depthAfter depth tokens :=
  h.foldBy_end depthStep depth

theorem length_applyEffect
    (level : Nat)
    (levels : List Nat)
    (t : Token) :
    (applyEffect level levels t).length =
      depthStep levels.length t := by
  cases hEffect : t.effect <;>
    simp [applyEffect, depthStep, hEffect]

/- The levels on the stack are as many as are counted. -/
theorem length_foldl_applyEffect
    (level : Nat)
    (levels : List Nat)
    (tokens : List Token) :
    (tokens.foldl (applyEffect level) levels).length =
      depthAfter levels.length tokens := by
  induction tokens generalizing levels with
  | nil => rfl
  | cons t tokens ih =>
      rw [List.foldl_cons, ih, length_applyEffect]
      rfl

/- Without a break all tokens stand before it. -/
theorem beforeBreak_eq_self
    {tokens : List Token}
    (h : ∀ t ∈ tokens, t.isLineBreak = false) :
    beforeBreak tokens = tokens := by
  apply List.takeWhile_eq_self_iff.mpr
  intro t ht
  simp [h t ht]

/- A break divides the tokens. -/
theorem beforeBreak_append
    {tokens : List Token}
    (h : ∀ t ∈ tokens, t.isLineBreak = false)
    {brk : Token}
    (hBreak : brk.isLineBreak = true)
    (rest : List Token) :
    beforeBreak (tokens ++ brk :: rest) = tokens := by
  unfold beforeBreak
  rw [List.takeWhile_append_of_pos]
  · simp [hBreak]
  · intro t ht
    simp [h t ht]

theorem fromBreak_append
    {tokens : List Token}
    (h : ∀ t ∈ tokens, t.isLineBreak = false)
    {brk : Token}
    (hBreak : brk.isLineBreak = true)
    (rest : List Token) :
    fromBreak (tokens ++ brk :: rest) = brk :: rest := by
  unfold fromBreak
  rw [List.dropWhile_append_of_pos]
  · simp [hBreak]
  · intro t ht
    simp [h t ht]

/-
  The levels open some lines after the first one are those
  open after its tokens and counted on from its break.
-/
theorem depthBy_more
    {n : Nat}
    {tokens : List Token}
    {body : Text}
    {brk : Token}
    (hTiles : Tiles n tokens body)
    (hStart : brk.start = n + body.size)
    (hBreak : brk.isLineBreak = true)
    (hEffect : brk.effect = Effect.none)
    (depth : Nat)
    (rest : List Token)
    (lines : List Text.Line)
    (j : Nat) :
    depthBy depth (tokens ++ brk :: rest)
        (n + Text.lineOffset (⟨body, brk.text⟩ :: lines)
          (j + 1)) =
      depthBy (depthAfter depth tokens) rest
        (brk.stop + Text.lineOffset lines j) :=
  foldBy_more hTiles hStart hBreak
    (fun depth => by simp only [depthStep, hEffect]) depth rest
    lines j

end Token

------------------------------------------------------------
-- Line by line
------------------------------------------------------------

namespace RuleTable

variable (table : RuleTable)
variable (m : LanguageMeta)
variable (options : IndentOptions)

/- The last line takes all tokens that are left. -/
theorem indentsFrom_last
    {tokens : List Token}
    (h : ∀ t ∈ tokens, t.isLineBreak = false)
    (number : Nat)
    (state : State)
    (levels : List Nat)
    (line : Text.Line) :
    table.indentsFrom m options number state levels tokens
        [line] =
      [⟨number, state, levels.length,
        (Token.depthAfter levels.length tokens : Int) -
          levels.length,
        table.suggest m state levels line.body.trimStart⟩] := by
  simp only [indentsFrom, Token.beforeBreak_eq_self h,
    Token.length_foldl_applyEffect]

/- Another line takes the tokens up to its break. -/
theorem indentsFrom_more
    {tokens : List Token}
    (h : ∀ t ∈ tokens, t.isLineBreak = false)
    {brk : Token}
    (hBreak : brk.isLineBreak = true)
    (rest : List Token)
    (number : Nat)
    (state : State)
    (levels : List Nat)
    (line : Text.Line)
    (lines : List Text.Line) :
    let level := line.body.level options
    table.indentsFrom m options number state levels
        (tokens ++ brk :: rest) (line :: lines) =
      ⟨number, state, levels.length,
        (Token.depthAfter levels.length tokens : Int) -
          levels.length,
        table.suggest m state levels line.body.trimStart⟩ ::
        table.indentsFrom m options (number + 1)
          brk.stateAfter
          (tokens.foldl (Token.applyEffect level) levels)
          rest lines := by
  simp only [indentsFrom, Token.beforeBreak_append h hBreak,
    Token.fromBreak_append h hBreak,
    Token.length_foldl_applyEffect, List.head?_cons,
    Option.toList_some, List.tail_cons, Token.endState_cons,
    Token.endState_nil]

/- The lines start in the states after the breaks. -/
theorem startStates_indentsFrom
    {n : Nat}
    {tokens : List Token}
    {lines : List Text.Line}
    (h : Token.Aligned n tokens lines)
    (number : Nat)
    (state : State)
    (levels : List Nat) :
    (table.indentsFrom m options number state levels tokens
        lines).map LineIndent.startState =
      state :: Token.statesAfterBreaks tokens := by
  induction h generalizing number state levels with
  | @last n tokens body hFree hTiles =>
      rw [indentsFrom_last table m options
        (hTiles.not_isLineBreak hFree)]
      simp [Token.statesAfterBreaks,
        hTiles.filter_isLineBreak hFree]
  | @more n tokens rest body brk lines hFree hTiles hStart
      hBreak hEffect hRest ih =>
      rw [indentsFrom_more table m options
        (hTiles.not_isLineBreak hFree) hBreak,
        Token.statesAfterBreaks_more hFree hTiles hBreak]
      simp only [List.map_cons, ih]

/-
  The levels open before a line are counted by the tokens
  that end where the line starts or earlier, and those open
  after it by the tokens that end by its end.
-/
theorem depth_indentsFrom
    {n : Nat}
    {tokens : List Token}
    {lines : List Text.Line}
    (h : Token.Aligned n tokens lines)
    (number : Nat)
    (state : State)
    (levels : List Nat)
    {i : Nat}
    {line : LineIndent}
    (hLine :
      (table.indentsFrom m options number state levels tokens
        lines)[i]? = some line) :
    line.line = number + i ∧
      line.depth =
        Token.depthBy levels.length tokens
          (n + Text.lineOffset lines i) ∧
      line.depth + line.delta =
        Token.depthBy levels.length tokens
          (n + Text.lineOffset lines (i + 1)) := by
  induction h generalizing number state levels i with
  | @last n tokens body hFree hTiles =>
      rw [indentsFrom_last table m options
        (hTiles.not_isLineBreak hFree)] at hLine
      cases i with
      | succ i => cases hLine
      | zero =>
          cases hLine
          refine ⟨rfl, ?_, ?_⟩
          · rw [Text.lineOffset_zero, Nat.add_zero,
              hTiles.depthBy_start]
          · rw [Text.lineOffset_one, Text.Line.text,
              List.append_nil, hTiles.depthBy_end]
            simp only
            omega
  | @more n tokens rest body brk lines hFree hTiles hStart
      hBreak hEffect hRest ih =>
      rw [indentsFrom_more table m options
        (hTiles.not_isLineBreak hFree) hBreak] at hLine
      have hAll : Token.Tiles n (tokens ++ brk :: rest)
          (Text.join (⟨body, brk.text⟩ :: lines)) :=
        (Token.Aligned.more hFree hTiles hStart hBreak hEffect
          hRest).tiles
      have hAfter := fun j =>
        Token.depthBy_more hTiles hStart hBreak hEffect
          levels.length rest lines j
      cases i with
      | zero =>
          cases hLine
          refine ⟨rfl, ?_, ?_⟩
          · rw [Text.lineOffset_zero, Nat.add_zero,
              hAll.depthBy_start]
          · rw [hAfter, Text.lineOffset_zero, Nat.add_zero,
              hRest.tiles.depthBy_start]
            simp only
            omega
      | succ i =>
          rw [List.getElem?_cons_succ] at hLine
          rcases ih (number + 1) brk.stateAfter _ hLine with
            ⟨hNumber, hBefore, hBy⟩
          rw [Token.length_foldl_applyEffect] at hBefore hBy
          rw [hAfter, hAfter]
          refine ⟨?_, hBefore, hBy⟩
          rw [hNumber]
          omega

/-
  The states at line starts that are noted by a scan, by
  highlighting and by indentation are the same, one for
  each line of the text.
-/
theorem lineStates_agree
    (text : Text)
    (state : State) :
    let states := table.lineStates text state
    (table.highlight text state).lineStates = states ∧
      (table.lineIndents m text state options).map
        LineIndent.startState = states ∧
      states.length = text.lines.length := by
  intro states
  have hAligned := table.scanFrom_aligned ⟨0, state⟩ text
  exact ⟨rfl,
    startStates_indentsFrom table m options hAligned 0 state
      [],
    hAligned.length_statesAfterBreaks⟩

/-
  For every rule table and text, the lines make up the text
  and only the last of them has no line break; the tokens
  that are line breaks are the line breaks of the lines, and
  no other token has one in it; all lists of states at line
  starts are the same; and the levels open before a line and
  after it are counted by the tokens up to there.
-/
theorem lines_agree
    (text : Text)
    (state : State) :
    let lines := text.lines
    let tokens := table.scan text state
    let states := table.lineStates text state
    let indents := table.lineIndents m text state options
    Text.SplitsInto text lines ∧
    (tokens.filter Token.isLineBreak).map
        (fun t => (t.start, t.text)) =
      Text.breaksFrom 0 lines ∧
    (∀ t ∈ tokens, t.isLineBreak = false →
      t.text.BreakFree) ∧
    (table.highlight text state).lineStates = states ∧
    indents.map LineIndent.startState = states ∧
    states.length = lines.length ∧
    (∀ (i : Nat) (line : LineIndent),
      indents[i]? = some line →
      line.line = i ∧
      line.depth =
        Token.depthBy 0 tokens (Text.lineOffset lines i) ∧
      line.depth + line.delta =
        Token.depthBy 0 tokens
          (Text.lineOffset lines (i + 1))) := by
  intro lines tokens states indents
  have hAligned : Token.Aligned 0 tokens lines :=
    table.scanFrom_aligned ⟨0, state⟩ text
  rcases table.lineStates_agree m options text state with
    ⟨hHighlight, hIndents, hLength⟩
  refine ⟨text.splitsInto_lines, hAligned.breaks_eq, ?_,
    hHighlight, hIndents, hLength, ?_⟩
  · intro t ht hNot
    rcases table.scanFrom_kind ⟨0, state⟩ text t ht with
      hBreak | hFree
    · rw [hNot] at hBreak
      cases hBreak
    · exact hFree
  · intro i line hLine
    have hDepth :=
      depth_indentsFrom table m options hAligned 0 state []
        hLine
    simpa only [Nat.zero_add, List.length_nil] using hDepth

end RuleTable

end Highlighter

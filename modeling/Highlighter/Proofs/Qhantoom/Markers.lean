import Highlighter.Proofs.Qhantoom.Brackets
import Highlighter.Proofs.Qhantoom.SingleTokens
import Highlighter.Proofs.Scan.Origin

/-
  The markers that begin a comment, and operators, which are
  made of the same characters. Where an operator could begin,
  a marker wins. But an operator is the longest run of its
  characters, and a marker further on in it begins nothing.

  Key definitions include:
    * `Qhantoom.comment?`
    * `Qhantoom.operators`
    * `Qhantoom.MarkerCase`

  Main statements:
    * `Qhantoom.stepOn_comment`
    * `Qhantoom.lone_of_stepOn`: a slash and an operator are
      in the only token of their step.
    * `Qhantoom.markers_accounted`
-/

namespace Highlighter

namespace Qhantoom

open Regex RuleTable

------------------------------------------------------------
-- Comments
------------------------------------------------------------

/-
  The first token of the comment that a line begins with and
  the state after it: the rest of the line, or the marker.
-/
def comment? (line : Text) : Option (Text × State) :=
  if ['/', '/'].isPrefixOf line then
    some (line, State.start)
  else if ['/', '*'].isPrefixOf line then
    some (['/', '*'], State.comment)
  else
    none

/- The rule for comments to the end of the line. -/
def lineCommentRule : Rule Pattern :=
  labelling (concat [char '/', char '/', lineText])
    Label.comment

/- The rule for comments that can have more lines. -/
def blockCommentRule : Rule Pattern :=
  { labelling (word "/*") Label.comment with
    next := some State.comment }

/- Text of a line is read to its end first. -/
theorem head?_lineText
    {p : Place}
    (hFree : Text.BreakFree p.rest) :
    (lineText.paths p).head? = some (p.beyond p.rest) := by
  have hAll :
      p.rest.takeWhile (CharSet.notNewline.contains ·) =
        p.rest :=
    List.takeWhile_eq_self_iff.mpr fun c hc =>
      CharSet.contains_notNewline (hFree c hc)
  rw [lineText, paths_many_set, head?_star, Place.past, hAll]

theorem apply_lineCommentRule
    {line : Text}
    (hFree : line.BreakFree) :
    lineCommentRule.apply line =
      if ['/', '/'].isPrefixOf line then
        some ⟨line.length, [⟨some Label.comment, line⟩]⟩
      else none := by
  have hMarker :
      (concat [char '/', char '/']).paths (Place.first line) =
        if ['/', '/'].isPrefixOf line then
          [(Place.first line).beyond ['/', '/']]
        else [] :=
    paths_literal ['/', '/'] (Place.first line)
  have hHead :
      ((concat [char '/', char '/', lineText]).paths
          (Place.first line)).head? =
        if ['/', '/'].isPrefixOf line then
          some ((Place.first line).beyond line)
        else none := by
    have hBoth := paths_concat_append
      [char '/', char '/'] [lineText] (Place.first line)
    rw [List.cons_append, List.cons_append,
      List.nil_append] at hBoth
    rw [hBoth, hMarker]
    split
    · rename_i hPrefix
      rcases List.isPrefixOf_iff_prefix.mp hPrefix with
        ⟨u, rfl⟩
      have hRest :
          ((Place.first (['/', '/'] ++ u)).beyond
            ['/', '/']).rest = u := rfl
      rw [List.flatMap_singleton, concat, head?_lineText,
        hRest, Place.beyond_append]
      intro c hc
      exact hFree c (List.mem_append_right _ hc)
    · rfl
  refine apply_labelling (by decide) Label.comment
    (fun hPrefix => ⟨?_, List.prefix_refl line⟩) hHead
  rintro rfl
  cases hPrefix

theorem apply_blockCommentRule (line : Text) :
    blockCommentRule.apply line =
      if ['/', '*'].isPrefixOf line then
        some ⟨2, [⟨some Label.comment, ['/', '*']⟩]⟩
      else none := by
  have hMarker :
      (word "/*").paths (Place.first line) =
        if ['/', '*'].isPrefixOf line then
          [(Place.first line).beyond ['/', '*']]
        else [] :=
    paths_literal ['/', '*'] (Place.first line)
  have hHead :
      ((word "/*").paths (Place.first line)).head? =
        if ['/', '*'].isPrefixOf line then
          some ((Place.first line).beyond ['/', '*'])
        else none := by
    rw [hMarker]
    split
    · rfl
    · rfl
  exact apply_labelling (s := ['/', '*']) (by decide)
    Label.comment
    (fun hPrefix => ⟨List.cons_ne_nil _ _,
      List.isPrefixOf_iff_prefix.mp hPrefix⟩) hHead

------------------------------------------------------------
-- Operators
------------------------------------------------------------

/- Operators are made of these characters. -/
def operators : Language Char :=
  Text.someOf "-+/*=<>!:."

/- The rule for operators. -/
def operatorRule : Rule Pattern :=
  labelling (some1 (set operatorChars)) Label.operator

theorem spells_operatorChars :
    Spells operatorChars "-+/*=<>!:." :=
  spells_of_ascii (by decide) (by decide) (by decide +kernel)

/- Where an operator can begin the rule takes the longest. -/
theorem exists_apply_operatorRule
    {c : Char}
    (hc : c ∈ "-+/*=<>!:.".toList)
    (line : Text) :
    ∃ s, Longest operators (c :: line) s ∧
      operatorRule.apply (c :: line) =
        some ⟨s.length, [⟨some Label.operator, s⟩]⟩ := by
  have hMem : [c] ∈ operators :=
    Language.mem_mul.mpr
      ⟨[c], ⟨c, hc, rfl⟩, [], Text.nil_mem_runOf _, rfl⟩
  exact apply_of_munches (munches_some1 spells_operatorChars)
    (by decide) Label.operator hMem (List.cons_ne_nil c [])
    (List.prefix_append [c] line)

/- It takes nothing else. -/
theorem longest_of_apply
    {line : Text}
    {hit : Hit}
    (h : operatorRule.apply line = some hit) :
    ∃ s, Longest operators line s ∧
      hit = ⟨s.length, [⟨some Label.operator, s⟩]⟩ := by
  have hPos := Rule.apply_length_pos h
  have hLe := Rule.apply_length_le h
  cases line with
  | nil => exact absurd hLe (Nat.not_le_of_lt hPos)
  | cons c line =>
      have hc : c ∈ "-+/*=<>!:.".toList := by
        by_contra hNot
        have hSame : operatorRule.pattern.readsFirst c =
            operatorChars.contains c := rfl
        have hRead :
            operatorRule.pattern.readsFirst c = false := by
          rw [hSame, ← Bool.not_eq_true,
            spells_operatorChars c]
          exact hNot
        rw [Rule.apply_eq_none hRead] at h
        cases h
      rcases exists_apply_operatorRule hc line with
        ⟨s, hLongest, hApply⟩
      exact ⟨s, hLongest, Option.some.inj (h.symm.trans hApply)⟩

------------------------------------------------------------
-- Rules
------------------------------------------------------------

theorem lineCommentRule_getElem? :
    compiledStart[12]? = some lineCommentRule := by
  rfl

theorem blockCommentRule_getElem? :
    compiledStart[13]? = some blockCommentRule := by
  rfl

/- The rule for longer comments comes right after. -/
theorem take_blockCommentRule :
    compiledStart.take 13 =
      compiledStart.take 12 ++ [lineCommentRule] := by
  rfl

/- The rules before those read no slash first. -/
theorem earlier_rules_skip_slash
    {c : Char}
    {line : Text}
    (hMarker : ['/', c].isPrefixOf line = true) :
    ∀ r ∈ compiledStart.take 12, r.apply line = none := by
  have hNot : ∀ r ∈ compiledStart.take 12,
      r.pattern.readsFirst '/' = false := by
    decide +kernel
  rcases List.isPrefixOf_iff_prefix.mp hMarker with
    ⟨rest, rfl⟩
  exact fun r hr => Rule.apply_eq_none (hNot r hr) _

/- The rule for comments that fires first. -/
theorem exists_commentRule
    {line s : Text}
    {next : State}
    (hFree : line.BreakFree)
    (h : comment? line = some (s, next)) :
    ∃ n r,
      compiledStart[n]? = some r ∧
        r.effect = Effect.none ∧
        r.stateAfter State.start = next ∧
        (∀ other ∈ compiledStart.take n,
          other.apply line = none) ∧
        r.apply line =
          some ⟨s.length, [⟨some Label.comment, s⟩]⟩ := by
  have hLineApply := apply_lineCommentRule hFree
  unfold comment? at h
  split at h
  · rename_i hMarker
    cases h
    rw [if_pos hMarker] at hLineApply
    exact ⟨12, lineCommentRule, lineCommentRule_getElem?,
      rfl, rfl, earlier_rules_skip_slash hMarker, hLineApply⟩
  · rename_i hNot
    rw [if_neg hNot] at hLineApply
    split at h
    · rename_i hMarker
      cases h
      refine ⟨13, blockCommentRule,
        blockCommentRule_getElem?, rfl, rfl, ?_, ?_⟩
      · intro r hr
        rw [take_blockCommentRule] at hr
        rcases List.mem_append.mp hr with hr | hr
        · exact earlier_rules_skip_slash hMarker r hr
        · rw [List.mem_singleton.mp hr]
          exact hLineApply
      · rw [apply_blockCommentRule, if_pos hMarker]
        rfl
    · cases h

/- What a comment takes first is ahead. -/
theorem prefix_of_comment?
    {line s : Text}
    {next : State}
    (h : comment? line = some (s, next)) : s <+: line := by
  unfold comment? at h
  split at h
  · cases h
    exact List.prefix_refl _
  · split at h
    · rename_i hMarker
      cases h
      exact List.isPrefixOf_iff_prefix.mp hMarker
    · cases h

/- It begins with a slash. -/
theorem exists_cons_of_comment?
    {line s : Text}
    {next : State}
    (h : comment? line = some (s, next)) :
    ∃ m, s = '/' :: m := by
  unfold comment? at h
  split at h
  · rename_i hMarker
    cases h
    rcases List.isPrefixOf_iff_prefix.mp hMarker with
      ⟨u, rfl⟩
    exact ⟨'/' :: u, rfl⟩
  · split at h
    · cases h
      exact ⟨['*'], rfl⟩
    · cases h

/-
  In the start state a marker begins a comment, whatever
  operator it could begin.
-/
theorem stepOn_comment
    {text s : Text}
    {next : State}
    (h : comment? (Text.currentLine text) = some (s, next))
    (offset : Nat) :
    ∃ rest, text = s ++ rest ∧
      table.stepOn ⟨offset, State.start⟩ text =
        some (oneToken offset Label.comment s next rest) := by
  rcases exists_commentRule (Text.breakFree_currentLine text) h
    with ⟨n, r, hRule, hEffect, hNext, hSkipped, hApply⟩
  rcases (prefix_of_comment? h).trans
    (List.takeWhile_prefix _) with ⟨rest, rfl⟩
  refine ⟨rest, rfl, ?_⟩
  rw [← hNext]
  exact stepOn_oneToken hRule hEffect hSkipped hApply offset

------------------------------------------------------------
-- Tokens with a slash
------------------------------------------------------------

/-
  A rule that can read a slash or label an operator labels
  all it reads as a part of a literal, a comment or an
  attribute, or it is the rule for operators.
-/
theorem slash_rules (state : State) :
    ∀ r ∈ compiledOf state,
      (∃ label ∈ literalLabels,
          r.labelling = Labelling.whole (some label)) ∨
        (state = State.start ∧ r = operatorRule) ∨
        (r.pattern.mayRead '/' = false ∧
          some Label.operator ∉ r.labels) := by
  cases state <;> decide +kernel

/- A piece or token is an operator or has a slash in it. -/
def Slashed (label : Option Label) (text : Text) : Prop :=
  label = some Label.operator ∨ '/' ∈ text

/- What a rule takes with a slash or for an operator. -/
theorem pieces_of_slashed
    {state : State}
    {r : Rule Pattern}
    (hr : r ∈ table.rules state)
    {line : Text}
    {hit : Hit}
    (hApply : r.apply line = some hit)
    {piece : Piece}
    (hPiece : piece ∈ hit.pieces)
    (hSlashed : Slashed piece.label piece.text) :
    hit.pieces = [piece] ∧
      ((∃ label ∈ literalLabels, piece.label = some label) ∨
        state = State.start ∧ r = operatorRule) := by
  rw [rules_eq_compiledOf] at hr
  rcases slash_rules state r hr with
    ⟨label, hLabel, hWhole⟩ | ⟨hState, rfl⟩ | ⟨hRead, hLabels⟩
  · rw [Rule.apply_whole hWhole,
      Option.bind_eq_some_iff] at hApply
    rcases hApply with ⟨n, -, hHit⟩
    split at hHit
    · cases hHit
    · cases hHit
      cases List.mem_singleton.mp hPiece
      exact ⟨rfl, Or.inl ⟨label, hLabel, rfl⟩⟩
  · rcases longest_of_apply hApply with ⟨s, -, rfl⟩
    cases List.mem_singleton.mp hPiece
    exact ⟨rfl, Or.inr ⟨hState, rfl⟩⟩
  · exfalso
    rcases hSlashed with hOperator | hSlash
    · apply hLabels
      rw [← hOperator]
      exact Rule.label_of_apply hApply hPiece
    · have hMay := Rule.mayRead_of_mem hApply hPiece hSlash
      rw [hRead] at hMay
      cases hMay

/- No slash is skipped. -/
theorem slash_not_skipped
    {cursor : Cursor}
    {text : Text}
    (hState : cursor.state = State.start)
    (h : table.Recovers cursor text) :
    '/' ∉ text.take 1 := by
  rcases h with ⟨hText, hBreak, hNone⟩
  rw [hState, rules_start, firstHit_eq_none_iff] at hNone
  have hOperator : operatorRule ∈ compiledStart := by
    decide +kernel
  have hNo := hNone operatorRule hOperator
  cases text with
  | nil => exact absurd rfl hText
  | cons c rest =>
      intro hSlash
      cases List.mem_singleton.mp hSlash
      rw [Text.currentLine_cons hBreak] at hNo
      rcases exists_apply_operatorRule (c := '/') (by decide)
        (Text.currentLine rest) with ⟨s, -, hApply⟩
      rw [hNo] at hApply
      cases hApply

/- A line break has no slash in it. -/
theorem slash_notMem_lineBreak
    {text : Text}
    (h : Text.isLineBreak text = true) : '/' ∉ text := by
  intro hSlash
  have hBreak := Text.isBreakChar_of_mem h hSlash
  exact absurd hBreak (by decide)

/-
  A token with a slash in it is the only one of its step, and
  so is an operator. It is part of a literal, a comment or an
  attribute, or it is the longest operator in the start
  state.
-/
theorem lone_of_stepOn
    {cursor : Cursor}
    {text : Text}
    {s : Step}
    (h : table.stepOn cursor text = some s)
    {t : Token}
    (ht : t ∈ s.tokens)
    (hSlashed : Slashed t.label t.text) :
    s.tokens = [t] ∧ t.start = cursor.offset ∧
      (IsLiteral t ∨
        cursor.state = State.start ∧
          t.label = some Label.operator ∧
          t.stateAfter = State.start ∧
          Longest operators (Text.currentLine text) t.text) := by
  rcases stepOn_cases h with
    ⟨hBreak, rfl⟩ | ⟨-, -, r, hit, hHit, rfl⟩ |
      ⟨hRecovers, rfl⟩
  · exfalso
    rw [List.mem_singleton.mp ht] at hSlashed
    rcases hSlashed with hLabel | hSlash
    · cases hLabel
    · exact slash_notMem_lineBreak
        (Text.isLineBreak_take_breakLength hBreak) hSlash
  · have hApply := firstHit_apply hHit
    rcases Token.exists_of_mem_layOut ht with
      ⟨piece, hPiece, hLabel, hText⟩
    rw [← hLabel, ← hText] at hSlashed
    rcases pieces_of_slashed (firstHit_mem hHit) hApply hPiece
        hSlashed with
      ⟨hPieces, hKind⟩
    rw [stepOver, hPieces] at ht ⊢
    cases List.mem_singleton.mp ht
    refine ⟨rfl, rfl, hKind.imp_right ?_⟩
    rintro ⟨hState, rfl⟩
    rcases longest_of_apply hApply with ⟨u, hLongest, rfl⟩
    cases hPieces
    exact ⟨hState, rfl, hState, hLongest⟩
  · exfalso
    have hToken := List.mem_singleton.mp ht
    rw [hToken] at hSlashed
    rcases hSlashed with hLabel | hSlash
    · cases hLabel
    · by_cases hState : cursor.state = State.start
      · exact slash_not_skipped hState hRecovers hSlash
      · rcases (belongs_of_stepOn hState h t ht).1 with
          hBreak | hLabel
        · rw [hToken] at hBreak
          exact slash_notMem_lineBreak hBreak hSlash
        · rw [hToken] at hLabel
          cases hCase : cursor.state with
          | start => exact hState hCase
          | string => rw [hCase] at hLabel; cases hLabel
          | rawString => rw [hCase] at hLabel; cases hLabel
          | hashString => rw [hCase] at hLabel; cases hLabel
          | comment => rw [hCase] at hLabel; cases hLabel

------------------------------------------------------------
-- Scans
------------------------------------------------------------

/-
  What becomes of a marker at an offset, where a comment that
  begins with `s` could begin. Either that is the comment; or
  the marker is inside of a literal, a comment or an
  attribute that began before it; or it is inside of an
  operator that did.
-/
inductive MarkerCase
    (state : State)
    (offset : Nat)
    (s : Text)
    (next : State)
    (front : List Token)
    (t : Token) : Prop
  | comment
      (hState : Token.endState state front = State.start)
      (hToken : t =
        ⟨some Label.comment, s, offset, next, Effect.none⟩)
  | literal
      (hOver : t.Over offset)
      (hLiteral : IsLiteral t)
      (hInside : t.start < offset ∨
        Token.endState state front ≠ State.start)
  | operator
      (hOver : t.Over offset)
      (hLabel : t.label = some Label.operator)
      (hLater : t.start < offset)

section

variable {text : Text}
variable {state : State}
variable {front back : List Token}
variable {t : Token}

/- The step of such a token, told by the scan. -/
theorem step_of_slashed
    (hScan : table.scan text state = front ++ t :: back)
    (hSlashed : Slashed t.label t.text) :
    ∃ passed rest s, text = passed ++ rest ∧
      t.start = passed.size ∧ s.tokens = [t] ∧
      table.stepOn ⟨passed.size, Token.endState state front⟩
          rest = some s ∧
      (IsLiteral t ∨
        Token.endState state front = State.start ∧
          t.label = some Label.operator ∧
          t.stateAfter = State.start ∧
          Longest operators (Text.currentLine rest) t.text) := by
  rcases exists_origin hScan with ⟨passed, rest, s, hOrigin⟩
  rcases hOrigin.made with
    ⟨earlier, inner, later, -, hTokens, hMade⟩
  have hMem : t ∈ s.tokens := by
    rw [hTokens]
    simp
  have hLone := (lone_of_stepOn hMade hMem hSlashed).1
  have hStep := hOrigin.stepOn_eq hLone
  rw [Nat.zero_add] at hStep
  rcases lone_of_stepOn hStep hMem hSlashed with
    ⟨-, hStart, hKind⟩
  exact ⟨passed, rest, s, hOrigin.text_eq, hStart, hLone, hStep,
    hKind⟩

/- No operator begins where a comment could. -/
theorem operator_of_scan
    (hScan : table.scan text state = front ++ t :: back)
    (hLabel : t.label = some Label.operator) :
    Token.endState state front = State.start ∧
      t.stateAfter = State.start ∧
      ∃ before after,
        text = before ++ (t.text ++ after) ∧
          t.start = before.size ∧
          Longest operators
            (Text.currentLine (t.text ++ after)) t.text ∧
          comment? (Text.currentLine (t.text ++ after)) =
            none := by
  rcases step_of_slashed hScan (Or.inl hLabel) with
    ⟨passed, rest, s, hText, hStart, hLone, hStep, hKind⟩
  have hNotLiteral : ¬ IsLiteral t := by
    rintro ⟨label, hMem, hOther⟩
    cases hLabel.symm.trans hOther
    exact absurd hMem (by decide)
  rcases hKind.resolve_left hNotLiteral with
    ⟨hState, -, hAfter, hLongest⟩
  refine ⟨hState, hAfter, ?_⟩
  rcases hLongest.begins.trans (List.takeWhile_prefix _) with
    ⟨after, rfl⟩
  refine ⟨passed, after, hText, hStart, hLongest, ?_⟩
  cases hComment :
      comment? (Text.currentLine (t.text ++ after)) with
  | none => rfl
  | some found =>
      exfalso
      rcases stepOn_comment hComment passed.size with
        ⟨more, -, hOther⟩
      rw [hState, hOther] at hStep
      cases hStep
      cases hLone
      cases hLabel

/- What becomes of a marker, wherever it stands. -/
theorem marker_of_scan
    {before after s : Text}
    {next : State}
    (hText : text = before ++ after)
    (hMarker :
      comment? (Text.currentLine after) = some (s, next)) :
    ∃ front t back,
      table.scan text state = front ++ t :: back ∧
        MarkerCase state before.size s next front t := by
  have hTiles : Token.Tiles 0 (table.scan text state) text :=
    table.scanFrom_tiles ⟨0, state⟩ text
  rcases stepOn_comment hMarker before.size with
    ⟨more, hAfter, hComment⟩
  rcases exists_cons_of_comment? hMarker with ⟨m, rfl⟩
  have hSlash : text = before ++ '/' :: (m ++ more) := by
    rw [hText, hAfter]
    rfl
  rcases hTiles.exists_over hSlash with
    ⟨t, ht, u, v, hSplit, hStart⟩
  rw [Nat.zero_add] at hStart
  have hOver : t.Over before.size := by
    constructor
    · omega
    · rw [Token.stop, hSplit, Text.size_append, Text.size_cons]
      have hPos := Char.utf8Size_pos '/'
      omega
  rcases List.append_of_mem ht with ⟨front, back, hScan⟩
  refine ⟨front, t, back, hScan, ?_⟩
  have hSlashed : Slashed t.label t.text := by
    right
    rw [hSplit]
    simp
  rcases step_of_slashed hScan hSlashed with
    ⟨passed, rest, step, hRest, hOffset, hLone, hStep, hKind⟩
  by_cases hHere : t.start = before.size ∧
      Token.endState state front = State.start
  · -- the step is the one of the comment
    have hSize : passed.size = before.size :=
      hOffset.symm.trans hHere.1
    have hSame : some rest = some after := by
      rw [← Text.suffixAt_append passed rest,
        ← Text.suffixAt_append before after, ← hRest, hSize,
        ← hText]
    cases hSame
    rw [hHere.2, hSize, hComment] at hStep
    cases hStep
    exact MarkerCase.comment hHere.2
      (List.singleton_inj.mp hLone).symm
  · rcases hKind with hLiteral | ⟨hState, hLabel, -⟩
    · apply MarkerCase.literal hOver hLiteral
      by_cases hState :
          Token.endState state front = State.start
      · left
        have hNot : t.start ≠ before.size :=
          fun hAt => hHere ⟨hAt, hState⟩
        exact Nat.lt_of_le_of_ne hOver.1 hNot
      · exact Or.inr hState
    · apply MarkerCase.operator hOver hLabel
      have hNot : t.start ≠ before.size :=
        fun hAt => hHere ⟨hAt, hState⟩
      exact Nat.lt_of_le_of_ne hOver.1 hNot

end

/-
  Every comment marker is accounted for. An operator is met
  in the start state, stays in it and is the longest run of
  its characters, and no comment marker stands where it
  begins. Where a marker stands a comment begins, unless it
  is inside of a literal, a comment or an attribute; or it is
  inside of an operator that began before it.
-/
theorem markers_accounted (text : Text) (state : State) :
    let tokens := table.scan text state
    (∀ front t back, tokens = front ++ t :: back →
      t.label = some Label.operator →
        Token.endState state front = State.start ∧
          t.stateAfter = State.start ∧
          ∃ before after,
            text = before ++ (t.text ++ after) ∧
              t.start = before.size ∧
              Longest operators
                (Text.currentLine (t.text ++ after)) t.text ∧
              comment? (Text.currentLine (t.text ++ after)) =
                none) ∧
    (∀ before after s next, text = before ++ after →
      comment? (Text.currentLine after) = some (s, next) →
        ∃ front t back, tokens = front ++ t :: back ∧
          MarkerCase state before.size s next front t) := by
  intro tokens
  exact ⟨fun front t back hScan hLabel =>
      operator_of_scan hScan hLabel,
    fun before after s next hText hMarker =>
      marker_of_scan hText hMarker⟩

/- Further on in an operator a marker is passed over. -/
theorem marker_in_operator :
    ¬ ∀ (text : Text) (state : State),
      ∀ t ∈ table.scan text state,
        t.label = some Label.operator →
          ¬ ['/', '/'] <:+: t.text ∧
            ¬ ['/', '*'] <:+: t.text := by
  intro h
  have hScan :
      ⟨some Label.operator, ['=', '/', '/'], 0, State.start,
          Effect.none⟩ ∈
        table.scan ['=', '/', '/', 'c'] State.start := by
    rw [table_eq_compiled]
    decide +kernel
  exact (h _ _ _ hScan rfl).1 ⟨['='], [], rfl⟩

end Qhantoom

end Highlighter

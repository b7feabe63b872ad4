import Highlighter.Proofs.Indent
import Highlighter.Proofs.Scan.Concatenation
import Highlighter.Proofs.Scan.Stream

/-
  Scans that are stopped and taken up again: wherever a
  stream stands, its cursor is all that is needed to get the
  tokens that have not been made yet, and at the start of
  each line it is the offset and the state of the line.

  Key definitions include:
    * `TokenStream.given`
    * `TokenStream.Covers`

  Main statements:
    * `TokenStream.Covers.after`: the tokens given out and
      pending are those up to the cursor.
    * `TokenStream.reaches_line`: a stream comes by the
      start of every line.
    * `RuleTable.resumes_anywhere`
-/

namespace Highlighter

namespace TokenStream

variable (table : RuleTable)

------------------------------------------------------------
-- The tokens given out
------------------------------------------------------------

/- The tokens that a number of calls give out. -/
def given : TokenStream → Nat → List Token
  | _, 0 => []
  | s, k + 1 =>
      (s.next table).1.toList ++ given (s.next table).2 k

/- They come before those that are still to come. -/
theorem given_append_toCome (s : TokenStream) (k : Nat) :
    s.given table k ++ (s.after table k).toCome table =
      s.toCome table := by
  induction k generalizing s with
  | zero => rfl
  | succ k ih =>
      rw [given, after, List.append_assoc, ih, next_fst,
        toCome_next]
      cases s.toCome table <;> rfl

/-
  Some tokens cover a text up to the cursor of a stream, the
  pending ones included, when they tile what lies before the
  rest and leave the scan in the state of the cursor.
-/
structure Covers
    (text : Text)
    (state : State)
    (tokens : List Token)
    (s : TokenStream) : Prop where
  tiles :
    ∃ before, text = before ++ s.rest ∧
      before.size = s.cursor.offset ∧
      Token.Tiles 0 (tokens ++ s.pending) before
  endState_eq :
    Token.endState state (tokens ++ s.pending) =
      s.cursor.state

/- No token covers nothing. -/
theorem covers_start (text : Text) (state : State) :
    Covers text state [] (start text state) :=
  ⟨⟨[], rfl, rfl, Token.Tiles.nil 0⟩, rfl⟩

/- After a call they do with the token that it gives out. -/
theorem Covers.next
    {text : Text}
    {state : State}
    {tokens : List Token}
    {s : TokenStream}
    (h : Covers text state tokens s) :
    Covers text state
      (tokens ++ (s.next table).1.toList)
      (s.next table).2 := by
  unfold TokenStream.next
  split
  · -- a pending token is given out
    rename_i t pending hPending
    rcases h with ⟨⟨before, hText, hSize, hTiles⟩, hState⟩
    rw [hPending] at hTiles hState
    refine ⟨⟨before, hText, hSize, ?_⟩, ?_⟩
    · rw [Option.toList_some, List.append_assoc]
      exact hTiles
    · rw [Option.toList_some, List.append_assoc]
      exact hState
  · rename_i hPending
    split
    · rw [Option.toList_none, List.append_nil]
      exact h
    · -- a step is made
      rename_i step hStep
      rcases RuleTable.stepOn_consumes hStep with
        ⟨consumed, hConsumes⟩
      have hSome := hConsumes.tokens_ne_nil
      have hTokens :
          (tokens ++ step.tokens.head?.toList) ++
              step.tokens.tail =
            tokens ++ step.tokens := by
        rw [List.append_assoc]
        cases hEq : step.tokens with
        | nil => exact absurd hEq hSome
        | cons t rest => rfl
      rcases h with ⟨⟨before, hText, hSize, hTiles⟩, hState⟩
      rw [hPending, List.append_nil] at hTiles
      refine ⟨⟨before ++ consumed, ?_, ?_, ?_⟩, ?_⟩
      · rw [hText, hConsumes.text_eq, List.append_assoc]
      · rw [Text.size_append, hSize, hConsumes.offset_eq]
      · rw [hTokens]
        apply hTiles.append
        rw [Nat.zero_add, hSize]
        exact hConsumes.tiles
      · rw [hTokens, Token.endState_append,
          hConsumes.endState_eq]

/- After many calls they do with all that is given out. -/
theorem Covers.after
    {text : Text}
    {state : State}
    {tokens : List Token}
    {s : TokenStream}
    (h : Covers text state tokens s)
    (k : Nat) :
    Covers text state (tokens ++ s.given table k)
      (s.after table k) := by
  induction k generalizing tokens s with
  | zero =>
      rw [given, List.append_nil]
      exact h
  | succ k ih =>
      rw [given, ← List.append_assoc]
      exact ih (h.next table)

------------------------------------------------------------
-- Starts of lines
------------------------------------------------------------

theorem after_add (s : TokenStream) (m n : Nat) :
    s.after table (m + n) =
      (s.after table m).after table n := by
  induction m generalizing s with
  | zero => rw [Nat.zero_add, after]
  | succ m ih => rw [Nat.succ_add, after, after, ih]

/- The calls that give out what is pending. -/
theorem after_pending
    (cursor : Cursor)
    (rest : Text)
    (pending : List Token) :
    (⟨cursor, rest, pending⟩ : TokenStream).after table
        pending.length =
      ⟨cursor, rest, []⟩ := by
  induction pending with
  | nil => rfl
  | cons t pending ih => exact ih

/- The calls that give out the tokens of a step. -/
theorem after_stepOn
    {cursor : Cursor}
    {text : Text}
    {step : RuleTable.Step}
    (h : table.stepOn cursor text = some step) :
    (⟨cursor, text, []⟩ : TokenStream).after table
        step.tokens.length =
      ⟨step.cursor, step.rest, []⟩ := by
  rcases RuleTable.stepOn_consumes h with
    ⟨consumed, hConsumes⟩
  cases hTokens : step.tokens with
  | nil => exact absurd hTokens hConsumes.tokens_ne_nil
  | cons t tokens =>
      rw [List.length_cons, after, next]
      simp only [h, hTokens, List.tail_cons]
      exact after_pending table step.cursor step.rest tokens

/-
  On its way a stream comes by the start of every line, in
  the state noted for the line and with nothing pending.
-/
theorem reaches_line
    (cursor : Cursor)
    (text : Text)
    {i : Nat}
    {state : State}
    (h :
      (cursor.state :: Token.statesAfterBreaks
        (table.scanFrom cursor text))[i]? = some state) :
    ∃ k, (⟨cursor, text, []⟩ : TokenStream).after table k =
      ⟨⟨cursor.offset + Text.lineOffset text.lines i, state⟩,
        Text.join (text.lines.drop i), []⟩ := by
  induction cursor, text using RuleTable.scan_induction table
      generalizing i with
  | hEnd cursor =>
      rw [RuleTable.scanFrom_nil] at h
      cases i with
      | zero =>
          cases h
          exact ⟨0, rfl⟩
      | succ i => cases h
  | hStep cursor text s consumed hs hConsumes ih =>
      cases i with
      | zero =>
          cases h
          refine ⟨0, ?_⟩
          rw [List.drop_zero, Text.join_lines]
          rfl
      | succ i =>
          rw [RuleTable.scanFrom_of_stepOn hs,
            Token.statesAfterBreaks_append,
            List.getElem?_cons_succ] at h
          have hStep := after_stepOn table hs
          rcases hConsumes.kind with
            ⟨hTake, hBreak, hState, hTokens⟩ | hFree
          · -- the step ends an empty line
            have hStates :
                Token.statesAfterBreaks s.tokens =
                  [s.cursor.state] := by
              rw [hTokens, hState]
              simp [Token.statesAfterBreaks,
                Token.isLineBreak, hBreak]
            rw [hStates, List.singleton_append] at h
            rcases ih h with ⟨k, hk⟩
            refine ⟨s.tokens.length + k, ?_⟩
            rw [after_add, hStep, hk,
              hConsumes.lines_of_break hTake,
              Text.lineOffset_succ, hConsumes.offset_eq,
              Nat.add_assoc]
            rfl
          · -- the step lies within the first line
            have hStates :
                Token.statesAfterBreaks s.tokens = [] := by
              rw [Token.statesAfterBreaks,
                hConsumes.tiles.filter_isLineBreak hFree]
              rfl
            rw [hStates, List.nil_append,
              ← List.getElem?_cons_succ
                (a := s.cursor.state)] at h
            rcases ih h with ⟨k, hk⟩
            refine ⟨s.tokens.length + k, ?_⟩
            rw [after_add, hStep, hk]
            rcases hConsumes.lines_of_breakFree hFree with
              ⟨line, lines, hRest, hLines⟩
            have hSize :
                Text.size (Text.Line.text
                    ⟨consumed ++ line.body, line.terminator⟩) =
                  consumed.size + line.text.size := by
              simp only [Text.Line.text, Text.size_append]
              omega
            rw [hRest, hLines, Text.lineOffset_succ,
              Text.lineOffset_succ, hSize, hConsumes.offset_eq]
            simp only [Nat.add_assoc, List.drop_succ_cons]

end TokenStream

------------------------------------------------------------
-- Taking up a scan
------------------------------------------------------------

namespace RuleTable

/-
  For every rule table, text and state, and after any number
  of calls: the tokens given out and pending are the tokens
  of the scan that end by the cursor, they tile the text up
  to there, and the last of them leaves the scan in the
  state of the cursor; and the other tokens of the scan are
  those of a scan of the rest from that state, moved to the
  offset of the cursor. Such a place is the start of every
  line, where the state is the one noted for the line.
-/
theorem resumes_anywhere
    (table : RuleTable)
    (text : Text)
    (state : State) :
    let tokens := table.scan text state
    let stream := TokenStream.start text state
    let offset := Text.lineOffset text.lines
    (∀ k,
      let s := stream.after table k
      let covered := stream.given table k ++ s.pending
      let later := table.scan s.rest s.cursor.state
      text.suffixAt s.cursor.offset = some s.rest ∧
      covered =
        tokens.filter (fun t => t.stop ≤ s.cursor.offset) ∧
      (∃ before, text = before ++ s.rest ∧
        Token.Tiles 0 covered before) ∧
      Token.endState state covered = s.cursor.state ∧
      covered ++ later.map (Token.shift s.cursor.offset) =
        tokens) ∧
    (∀ i state',
      (table.lineStates text state)[i]? = some state' →
      ∃ rest,
        rest = Text.join (text.lines.drop i) ∧
        text.suffixAt (offset i) = some rest ∧
        tokens.filter (fun t => t.stop ≤ offset i) ++
          (table.scan rest state').map
            (Token.shift (offset i)) = tokens) := by
  intro tokens stream offset
  have hAll : ∀ k,
      let s := stream.after table k
      let covered := stream.given table k ++ s.pending
      let later := table.scan s.rest s.cursor.state
      text.suffixAt s.cursor.offset = some s.rest ∧
      covered =
        tokens.filter (fun t => t.stop ≤ s.cursor.offset) ∧
      (∃ before, text = before ++ s.rest ∧
        Token.Tiles 0 covered before) ∧
      Token.endState state covered = s.cursor.state ∧
      covered ++ later.map (Token.shift s.cursor.offset) =
        tokens := by
    intro k s covered later
    have hCovers :=
      (TokenStream.covers_start text state).after table k
    rw [List.nil_append] at hCovers
    rcases hCovers with
      ⟨⟨before, hText, hSize, hTiles⟩, hState⟩
    have hWhole :
        covered ++ table.scanFrom s.cursor s.rest = tokens := by
      rw [List.append_assoc]
      exact stream.given_append_toCome table k
    have hLater := table.scanFrom_tiles s.cursor s.rest
    refine ⟨Text.suffixAt_eq_some_iff.mpr
        ⟨before, hText, hSize⟩, ?_, ⟨before, hText, hTiles⟩,
      hState, ?_⟩
    · rw [← hSize, ← Nat.zero_add before.size] at hLater
      have hFilter := hTiles.filter_stop_le hLater
      rw [hWhole, Nat.zero_add, hSize] at hFilter
      exact hFilter.symm
    · rw [← table.scanFrom_eq_scan s.cursor s.rest, hWhole]
  refine ⟨hAll, ?_⟩
  intro i state' hLine
  rcases TokenStream.reaches_line table ⟨0, state⟩ text hLine
    with ⟨k, hk⟩
  have hStream : stream.after table k =
      ⟨⟨offset i, state'⟩, Text.join (text.lines.drop i),
        []⟩ := by
    rw [Nat.zero_add] at hk
    exact hk
  rcases hAll k with ⟨hSuffix, hFilter, -, -, hTokens⟩
  rw [hFilter] at hTokens
  rw [hStream] at hSuffix hTokens
  exact ⟨_, rfl, hSuffix, hTokens⟩

end RuleTable

end Highlighter

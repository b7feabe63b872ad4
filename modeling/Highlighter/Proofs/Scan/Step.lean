import Highlighter.Proofs.Text.Lines
import Highlighter.Proofs.Token
import Highlighter.Scan

/-
  What a single step of a scan does, for every rule table,
  and scans as sequences of steps.

  Key definitions include:
    * `RuleTable.Step.Consumes`
    * `RuleTable.Proceeds`

  Main statements:
    * `RuleTable.stepOn_consumes`: all that a step can do.
    * `RuleTable.stepOn_eq_none_iff`: only at the end of the
      text there is no step.
    * `RuleTable.scan_induction`: induction over the steps
      of a scan.
-/

namespace Highlighter

namespace Token

/- All tokens laid out together have the same state. -/
theorem stateAfter_of_mem_layOut
    {stateAfter : State}
    {effect : Effect}
    {n : Nat}
    {pieces : List Piece}
    {t : Token}
    (h : t ∈ layOut stateAfter effect n pieces) :
    t.stateAfter = stateAfter := by
  induction pieces generalizing effect n with
  | nil => cases h
  | cons piece pieces ih =>
      rcases List.mem_cons.mp h with rfl | hRest
      · rfl
      · exact ih hRest

/- Each of them was one of the pieces. -/
theorem exists_of_mem_layOut
    {stateAfter : State}
    {effect : Effect}
    {n : Nat}
    {pieces : List Piece}
    {t : Token}
    (h : t ∈ layOut stateAfter effect n pieces) :
    ∃ piece ∈ pieces,
      piece.label = t.label ∧ piece.text = t.text := by
  induction pieces generalizing effect n with
  | nil => cases h
  | cons piece pieces ih =>
      rcases List.mem_cons.mp h with rfl | hRest
      · exact ⟨piece, List.mem_cons_self .., rfl, rfl⟩
      · rcases ih hRest with ⟨other, hOther, hSame⟩
        exact ⟨other, List.mem_cons_of_mem _ hOther, hSame⟩

end Token

namespace RuleTable

------------------------------------------------------------
-- Single steps
------------------------------------------------------------

/-
  A step consumes the beginning of the text, at least one
  character of it. Its tokens tile what was consumed and
  leave the scan in the state after the step. What was
  consumed is either the line break that the text begins
  with, which is one unlabelled token and keeps the state,
  or it lies within one line.
-/
structure Step.Consumes
    (cursor : Cursor)
    (text consumed : Text)
    (s : Step) : Prop where
  text_eq : text = consumed ++ s.rest
  nonempty : consumed ≠ []
  tiles : Token.Tiles cursor.offset s.tokens consumed
  offset_eq : s.cursor.offset = cursor.offset + consumed.size
  state_eq : ∀ t ∈ s.tokens, t.stateAfter = s.cursor.state
  kind :
    (consumed = text.take (Text.breakLength text) ∧
        Text.isLineBreak consumed = true ∧
        s.cursor.state = cursor.state ∧
        s.tokens =
          [⟨none, consumed, cursor.offset, cursor.state,
            Effect.none⟩]) ∨
      consumed.BreakFree

/- A step over pieces that fill its text tiles it. -/
theorem stepOver_tiles
    {text : Text}
    {n : Nat}
    {pieces : List Piece}
    (hJoin : Piece.join pieces = text.take n)
    (hFilled : ∀ piece ∈ pieces, piece.text ≠ [])
    (cursor : Cursor)
    (stateAfter : State)
    (effect : Effect) :
    Token.Tiles cursor.offset
      (stepOver cursor text n pieces stateAfter effect).tokens
      (text.take n) := by
  rw [← hJoin]
  exact Token.tiles_layOut hFilled stateAfter effect
    cursor.offset

/- A step over one piece tiles it, if there is something. -/
theorem plainStep_tiles
    {text : Text}
    {n : Nat}
    (hText : text.take n ≠ [])
    (cursor : Cursor) :
    Token.Tiles cursor.offset
      (plainStep cursor text n).tokens (text.take n) := by
  apply stepOver_tiles
  · simp
  · intro piece hPiece
    rcases List.mem_singleton.mp hPiece with rfl
    exact hText

theorem take_ne_nil
    {text : Text}
    {n : Nat}
    (hText : text ≠ [])
    (hn : 0 < n) : text.take n ≠ [] := by
  intro hNil
  rcases List.take_eq_nil_iff.mp hNil with rfl | h
  · cases hn
  · exact hText h

/- All that a step can do. -/
theorem stepOn_consumes
    {table : RuleTable}
    {cursor : Cursor}
    {text : Text}
    {s : Step}
    (h : table.stepOn cursor text = some s) :
    ∃ consumed, s.Consumes cursor text consumed := by
  have hText : text ≠ [] := by
    rintro rfl
    cases h
  cases text with
  | nil => exact absurd rfl hText
  | cons c rest =>
      simp only [stepOn] at h
      split at h
      · rename_i hBreak
        have hLine : Text.currentLine (c :: rest) ≠ [] :=
          Text.currentLine_ne_nil hText hBreak
        have hFree := Text.breakFree_currentLine (c :: rest)
        split at h
        · -- a rule fires
          rename_i r hit hFirst
          cases h
          have hCovers :=
            Rule.apply_covers (firstHit_apply hFirst)
          have hTake := Text.take_currentLine hCovers.length_le
          refine ⟨(c :: rest).take hit.length,
            (List.take_append_drop _ _).symm,
            take_ne_nil hText hCovers.length_pos, ?_, rfl,
            fun t ht => Token.stateAfter_of_mem_layOut ht,
            Or.inr ?_⟩
          · apply stepOver_tiles _ hCovers.filled
            rw [hCovers.join_pieces, hTake]
          · rw [← hTake]
            exact hFree.take hit.length
        · -- no rule fires
          cases h
          have hOne :
              1 ≤ (Text.currentLine (c :: rest)).length :=
            List.length_pos_iff.mpr hLine
          have hTake := Text.take_currentLine hOne
          have hSome : (c :: rest).take 1 ≠ [] :=
            take_ne_nil hText Nat.one_pos
          refine ⟨(c :: rest).take 1,
            (List.take_append_drop _ _).symm, hSome,
            plainStep_tiles hSome cursor, rfl,
            fun t ht => Token.stateAfter_of_mem_layOut ht,
            Or.inr ?_⟩
          rw [← hTake]
          exact hFree.take 1
      · -- a line break
        rename_i hBreak
        cases h
        have hPos : 0 < Text.breakLength (c :: rest) :=
          Nat.pos_of_ne_zero hBreak
        have hSome := take_ne_nil hText hPos
        exact ⟨_, (List.take_append_drop _ _).symm, hSome,
          plainStep_tiles hSome cursor, rfl,
          fun t ht => Token.stateAfter_of_mem_layOut ht,
          Or.inl ⟨rfl, Text.isLineBreak_take_breakLength hPos,
            rfl, rfl⟩⟩

/- Only at the end of the text there is no step. -/
theorem stepOn_eq_none_iff
    {table : RuleTable}
    {cursor : Cursor}
    {text : Text} :
    table.stepOn cursor text = none ↔ text = [] := by
  constructor
  · intro h
    cases text with
    | nil => rfl
    | cons c rest =>
        simp only [stepOn] at h
        split at h
        · split at h <;> cases h
        · cases h
  · rintro rfl
    rfl

/- A rule that fires first is one of the rules. -/
theorem firstHit_mem
    {line : Text}
    {rules : List (Rule Pattern)}
    {r : Rule Pattern}
    {hit : Hit}
    (h : firstHit line rules = some (r, hit)) :
    r ∈ rules := by
  induction rules with
  | nil => cases h
  | cons r' rules ih =>
      simp only [firstHit] at h
      split at h
      · cases h
        exact List.mem_cons_self ..
      · exact List.mem_cons_of_mem r' (ih h)

/- If none does, each of them fails. -/
theorem firstHit_eq_none_iff
    {line : Text}
    {rules : List (Rule Pattern)} :
    firstHit line rules = none ↔
      ∀ r ∈ rules, r.apply line = none := by
  induction rules with
  | nil => simp [firstHit]
  | cons r rules ih =>
      rw [List.forall_mem_cons, ← ih, firstHit]
      cases r.apply line <;> simp

/- A rule that fires first makes the step. -/
theorem stepOn_of_firstHit
    {table : RuleTable}
    {cursor : Cursor}
    {text : Text}
    {r : Rule Pattern}
    {hit : Hit}
    (hText : text ≠ [])
    (hBreak : Text.breakLength text = 0)
    (hHit :
      firstHit (Text.currentLine text)
        (table.rules cursor.state) = some (r, hit)) :
    table.stepOn cursor text =
      some (stepOver cursor text hit.length hit.pieces
        (r.stateAfter cursor.state) r.effect) := by
  cases text with
  | nil => exact absurd rfl hText
  | cons c rest =>
      simp only [stepOn]
      rw [if_pos hBreak, hHit]

/- A hit that is not empty is not at a line break. -/
theorem breakLength_of_apply
    {r : Rule Pattern}
    {text : Text}
    {hit : Hit}
    (h : r.apply text.currentLine = some hit) :
    text ≠ [] ∧ Text.breakLength text = 0 := by
  have hPos := Rule.apply_length_pos h
  have hLe := Rule.apply_length_le h
  cases text with
  | nil =>
      exact absurd hLe (Nat.not_le_of_lt hPos)
  | cons c text =>
      refine ⟨List.cons_ne_nil c text, ?_⟩
      rw [Text.breakLength_eq_zero_iff]
      by_contra hBreak
      rw [Bool.not_eq_false] at hBreak
      simp [Text.currentLine, hBreak] at hLe
      omega

/- A line break makes a step by itself. -/
theorem stepOn_of_break
    {table : RuleTable}
    {cursor : Cursor}
    {text : Text}
    (hBreak : 0 < Text.breakLength text) :
    table.stepOn cursor text =
      some (plainStep cursor text (Text.breakLength text)) := by
  cases text with
  | nil => cases hBreak
  | cons c rest =>
      simp only [stepOn]
      rw [if_neg (Nat.ne_of_gt hBreak)]

/- The tokens of a step are at least one. -/
theorem Step.Consumes.tokens_ne_nil
    {cursor : Cursor}
    {text consumed : Text}
    {s : Step}
    (h : s.Consumes cursor text consumed) : s.tokens ≠ [] :=
  h.tiles.ne_nil h.nonempty

------------------------------------------------------------
-- Sequences of steps
------------------------------------------------------------

/-
  What holds at the end of a text, and before a step if it
  holds after it, holds for every text.
-/
theorem scan_induction
    (table : RuleTable)
    {P : Cursor → Text → Prop}
    (hEnd : ∀ cursor, P cursor [])
    (hStep : ∀ cursor text s consumed,
      table.stepOn cursor text = some s →
      s.Consumes cursor text consumed →
      P s.cursor s.rest → P cursor text)
    (cursor : Cursor)
    (text : Text) : P cursor text := by
  cases hs : table.stepOn cursor text with
  | none =>
      rw [stepOn_eq_none_iff.mp hs]
      exact hEnd cursor
  | some s =>
      rcases stepOn_consumes hs with ⟨consumed, hConsumes⟩
      have hShorter := stepOn_rest_length_lt hs
      exact hStep cursor text s consumed hs hConsumes
        (scan_induction table hEnd hStep s.cursor s.rest)
termination_by text.length

@[simp]
theorem scanFrom_nil (table : RuleTable) (cursor : Cursor) :
    table.scanFrom cursor [] = [] := by
  rw [scanFrom]
  rfl

/- A scan is the tokens of a step and the scan after it. -/
theorem scanFrom_of_stepOn
    {table : RuleTable}
    {cursor : Cursor}
    {text : Text}
    {s : Step}
    (h : table.stepOn cursor text = some s) :
    table.scanFrom cursor text =
      s.tokens ++ table.scanFrom s.cursor s.rest := by
  rw [scanFrom]
  split
  · rename_i hNone
    rw [h] at hNone
    cases hNone
  · rename_i s' hSome
    rw [h] at hSome
    cases hSome
    rfl

/-
  The step from a cursor is a recovery: no rule of the state
  fires on a line, and one character is skipped.
-/
def Recovers
    (table : RuleTable)
    (cursor : Cursor)
    (text : Text) : Prop :=
  text ≠ [] ∧ Text.breakLength text = 0 ∧
    firstHit (Text.currentLine text)
      (table.rules cursor.state) = none

/- A recovery skips the character. -/
theorem stepOn_of_recovers
    {table : RuleTable}
    {cursor : Cursor}
    {text : Text}
    (h : table.Recovers cursor text) :
    table.stepOn cursor text =
      some (plainStep cursor text 1) := by
  rcases h with ⟨hText, hBreak, hNone⟩
  cases text with
  | nil => exact absurd rfl hText
  | cons c rest =>
      simp only [stepOn, hBreak, if_true, hNone]

/-
  A step is one over a line break, one over what the first
  rule that fires consumes, or a recovery.
-/
theorem stepOn_cases
    {table : RuleTable}
    {cursor : Cursor}
    {text : Text}
    {s : Step}
    (h : table.stepOn cursor text = some s) :
    (0 < Text.breakLength text ∧
      s = plainStep cursor text (Text.breakLength text)) ∨
    (text ≠ [] ∧ Text.breakLength text = 0 ∧
      ∃ r hit,
        firstHit text.currentLine
            (table.rules cursor.state) = some (r, hit) ∧
          s = stepOver cursor text hit.length hit.pieces
            (r.stateAfter cursor.state) r.effect) ∨
    (table.Recovers cursor text ∧
      s = plainStep cursor text 1) := by
  have hText : text ≠ [] := by
    rintro rfl
    cases h
  rcases Nat.eq_zero_or_pos (Text.breakLength text) with
    hBreak | hBreak
  · right
    cases hHit : firstHit text.currentLine
        (table.rules cursor.state) with
    | some found =>
        rcases found with ⟨r, hit⟩
        rw [stepOn_of_firstHit hText hBreak hHit] at h
        cases h
        exact Or.inl ⟨hText, hBreak, r, hit, rfl, rfl⟩
    | none =>
        have hRecovers : table.Recovers cursor text :=
          ⟨hText, hBreak, hHit⟩
        rw [stepOn_of_recovers hRecovers] at h
        cases h
        exact Or.inr ⟨hRecovers, rfl⟩
  · rw [stepOn_of_break hBreak] at h
    cases h
    exact Or.inl ⟨hBreak, rfl⟩

/- Where a rule fires the step is no recovery. -/
theorem not_recovers_of_firstHit
    {table : RuleTable}
    {cursor : Cursor}
    {text : Text}
    {hit : Rule Pattern × Hit}
    (h :
      firstHit (Text.currentLine text)
        (table.rules cursor.state) = some hit) :
    ¬ table.Recovers cursor text := by
  rintro ⟨-, -, hNone⟩
  rw [h] at hNone
  cases hNone

/- Nor is it at a line break. -/
theorem not_recovers_of_break
    {table : RuleTable}
    {cursor : Cursor}
    {text : Text}
    (h : 0 < Text.breakLength text) :
    ¬ table.Recovers cursor text := by
  rintro ⟨-, hZero, -⟩
  omega

/-
  A scan proceeds from one cursor to another when the steps
  between them give some tokens and none of them is a
  recovery.
-/
inductive Proceeds (table : RuleTable) :
    Cursor → Text → List Token → Cursor → Text → Prop
  | stay (cursor : Cursor) (text : Text) :
      Proceeds table cursor text [] cursor text
  | step
      {cursor cursor' : Cursor}
      {text text' : Text}
      {s : Step}
      {tokens : List Token}
      (hStep : table.stepOn cursor text = some s)
      (hHit : ¬ table.Recovers cursor text)
      (hRest :
        Proceeds table s.cursor s.rest tokens cursor' text') :
      Proceeds table cursor text (s.tokens ++ tokens) cursor'
        text'

/- The scan begins with these tokens and goes on there. -/
theorem Proceeds.scanFrom_eq
    {table : RuleTable}
    {cursor cursor' : Cursor}
    {text text' : Text}
    {tokens : List Token}
    (h : table.Proceeds cursor text tokens cursor' text') :
    table.scanFrom cursor text =
      tokens ++ table.scanFrom cursor' text' := by
  induction h with
  | stay cursor text => rfl
  | step hStep hHit hRest ih =>
      rw [scanFrom_of_stepOn hStep, ih, List.append_assoc]

/- They tile the text between the cursors. -/
theorem Proceeds.tiles
    {table : RuleTable}
    {cursor cursor' : Cursor}
    {text text' : Text}
    {tokens : List Token}
    (h : table.Proceeds cursor text tokens cursor' text') :
    ∃ consumed, text = consumed ++ text' ∧
      Token.Tiles cursor.offset tokens consumed ∧
      cursor'.offset = cursor.offset + consumed.size := by
  induction h with
  | stay cursor text =>
      exact ⟨[], rfl, Token.Tiles.nil cursor.offset, rfl⟩
  | step hStep hHit hRest ih =>
      rcases stepOn_consumes hStep with ⟨first, hConsumes⟩
      rcases ih with ⟨after, hText, hTiles, hOffset⟩
      rw [hConsumes.offset_eq] at hTiles hOffset
      refine ⟨first ++ after, ?_,
        hConsumes.tiles.append hTiles, ?_⟩
      · rw [List.append_assoc, ← hText]
        exact hConsumes.text_eq
      · rw [hOffset, Text.size_append, Nat.add_assoc]

/- The last of them ends where the scan has come to. -/
theorem Proceeds.stop_last
    {table : RuleTable}
    {cursor cursor' : Cursor}
    {text text' : Text}
    {tokens : List Token}
    {last : Token}
    (h : table.Proceeds cursor text (tokens ++ [last]) cursor'
      text') : last.stop = cursor'.offset := by
  rcases h.tiles with ⟨consumed, -, hTiles, hOffset⟩
  have hStop := hTiles.stop_getLast
  rw [List.getLast?_append] at hStop
  rw [hOffset, ← hStop]
  rfl

/- The tokens of a scan tile the text that was scanned. -/
theorem scanFrom_tiles
    (table : RuleTable)
    (cursor : Cursor)
    (text : Text) :
    Token.Tiles cursor.offset (table.scanFrom cursor text)
      text := by
  induction cursor, text using scan_induction table with
  | hEnd cursor =>
      rw [scanFrom_nil]
      exact Token.Tiles.nil cursor.offset
  | hStep cursor text s consumed hs hConsumes ih =>
      rw [scanFrom_of_stepOn hs]
      conv =>
        rhs
        rw [hConsumes.text_eq]
      apply hConsumes.tiles.append
      rw [← hConsumes.offset_eq]
      exact ih

/-
  A token of a scan is a line break, or it lies within one
  line.
-/
theorem scanFrom_kind
    (table : RuleTable)
    (cursor : Cursor)
    (text : Text) :
    ∀ t ∈ table.scanFrom cursor text,
      t.isLineBreak = true ∨ t.text.BreakFree := by
  induction cursor, text using scan_induction table with
  | hEnd cursor =>
      intro t ht
      rw [scanFrom_nil] at ht
      cases ht
  | hStep cursor text s consumed hs hConsumes ih =>
      intro t ht
      rw [scanFrom_of_stepOn hs] at ht
      rcases List.mem_append.mp ht with hStep | hRest
      · rcases hConsumes.kind with
          ⟨-, hBreak, -, hTokens⟩ | hFree
        · rw [hTokens] at hStep
          rcases List.mem_singleton.mp hStep with rfl
          exact Or.inl hBreak
        · right
          intro c hc
          exact hFree c (hConsumes.tiles.mem_of_mem_text hStep hc)
      · exact ih t hRest

/- A line break has no label. -/
theorem scanFrom_label_of_isLineBreak
    (table : RuleTable)
    (cursor : Cursor)
    (text : Text) :
    ∀ t ∈ table.scanFrom cursor text,
      t.isLineBreak = true → t.label = none := by
  induction cursor, text using scan_induction table with
  | hEnd cursor =>
      intro t ht
      rw [scanFrom_nil] at ht
      cases ht
  | hStep cursor text s consumed hs hConsumes ih =>
      intro t ht hIs
      rw [scanFrom_of_stepOn hs] at ht
      rcases List.mem_append.mp ht with hStep | hRest
      · rcases hConsumes.kind with ⟨-, -, -, hTokens⟩ | hFree
        · rw [hTokens] at hStep
          rw [List.mem_singleton.mp hStep]
        · -- a token within a line is no break
          refine absurd ?_ (Text.not_breakFree_of_isLineBreak hIs)
          intro c hc
          exact hFree c (hConsumes.tiles.mem_of_mem_text hStep hc)
      · exact ih t hRest hIs

end RuleTable

end Highlighter

import Highlighter.Proofs.Scan.Concatenation
import Highlighter.Proofs.Text.Join

/-
  The outline of a scan: its line breaks and the tokens that
  open and close levels, wherever they stand. A table passes
  blanks over when those in front of a line leave no trace;
  then nor does a difference in the leading blanks of lines.

  Key definitions include:
    * `Token.outline`
    * `RuleTable.SameTrace`
    * `RuleTable.PassesBlanks`

  Main statements:
    * `RuleTable.scan_join_cons`: a scan line by line.
    * `RuleTable.PassesBlanks.sameTrace`: lines that differ
      in leading blanks only leave the same trace.
-/

namespace Highlighter

------------------------------------------------------------
-- Outlines
------------------------------------------------------------

namespace Token

/- Does a token open or close a level? -/
def hasEffect (t : Token) : Bool :=
  t.effect != Effect.none

/- Is a token a line break, or does it have an effect? -/
def isMark (t : Token) : Bool :=
  t.isLineBreak || t.hasEffect

/- A token without the place where it stands. -/
def unplaced (t : Token) : Token := { t with start := 0 }

/- The marks among some tokens, wherever they stand. -/
def outline (tokens : List Token) : List Token :=
  (tokens.filter isMark).map unplaced

@[simp]
theorem isLineBreak_unplaced (t : Token) :
    t.unplaced.isLineBreak = t.isLineBreak := rfl

@[simp]
theorem stateAfter_unplaced (t : Token) :
    t.unplaced.stateAfter = t.stateAfter := rfl

@[simp]
theorem hasEffect_unplaced (t : Token) :
    t.unplaced.hasEffect = t.hasEffect := rfl

@[simp]
theorem outline_nil : outline [] = [] := rfl

theorem outline_cons (t : Token) (tokens : List Token) :
    outline (t :: tokens) = outline [t] ++ outline tokens := by
  unfold outline
  rw [← List.map_append, ← List.filter_append,
    List.singleton_append]

/- What is no mark leaves no trace. -/
theorem outline_of_not_isMark
    {t : Token}
    (h : t.isMark = false) : outline [t] = [] := by
  simp [outline, h]

theorem outline_of_isMark
    {t : Token}
    (h : t.isMark = true) : outline [t] = [t.unplaced] := by
  simp [outline, h]

@[simp]
theorem outline_append (xs ys : List Token) :
    outline (xs ++ ys) = outline xs ++ outline ys := by
  simp [outline]

/- To stand further on makes no difference. -/
@[simp]
theorem outline_shift (n : Nat) (tokens : List Token) :
    outline (tokens.map (shift n)) = outline tokens := by
  induction tokens with
  | nil => rfl
  | cons t tokens ih =>
      have hOne : outline [t.shift n] = outline [t] := by
        cases hMark : t.isMark with
        | true =>
            rw [outline_of_isMark hMark]
            exact outline_of_isMark (t := t.shift n) hMark
        | false =>
            rw [outline_of_not_isMark hMark]
            exact outline_of_not_isMark (t := t.shift n) hMark
      rw [List.map_cons, outline_cons, ih, outline_cons t,
        hOne]

/- A token within a line that has no effect is no mark. -/
theorem isMark_of_breakFree
    {t : Token}
    (hFree : t.text.BreakFree)
    (hEffect : t.effect = Effect.none) :
    t.isMark = false := by
  have hBreak : t.isLineBreak = false := by
    cases hIs : t.isLineBreak with
    | false => rfl
    | true =>
        exact absurd hFree
          (Text.not_breakFree_of_isLineBreak hIs)
  simp [isMark, hasEffect, hBreak, hEffect]

/- Tokens laid out without effect have none. -/
theorem effect_of_mem_layOut
    {stateAfter : State}
    {n : Nat}
    {pieces : List Piece}
    {t : Token}
    (h : t ∈ layOut stateAfter Effect.none n pieces) :
    t.effect = Effect.none := by
  induction pieces generalizing n with
  | nil => cases h
  | cons piece pieces ih =>
      rcases List.mem_cons.mp h with rfl | hRest
      · rfl
      · exact ih hRest

/- The states at line starts are told by the outline. -/
theorem statesAfterBreaks_outline (tokens : List Token) :
    statesAfterBreaks (outline tokens) =
      statesAfterBreaks tokens := by
  induction tokens with
  | nil => rfl
  | cons t tokens ih =>
      rw [outline_cons, statesAfterBreaks_append, ih]
      cases hMark : t.isMark with
      | true =>
          rw [outline_of_isMark hMark]
          cases hBreak : t.isLineBreak <;>
            simp [statesAfterBreaks, hBreak]
      | false =>
          rw [outline_of_not_isMark hMark]
          simp only [isMark, Bool.or_eq_false_iff] at hMark
          simp [statesAfterBreaks, hMark.1]

/- So are the tokens with an effect. -/
theorem filter_hasEffect_outline (tokens : List Token) :
    (outline tokens).filter hasEffect =
      (tokens.filter hasEffect).map unplaced := by
  unfold outline
  rw [List.filter_map, List.filter_filter]
  congr 1
  apply List.filter_congr
  intro t _
  cases h : t.hasEffect <;> simp [isMark, h]

end Token

------------------------------------------------------------
-- Scans line by line
------------------------------------------------------------

namespace RuleTable

/- The state after a text scanned from a state. -/
def stateAfter (table : RuleTable) (text : Text)
    (state : State) : State :=
  Token.endState state (table.scan text state)

/-
  Two texts, each scanned from a state, leave the same trace
  when they have the same outline and lead to one state.
-/
structure SameTrace
    (table : RuleTable)
    (s : Text)
    (state : State)
    (t : Text)
    (state' : State) : Prop where
  outline_eq :
    Token.outline (table.scan s state) =
      Token.outline (table.scan t state')
  stateAfter_eq :
    table.stateAfter s state = table.stateAfter t state'

theorem SameTrace.refl
    (table : RuleTable)
    (t : Text)
    (state : State) : table.SameTrace t state t state :=
  ⟨rfl, rfl⟩

theorem SameTrace.symm
    {table : RuleTable}
    {s t : Text}
    {state state' : State}
    (h : table.SameTrace s state t state') :
    table.SameTrace t state' s state :=
  ⟨h.outline_eq.symm, h.stateAfter_eq.symm⟩

theorem SameTrace.trans
    {table : RuleTable}
    {r s t : Text}
    {state state' state'' : State}
    (hrs : table.SameTrace r state s state')
    (hst : table.SameTrace s state' t state'') :
    table.SameTrace r state t state'' :=
  ⟨hrs.outline_eq.trans hst.outline_eq,
    hrs.stateAfter_eq.trans hst.stateAfter_eq⟩

/- A line break scanned by itself is one token. -/
theorem scan_of_isLineBreak
    (table : RuleTable)
    {brk : Text}
    (h : Text.isLineBreak brk = true)
    (state : State) :
    table.scan brk state =
      [⟨none, brk, 0, state, Effect.none⟩] := by
  have hLength : Text.breakLength brk = brk.length := by
    simp only [Text.isLineBreak, Bool.or_eq_true,
      beq_iff_eq] at h
    rcases h with (rfl | rfl) | rfl <;> rfl
  have hPos : 0 < Text.breakLength brk := by
    rw [hLength]
    exact List.length_pos_iff.mpr (Text.isLineBreak_ne_nil h)
  unfold scan
  rw [scanFrom_of_stepOn (stepOn_of_break hPos), hLength]
  simp [plainStep, stepOver, Token.layOut]

/- A body meets the break after it. -/
theorem meets_terminator
    {body rest : Text}
    (hFree : body.BreakFree)
    {terminator : Text}
    (hBreak : Text.isLineBreak terminator = true) :
    Text.Meets body (terminator ++ rest) := by
  constructor
  · right
    intro c hc
    simp only [Text.isLineBreak, Bool.or_eq_true,
      beq_iff_eq] at hBreak
    rcases hBreak with (rfl | rfl) | rfl <;>
      · cases hc
        rfl
  · rintro ⟨hLast, -⟩
    have hFalse := hFree '\r' (List.mem_of_getLast? hLast)
    cases hFalse

/- A terminator meets the lines that may follow it. -/
theorem terminator_meets
    {terminator : Text}
    (hBreak : Text.isLineBreak terminator = true)
    {next : Text.Line}
    {rest : List Text.Line}
    (hRest : Text.AreLines (next :: rest))
    (hFollows : next.MayFollow terminator) :
    Text.Meets terminator (Text.join (next :: rest)) := by
  simp only [Text.isLineBreak, Bool.or_eq_true,
    beq_iff_eq] at hBreak
  constructor
  · left
    intro c hc
    rcases hBreak with (rfl | rfl) | rfl <;>
      · cases hc
        rfl
  · rintro ⟨hLast, hHead⟩
    rcases hBreak with (rfl | rfl) | rfl
    · cases hLast
    · cases hLast
    · exact hRest.head?_join hFollows hHead

/-
  A scan of lines is the scan of the first body, the break
  after it, and the scan of the other lines.
-/
theorem scan_join_cons
    (table : RuleTable)
    (state : State)
    {body terminator : Text}
    {next : Text.Line}
    {rest : List Text.Line}
    (hFree : body.BreakFree)
    (hBreak : Text.isLineBreak terminator = true)
    (hFollows : next.MayFollow terminator)
    (hRest : Text.AreLines (next :: rest)) :
    let after := table.stateAfter body state
    let later := table.scan (Text.join (next :: rest)) after
    table.scan
        (Text.join (⟨body, terminator⟩ :: next :: rest))
        state =
      table.scan body state ++
        ⟨none, terminator, body.size, after, Effect.none⟩ ::
          later.map (Token.shift (body ++ terminator).size) := by
  intro after later
  have hJoin :
      Text.join (⟨body, terminator⟩ :: next :: rest) =
        body ++ (terminator ++ Text.join (next :: rest)) := by
    rw [Text.join_cons, Text.Line.text, List.append_assoc]
  have hTail :
      table.scan (terminator ++ Text.join (next :: rest))
          after =
        ⟨none, terminator, 0, after, Effect.none⟩ ::
          later.map (Token.shift terminator.size) := by
    rw [table.scan_append after
      (terminator_meets hBreak hRest hFollows),
      table.scan_of_isLineBreak hBreak]
    rfl
  rw [hJoin, table.scan_append state
    (meets_terminator hFree hBreak)]
  change _ ++ (table.scan _ after).map _ = _
  rw [hTail, List.map_cons, List.map_map]
  congr 2
  · simp only [Token.shift, Nat.zero_add]
  · apply List.map_congr_left
    intro t _
    simp only [Function.comp_apply, Token.shift,
      Text.size_append]
    congr 1
    omega

/- The outline of lines is that of each of them in turn. -/
theorem trace_join_cons
    (table : RuleTable)
    (state : State)
    {body terminator : Text}
    {next : Text.Line}
    {rest : List Text.Line}
    (hFree : body.BreakFree)
    (hBreak : Text.isLineBreak terminator = true)
    (hFollows : next.MayFollow terminator)
    (hRest : Text.AreLines (next :: rest)) :
    let text := Text.join (⟨body, terminator⟩ :: next :: rest)
    let later := Text.join (next :: rest)
    let after := table.stateAfter body state
    Token.outline (table.scan text state) =
        Token.outline (table.scan body state) ++
          ⟨none, terminator, 0, after, Effect.none⟩ ::
            Token.outline (table.scan later after) ∧
      table.stateAfter text state =
        table.stateAfter later after := by
  intro text later after
  have hScan :=
    table.scan_join_cons state hFree hBreak hFollows hRest
  simp only at hScan
  constructor
  · rw [hScan, Token.outline_append, Token.outline_cons,
      Token.outline_shift, Token.outline_of_isMark]
    · rfl
    · simp [Token.isMark, Token.isLineBreak, hBreak]
  · rw [stateAfter, hScan, Token.endState_append,
      Token.endState_cons, Token.endState_shift]
    rfl

------------------------------------------------------------
-- Steps without effect
------------------------------------------------------------

/-
  A step within a line whose tokens have no effect leaves no
  trace but in the state after it.
-/
theorem sameTrace_of_stepOn
    {table : RuleTable}
    {state : State}
    {line : Text}
    (hFree : line.BreakFree)
    {s : Step}
    (hStep : table.stepOn ⟨0, state⟩ line = some s)
    (hSilent : ∀ t ∈ s.tokens, t.effect = Effect.none) :
    table.SameTrace line state s.rest s.cursor.state := by
  rcases stepOn_consumes hStep with ⟨consumed, hConsumes⟩
  have hScan : table.scan line state =
      s.tokens ++ table.scanFrom s.cursor s.rest :=
    scanFrom_of_stepOn hStep
  have hNone : Token.outline s.tokens = [] := by
    unfold Token.outline
    rw [List.map_eq_nil_iff, List.filter_eq_nil_iff]
    intro t ht
    rw [Bool.not_eq_true]
    apply Token.isMark_of_breakFree _ (hSilent t ht)
    intro c hc
    apply hFree
    rw [hConsumes.text_eq, ← hConsumes.tiles.flatMap_text]
    exact List.mem_append_left _
      (List.mem_flatMap.mpr ⟨t, ht, hc⟩)
  constructor
  · rw [hScan, Token.outline_append, hNone, List.nil_append,
      scanFrom_eq_scan, Token.outline_shift]
  · rw [stateAfter, hScan, Token.endState_append,
      hConsumes.endState_eq, scanFrom_eq_scan,
      Token.endState_shift]
    rfl

/- A line without a break is the current line. -/
theorem currentLine_of_breakFree
    {line : Text}
    (hFree : line.BreakFree) : line.currentLine = line := by
  apply List.takeWhile_eq_self_iff.mpr
  intro c hc
  rw [hFree c hc]
  rfl

/- Nor does it begin with one. -/
theorem breakLength_of_breakFree
    {c : Char}
    {line : Text}
    (hFree : Text.BreakFree (c :: line)) :
    Text.breakLength (c :: line) = 0 :=
  (Text.breakLength_eq_zero_iff c line).mpr
    (hFree c (List.mem_cons_self ..))

/- The step of a rule that fires on a line is such a step. -/
theorem sameTrace_of_firstHit
    {table : RuleTable}
    {state : State}
    {c : Char}
    {line : Text}
    (hFree : Text.BreakFree (c :: line))
    {r : Rule Pattern}
    {hit : Hit}
    (hHit :
      firstHit (c :: line) (table.rules state) =
        some (r, hit))
    (hEffect : r.effect = Effect.none) :
    table.SameTrace (c :: line) state
      ((c :: line).drop hit.length) (r.stateAfter state) := by
  have hLine := currentLine_of_breakFree hFree
  rw [← hLine] at hHit
  have hStep : table.stepOn ⟨0, state⟩ (c :: line) =
      some (stepOver ⟨0, state⟩ (c :: line) hit.length
        hit.pieces (r.stateAfter state) r.effect) :=
    stepOn_of_firstHit (List.cons_ne_nil c line)
      (breakLength_of_breakFree hFree) hHit
  apply sameTrace_of_stepOn hFree hStep
  rw [hEffect]
  intro t ht
  exact Token.effect_of_mem_layOut ht

/- So is the step over one character that no rule is for. -/
theorem sameTrace_of_no_hit
    {table : RuleTable}
    {state : State}
    {c : Char}
    {line : Text}
    (hFree : Text.BreakFree (c :: line))
    (hNone :
      firstHit (c :: line) (table.rules state) = none) :
    table.SameTrace (c :: line) state line state := by
  have hLine := currentLine_of_breakFree hFree
  have hStep : table.stepOn ⟨0, state⟩ (c :: line) =
      some (plainStep ⟨0, state⟩ (c :: line) 1) := by
    simp only [stepOn, hLine, hNone,
      breakLength_of_breakFree hFree, if_true]
  apply sameTrace_of_stepOn hFree hStep
  intro t ht
  exact Token.effect_of_mem_layOut ht

------------------------------------------------------------
-- Blanks
------------------------------------------------------------

/-
  A table passes blanks over when a line leaves the same
  trace with a blank in front of it and without.
-/
def PassesBlanks (table : RuleTable) : Prop :=
  ∀ (c : Char) (line : Text) (state : State),
    Text.isBlank c = true → Text.BreakFree (c :: line) →
      table.SameTrace (c :: line) state line state

namespace PassesBlanks

variable {table : RuleTable}

/- Then all leading blanks of a line are passed over. -/
theorem sameTrace_trimStart
    (h : table.PassesBlanks)
    {line : Text}
    (hFree : line.BreakFree)
    (state : State) :
    table.SameTrace line state line.trimStart state := by
  induction line with
  | nil => exact SameTrace.refl table [] state
  | cons c line ih =>
      cases hBlank : Text.isBlank c with
      | false =>
          rw [Text.trimStart_cons_of_not hBlank]
          exact SameTrace.refl table (c :: line) state
      | true =>
          have hTail : Text.BreakFree line :=
            fun d hd => hFree d (List.mem_cons_of_mem c hd)
          rw [Text.trimStart_cons hBlank]
          exact (h c line state hBlank hFree).trans (ih hTail)

/- So bodies that are otherwise the same leave the same. -/
theorem sameTrace_body
    (h : table.PassesBlanks)
    {s t : Text}
    (hs : s.BreakFree)
    (ht : t.BreakFree)
    (hSame : s.trimStart = t.trimStart)
    (state : State) : table.SameTrace s state t state := by
  have hFirst := h.sameTrace_trimStart hs state
  rw [hSame] at hFirst
  exact hFirst.trans (h.sameTrace_trimStart ht state).symm

/-
  Lines that differ in leading blanks only leave the same
  trace.
-/
theorem sameTrace_join
    (h : table.PassesBlanks)
    {xs ys : List Text.Line}
    (hSame : List.Forall₂ Text.Line.SameBody xs ys)
    (hxs : Text.AreLines xs)
    (hys : Text.AreLines ys)
    (state : State) :
    table.SameTrace (Text.join xs) state (Text.join ys)
      state := by
  induction hxs generalizing ys state with
  | @last body hFree =>
      cases hSame with
      | @cons _ line _ _ hLine hNil =>
          cases hNil
          rcases line with ⟨body', terminator⟩
          have hTerminator : [] = terminator :=
            hLine.terminator_eq
          subst hTerminator
          have hFree' : Text.BreakFree body' :=
            hys.breakFree _ (List.mem_cons_self ..)
          simp only [Text.join_cons, Text.join_nil,
            Text.Line.text, List.append_nil]
          exact h.sameTrace_body hFree hFree'
            hLine.trimStart_eq state
  | @more body terminator next rest hFree hBreak hFollows
      hRest ih =>
      cases hSame with
      | @cons _ line _ _ hLine hOthers =>
          rcases line with ⟨body', terminator'⟩
          have hTerminator : terminator = terminator' :=
            hLine.terminator_eq
          subst hTerminator
          cases hys with
          | last hFree' => cases hBreak
          | @more _ _ next' rest' hFree' hBreak' hFollows'
              hRest' =>
              have hBody := h.sameTrace_body hFree hFree'
                hLine.trimStart_eq state
              have hLater := ih hOthers hRest'
                (table.stateAfter body state)
              rcases table.trace_join_cons state hFree hBreak
                  hFollows hRest with ⟨hText, hAfter⟩
              rcases table.trace_join_cons state hFree'
                  hBreak' hFollows' hRest' with
                ⟨hText', hAfter'⟩
              constructor
              · rw [hText, hText', hBody.outline_eq,
                  hLater.outline_eq, hBody.stateAfter_eq]
              · rw [hAfter, hAfter', hLater.stateAfter_eq,
                  hBody.stateAfter_eq]

/- The same for the lines of two texts. -/
theorem sameTrace
    (h : table.PassesBlanks)
    {s t : Text}
    (hSame : Text.SameBodies s t)
    (state : State) : table.SameTrace s state t state := by
  have hBoth := h.sameTrace_join hSame
    (Text.areLines_lines s) (Text.areLines_lines t) state
  rwa [Text.join_lines, Text.join_lines] at hBoth

end PassesBlanks

end RuleTable

end Highlighter

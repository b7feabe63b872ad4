import Highlighter.Proofs.Qhantoom.Closers
import Highlighter.Proofs.Scan.Concatenation

/-
  Scans that start inside of a string or a comment: they
  stay in that state up to the end of the first closer, and
  go on in the start state from there.

  Key definitions include:
    * `Qhantoom.ClosesFirst`
    * `Qhantoom.Belongs`
    * `Qhantoom.StateStep`
    * `Qhantoom.Course`

  Main statements:
    * `Qhantoom.stateStep`: what a single step does.
    * `Qhantoom.course`: what the whole scan does.
    * `Qhantoom.leaves_at_first_closer`
-/

namespace Highlighter

namespace Qhantoom

open RuleTable

------------------------------------------------------------
-- Rules that fire
------------------------------------------------------------

/- A rule of a state that matches makes one token. -/
theorem apply_ruleIn
    {state : State}
    {pattern : Pattern}
    {line : Text}
    {n : Nat}
    (hMatch : pattern.matchLength line = some n)
    (hPos : 0 < n)
    (next : Option State) :
    (ruleIn state pattern next).apply line =
      some ⟨n, [⟨labelIn state, line.take n⟩]⟩ := by
  have hLabelling :
      (ruleIn state pattern next).labelling =
        Labelling.whole (labelIn state) := rfl
  rw [Rule.apply_whole hLabelling]
  simp only [ruleIn, hMatch, Option.bind_some]
  rw [if_neg (Nat.ne_of_gt hPos)]

/- It does not fire if it does not match. -/
theorem apply_ruleIn_none
    {state : State}
    {pattern : Pattern}
    {line : Text}
    (hMatch : pattern.matchLength line = none)
    (next : Option State) :
    (ruleIn state pattern next).apply line = none := by
  have hLabelling :
      (ruleIn state pattern next).labelling =
        Labelling.whole (labelIn state) := rfl
  rw [Rule.apply_whole hLabelling]
  simp only [ruleIn, hMatch, Option.bind_none]

/- The closing rule fires if it matches. -/
theorem firstHit_closing
    {state : State}
    (hState : state ≠ State.start)
    {line : Text}
    {n : Nat}
    (hMatch : (closing state).matchLength line = some n)
    (hPos : 0 < n) :
    firstHit line (table.rules state) =
      some
        (ruleIn state (closing state) (some State.start),
          ⟨n, [⟨labelIn state, line.take n⟩]⟩) := by
  rw [rules_of_ne_start hState]
  simp only [firstHit, apply_ruleIn hMatch hPos]

/- Otherwise the filling rule does. -/
theorem firstHit_filling
    {state : State}
    (hState : state ≠ State.start)
    {line : Text}
    {n : Nat}
    (hClosing : (closing state).matchLength line = none)
    (hMatch : (filling state).matchLength line = some n)
    (hPos : 0 < n) :
    firstHit line (table.rules state) =
      some
        (ruleIn state (filling state) none,
          ⟨n, [⟨labelIn state, line.take n⟩]⟩) := by
  rw [rules_of_ne_start hState]
  simp only [firstHit, apply_ruleIn_none hClosing,
    apply_ruleIn hMatch hPos]

------------------------------------------------------------
-- Single steps
------------------------------------------------------------

/-
  A token belongs to a state: it is a line break or has the
  label of the state, and it opens and closes no level.
-/
def Belongs (state : State) (t : Token) : Prop :=
  (t.isLineBreak = true ∨ t.label = labelIn state) ∧
    t.effect = Effect.none

/-
  What a step inside of a state does, given the text before
  it: it stays in the state and there is no closer in what
  it consumes, or it leaves the state at the end of a first
  closer. It makes one token, which belongs to the state.
-/
inductive StateStep
    (state : State)
    (before rest : Text)
    (s : Step) : Prop
  | stay
      (n : Nat)
      (t : Token)
      (hRest : s.rest = rest.drop n)
      (hCursor :
        s.cursor = ⟨Text.size (before ++ rest.take n), state⟩)
      (hTokens : s.tokens = [t])
      (hAfter : t.stateAfter = state)
      (hBelongs : Belongs state t)
      (hNone : NoCloser state before rest n)
      (hReady : Ready state (before ++ rest.take n)
        (Text.currentLine (rest.drop n)))
  | leave
      (i : Nat)
      (closer : Text)
      (t : Token)
      (hRest : s.rest = rest.drop (i + closer.length))
      (hCursor :
        s.cursor =
          ⟨Text.size (before ++ rest.take (i + closer.length)),
            State.start⟩)
      (hTokens : s.tokens = [t])
      (hAfter : t.stateAfter = State.start)
      (hBelongs : Belongs state t)
      (hCloser :
        closer? state (before ++ rest.take i) (rest.drop i) =
          some closer)
      (hNone : NoCloser state before rest i)

/- A closer of the line is one of the text. -/
theorem closer?_currentLine
    (state : State)
    (before : Text)
    {rest : Text}
    {j : Nat}
    (hj : j ≤ rest.currentLine.length) :
    closer? state (before ++ rest.take j) (rest.drop j) =
      closer? state (before ++ rest.currentLine.take j)
        (rest.currentLine.drop j) := by
  have hDrop :
      rest.drop j =
        rest.currentLine.drop j ++
          rest.dropWhile (fun c => !Text.isBreakChar c) := by
    conv =>
      lhs
      rw [← Text.currentLine_append_dropWhile rest]
    rw [List.drop_append_of_le_length hj]
  rw [Text.take_currentLine hj, hDrop]
  exact closer?_append (Text.endsLine_dropWhile rest) _ _ _

/- Before a place of the line there are the same closers. -/
theorem NoCloser.of_currentLine
    {state : State}
    {before rest : Text}
    {n : Nat}
    (h : NoCloser state before rest.currentLine n)
    (hn : n ≤ rest.currentLine.length) :
    NoCloser state before rest n := by
  intro j hj
  have hLe : j ≤ rest.currentLine.length := by omega
  rw [closer?_currentLine state before hLe]
  exact h j hj

/- A line break is a step that stays. -/
theorem stateStep_break
    {state : State}
    {before rest : Text}
    (hBreak : 0 < Text.breakLength rest) :
    StateStep state before rest
      (plainStep ⟨before.size, state⟩ rest
        (Text.breakLength rest)) := by
  have hIs := Text.isLineBreak_take_breakLength hBreak
  refine StateStep.stay (Text.breakLength rest) _ rfl ?_ rfl
    rfl ⟨Or.inl hIs, rfl⟩ ?_ ?_
  · rw [Text.size_append]
    rfl
  · intro j hj
    exact closer?_of_endsLine (Text.endsLine_drop_of_break hj)
      state _
  · intro _ _
    rw [Text.slashesBefore_of_isLineBreak hIs]

/- To close the state is a step that leaves it. -/
theorem stateStep_close
    {state : State}
    {before rest closer : Text}
    {i : Nat}
    (hCloser :
      closer? state (before ++ rest.currentLine.take i)
        (rest.currentLine.drop i) = some closer)
    (hBefore : NoCloser state before rest.currentLine i)
    (hLe : i + closer.length ≤ rest.currentLine.length) :
    let n := i + closer.length
    StateStep state before rest
      (stepOver ⟨before.size, state⟩ rest n
        [⟨labelIn state, rest.currentLine.take n⟩]
        State.start Effect.none) := by
  have hi : i ≤ rest.currentLine.length := by omega
  refine StateStep.leave i closer _ rfl ?_ rfl rfl
    ⟨Or.inr rfl, rfl⟩ ?_ (hBefore.of_currentLine hi)
  · rw [Text.size_append]
    rfl
  · rw [closer?_currentLine state before hi]
    exact hCloser

/- To fill in text of the state is a step that stays. -/
theorem stateStep_fill
    {state : State}
    {before rest : Text}
    {n : Nat}
    (hNone : NoCloser state before rest.currentLine n)
    (hReady :
      Ready state (before ++ rest.currentLine.take n)
        (rest.currentLine.drop n))
    (hLe : n ≤ rest.currentLine.length) :
    StateStep state before rest
      (stepOver ⟨before.size, state⟩ rest n
        [⟨labelIn state, rest.currentLine.take n⟩]
        state Effect.none) := by
  refine StateStep.stay n _ rfl ?_ rfl rfl
    ⟨Or.inr rfl, rfl⟩ (hNone.of_currentLine hLe) ?_
  · rw [Text.size_append]
    rfl
  · rw [Text.currentLine_drop hLe,
      ← Text.take_currentLine hLe]
    exact hReady

/- What a step inside of a state does. -/
theorem stateStep
    {state : State}
    (hState : state ≠ State.start)
    {before rest : Text}
    (hRest : rest ≠ [])
    (hReady : Ready state before rest.currentLine) :
    ∃ s, table.stepOn ⟨before.size, state⟩ rest = some s ∧
      ¬ table.Recovers ⟨before.size, state⟩ rest ∧
      StateStep state before rest s := by
  by_cases hBreak : Text.breakLength rest = 0
  · have hLine := Text.currentLine_ne_nil hRest hBreak
    have hFree := Text.breakFree_currentLine rest
    cases lineStep hState hLine hFree hReady with
    | close i closer hMatch hCloser hBefore =>
        have hPos : 0 < i + closer.length := by
          have hLength :=
            List.length_pos_iff.mpr (closer?_ne_nil hCloser)
          omega
        have hLe := Pattern.matchLength_le hMatch
        have hHit := firstHit_closing hState hMatch hPos
        exact ⟨_, stepOn_of_firstHit hRest hBreak hHit,
          not_recovers_of_firstHit hHit,
          stateStep_close hCloser hBefore hLe⟩
    | fill n hClosing hMatch hPos hNone hNext =>
        have hLe := Pattern.matchLength_le hMatch
        have hHit :=
          firstHit_filling hState hClosing hMatch hPos
        exact ⟨_, stepOn_of_firstHit hRest hBreak hHit,
          not_recovers_of_firstHit hHit,
          stateStep_fill hNone hNext hLe⟩
  · have hPos := Nat.pos_of_ne_zero hBreak
    exact ⟨_, stepOn_of_break hPos,
      not_recovers_of_break hPos, stateStep_break hPos⟩

------------------------------------------------------------
-- Whole scans
------------------------------------------------------------

/-
  What a scan inside of a state does from a place on, given
  the text before it: it stays in the state, in which there
  is no closer, up to the end of the text, or it leaves the
  state with the last token up to the end of a first closer.
-/
inductive Course (state : State) (before rest : Text) : Prop
  | stays
      (tokens : List Token)
      (hNone : ∀ n, NoCloser state before rest n)
      (hProceeds :
        table.Proceeds ⟨before.size, state⟩ rest tokens
          ⟨Text.size (before ++ rest), state⟩ [])
      (hTokens :
        ∀ t ∈ tokens, t.stateAfter = state ∧ Belongs state t)
  | leaves
      (i : Nat)
      (closer : Text)
      (inside : List Token)
      (last : Token)
      (hCloser :
        closer? state (before ++ rest.take i) (rest.drop i) =
          some closer)
      (hNone : NoCloser state before rest i)
      (hProceeds :
        table.Proceeds ⟨before.size, state⟩ rest
          (inside ++ [last])
          ⟨Text.size (before ++ rest.take (i + closer.length)),
            State.start⟩
          (rest.drop (i + closer.length)))
      (hInside :
        ∀ t ∈ inside, t.stateAfter = state ∧ Belongs state t)
      (hAfter : last.stateAfter = State.start)
      (hBelongs : Belongs state last)

/- At the end of the text there is nothing to leave. -/
theorem course_nil (state : State) (before : Text) :
    Course state before [] := by
  apply Course.stays []
  · intro n j hj
    have hEnds : Text.EndsLine (List.drop j []) := by
      rw [List.drop_nil]
      intro c hc
      cases hc
    exact closer?_of_endsLine hEnds state _
  · rw [List.append_nil]
    exact Proceeds.stay _ _
  · intro t ht
    cases ht

/- A step that stays is followed by the course after it. -/
theorem course_of_stay
    {state : State}
    {before rest : Text}
    {s : Step}
    (hStep : table.stepOn ⟨before.size, state⟩ rest = some s)
    (hHit : ¬ table.Recovers ⟨before.size, state⟩ rest)
    {n : Nat}
    {t : Token}
    (hRest : s.rest = rest.drop n)
    (hCursor :
      s.cursor = ⟨Text.size (before ++ rest.take n), state⟩)
    (hTokens : s.tokens = [t])
    (hAfter : t.stateAfter = state)
    (hBelongs : Belongs state t)
    (hNone : NoCloser state before rest n)
    (hCourse :
      Course state (before ++ rest.take n) (rest.drop n)) :
    Course state before rest := by
  have hMembers : ∀ tokens : List Token,
      (∀ u ∈ tokens, u.stateAfter = state ∧
        Belongs state u) →
      ∀ u ∈ t :: tokens, u.stateAfter = state ∧
        Belongs state u := by
    intro tokens hTail u hu
    rcases List.mem_cons.mp hu with rfl | hu
    · exact ⟨hAfter, hBelongs⟩
    · exact hTail u hu
  cases hCourse with
  | stays tokens hNever hProceeds hTail =>
      apply Course.stays (t :: tokens)
      · intro m j hj
        exact hNone.append (hNever (m - n)) j (by omega)
      · have hWalk := Proceeds.step hStep hHit
          (by rw [hRest, hCursor]; exact hProceeds)
        rw [List.append_assoc, List.take_append_drop,
          hTokens] at hWalk
        exact hWalk
      · exact hMembers tokens hTail
  | leaves i closer inside last hCloser hBefore hProceeds
      hTail hLast hLastBelongs =>
      refine Course.leaves (n + i) closer (t :: inside) last
        ?_ (hNone.append hBefore) ?_ (hMembers inside hTail)
        hLast hLastBelongs
      · rw [List.append_assoc, ← List.take_add,
          List.drop_drop] at hCloser
        exact hCloser
      · have hWalk := Proceeds.step hStep hHit
          (by rw [hRest, hCursor]; exact hProceeds)
        rw [List.append_assoc, ← List.take_add,
          List.drop_drop, hTokens, ← Nat.add_assoc] at hWalk
        exact hWalk

/- What a scan does from a place where it is ready. -/
theorem course
    {state : State}
    (hState : state ≠ State.start)
    {before rest : Text}
    (hReady : Ready state before rest.currentLine) :
    Course state before rest := by
  generalize hCursor : (⟨before.size, state⟩ : Cursor) = cursor
  induction cursor, rest using scan_induction table
    generalizing before with
  | hEnd cursor => exact course_nil state before
  | hStep cursor rest s consumed hStep hConsumes ih =>
      subst hCursor
      have hRest : rest ≠ [] := by
        rintro rfl
        cases hStep
      rcases stateStep hState hRest hReady with
        ⟨s', hStep', hHit, hStateStep⟩
      -- the step of the scan is the one described
      cases hStep.symm.trans hStep'
      cases hStateStep with
      | stay n t hRest hNext hTokens hAfter hBelongs hNone
          hReadyNext =>
          have hCourse : Course state (before ++ rest.take n)
              s.rest := by
            apply ih _ hNext.symm
            rw [hRest]
            exact hReadyNext
          rw [hRest] at hCourse
          exact course_of_stay hStep hHit hRest hNext hTokens
            hAfter hBelongs hNone hCourse
      | leave i closer t hRest hNext hTokens hAfter hBelongs
          hCloser hNone =>
          refine Course.leaves i closer [] t hCloser hNone ?_
            (fun u hu => by cases hu) hAfter hBelongs
          have hWalk := Proceeds.step hStep hHit
            (Proceeds.stay s.cursor s.rest)
          rw [hRest, hNext, hTokens] at hWalk
          exact hWalk

------------------------------------------------------------
-- First closers
------------------------------------------------------------

/- Nothing closes the state anywhere in the text. -/
def NeverCloses (state : State) (text : Text) : Prop :=
  ∀ i, closer? state (text.take i) (text.drop i) = none

/- A closer at a position, and none before. -/
def ClosesFirst
    (state : State)
    (text : Text)
    (i : Nat)
    (closer : Text) : Prop :=
  closer? state (text.take i) (text.drop i) = some closer ∧
    ∀ j, j < i →
      closer? state (text.take j) (text.drop j) = none

instance
    (state : State)
    (text : Text)
    (i : Nat)
    (closer : Text) :
    Decidable (ClosesFirst state text i closer) := by
  unfold ClosesFirst
  infer_instance

/- There is one first closer at most. -/
theorem ClosesFirst.unique
    {state : State}
    {text : Text}
    {i j : Nat}
    {closer closer' : Text}
    (hi : ClosesFirst state text i closer)
    (hj : ClosesFirst state text j closer') :
    i = j ∧ closer = closer' := by
  have hEq : i = j := by
    rcases Nat.lt_trichotomy i j with hLt | hEq | hGt
    · have hNone := hj.2 i hLt
      rw [hi.1] at hNone
      cases hNone
    · exact hEq
    · have hNone := hi.2 j hGt
      rw [hj.1] at hNone
      cases hNone
  subst hEq
  exact ⟨rfl, Option.some.inj (hi.1.symm.trans hj.1)⟩

/- At the start of a scan every state is ready. -/
theorem ready_nil (state : State) (line : Text) :
    Ready state [] line :=
  fun _ _ => rfl

/- A state that nothing closes is not left. -/
theorem stays_unless_closed
    {state : State}
    (hState : state ≠ State.start)
    {text : Text}
    (hNever : NeverCloses state text) :
    let tokens := table.scan text state
    table.Proceeds ⟨0, state⟩ text tokens ⟨text.size, state⟩
        [] ∧
      ∀ t ∈ tokens, t.stateAfter = state ∧ Belongs state t := by
  cases course hState (ready_nil state text.currentLine) with
  | stays tokens hNone hProceeds hTokens =>
      have hScan : table.scan text state =
          tokens ++ table.scanFrom ⟨text.size, state⟩ [] :=
        hProceeds.scanFrom_eq
      rw [scanFrom_nil, List.append_nil] at hScan
      rw [hScan]
      exact ⟨hProceeds, hTokens⟩
  | leaves i closer inside last hCloser =>
      rw [List.nil_append, hNever i] at hCloser
      cases hCloser

/-
  A state that is closed is left with the token that ends
  with the first closer.
-/
theorem leaves_when_closed
    {state : State}
    (hState : state ≠ State.start)
    {text : Text}
    {i : Nat}
    {closer : Text}
    (hFirst : ClosesFirst state text i closer) :
    let n := i + closer.length
    let offset := Text.size (text.take n)
    let later := table.scan (text.drop n) State.start
    ∃ inside last,
      table.scan text state =
        inside ++ last :: later.map (Token.shift offset) ∧
      table.Proceeds ⟨0, state⟩ text (inside ++ [last])
        ⟨offset, State.start⟩ (text.drop n) ∧
      last.stop = offset ∧
      last.stateAfter = State.start ∧
      (∀ t ∈ inside, t.stateAfter = state) ∧
      ∀ t ∈ inside ++ [last], Belongs state t := by
  intro n offset later
  cases course hState (ready_nil state text.currentLine) with
  | stays tokens hNone hProceeds hTokens =>
      have hNot := hNone (i + 1) i (Nat.lt_succ_self i)
      rw [List.nil_append, hFirst.1] at hNot
      cases hNot
  | leaves j closer' inside last hCloser hNone hProceeds
      hInside hAfter hBelongs =>
      have hSame : ClosesFirst state text j closer' :=
        ⟨hCloser, hNone⟩
      rcases hFirst.unique hSame with ⟨rfl, rfl⟩
      rw [List.nil_append] at hProceeds
      refine ⟨inside, last, ?_, hProceeds,
        hProceeds.stop_last, hAfter,
        fun t ht => (hInside t ht).1, ?_⟩
      · have hScan : table.scan text state =
            (inside ++ [last]) ++
              table.scanFrom ⟨offset, State.start⟩
                (text.drop n) :=
          hProceeds.scanFrom_eq
        rw [scanFrom_eq_scan, List.append_assoc] at hScan
        exact hScan
      · intro t ht
        rcases List.mem_append.mp ht with ht | ht
        · exact (hInside t ht).2
        · cases List.mem_singleton.mp ht
          exact hBelongs

/-
  A scan that starts in a state other than the start state
  stays in it if nothing closes the state. Otherwise it
  stays in it up to the token that ends with the first
  closer; from there on it is the scan of the rest from the
  start state. All tokens up to there belong to the state,
  and there is no recovery.
-/
theorem leaves_at_first_closer
    {state : State}
    (hState : state ≠ State.start)
    (text : Text) :
    let tokens := table.scan text state
    (NeverCloses state text →
      table.Proceeds ⟨0, state⟩ text tokens
          ⟨text.size, state⟩ [] ∧
        ∀ t ∈ tokens,
          t.stateAfter = state ∧ Belongs state t) ∧
    (∀ i closer, ClosesFirst state text i closer →
      let n := i + closer.length
      let offset := Text.size (text.take n)
      let later := table.scan (text.drop n) State.start
      ∃ inside last,
        tokens =
          inside ++ last :: later.map (Token.shift offset) ∧
        table.Proceeds ⟨0, state⟩ text (inside ++ [last])
          ⟨offset, State.start⟩ (text.drop n) ∧
        last.stop = offset ∧
        last.stateAfter = State.start ∧
        (∀ t ∈ inside, t.stateAfter = state) ∧
        ∀ t ∈ inside ++ [last], Belongs state t) :=
  ⟨stays_unless_closed hState,
    fun _ _ hFirst => leaves_when_closed hState hFirst⟩

/-
  An escaped quote does not close a string, and a backslash
  at the end of a line escapes nothing on the next one.
-/
theorem leaves_string_at_quote :
    let text := ['\\', '"', '\\', '\n', '"', 'x']
    State.string ≠ State.start ∧
      ClosesFirst State.string text 4 ['"'] ∧
      ∃ inside last,
        table.scan text State.string =
          inside ++ last ::
            (table.scan ['x'] State.start).map
              (Token.shift 5) ∧
        last.stop = 5 ∧
        ∀ t ∈ inside, t.stateAfter = State.string := by
  intro text
  have hState : State.string ≠ State.start := by decide
  have hFirst : ClosesFirst State.string text 4 ['"'] := by
    decide
  rcases (leaves_at_first_closer hState text).2 4 ['"'] hFirst
    with ⟨inside, last, hScan, -, hStop, -, hInside, -⟩
  exact ⟨hState, hFirst, inside, last, hScan, hStop, hInside⟩

end Qhantoom

end Highlighter

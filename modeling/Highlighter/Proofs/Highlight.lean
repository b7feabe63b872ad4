import Highlighter.Highlight
import Highlighter.Proofs.Text.Lines

/-
  States and runs of token lists that are put together or
  moved to another offset.

  Key definitions include:
    * `Token.Closed`
    * `Run.shift`

  Main statements:
    * `Token.endState_append`
    * `Token.statesAfterBreaks_closed`
    * `Run.ofTokens_append`
    * `Run.ofTokens_shift`
-/

namespace Highlighter

namespace Token

/- A list of tokens that is empty or ends in a line break. -/
def Closed (tokens : List Token) : Prop :=
  ∀ t, tokens.getLast? = some t → t.isLineBreak = true

/- What follows the first token is closed if all are. -/
theorem Closed.of_cons
    {t : Token}
    {tokens : List Token}
    (h : Closed (t :: tokens)) : Closed tokens := by
  intro u hu
  apply h
  rw [List.getLast?_cons, hu]
  rfl

------------------------------------------------------------
-- States
------------------------------------------------------------

@[simp]
theorem endState_nil (state : State) :
    endState state [] = state := rfl

@[simp]
theorem endState_cons
    (state : State)
    (t : Token)
    (tokens : List Token) :
    endState state (t :: tokens) =
      endState t.stateAfter tokens := by
  unfold endState
  rw [List.getLast?_cons]
  cases tokens.getLast? <;> rfl

/- The state at the end goes through that in the middle. -/
theorem endState_append
    (state : State)
    (xs ys : List Token) :
    endState state (xs ++ ys) =
      endState (endState state xs) ys := by
  induction xs generalizing state with
  | nil => rfl
  | cons t xs ih =>
      rw [List.cons_append, endState_cons, ih, endState_cons]

/- Tokens that share a state end in it. -/
theorem endState_of_forall
    {state state' : State}
    {tokens : List Token}
    (hSome : tokens ≠ [])
    (h : ∀ t ∈ tokens, t.stateAfter = state') :
    endState state tokens = state' := by
  unfold endState
  rw [List.getLast?_eq_some_getLast hSome]
  exact h _ (List.getLast_mem hSome)

theorem statesAfterBreaks_append (xs ys : List Token) :
    statesAfterBreaks (xs ++ ys) =
      statesAfterBreaks xs ++ statesAfterBreaks ys := by
  simp [statesAfterBreaks]

/-
  After a closed list of tokens the last line starts in the
  state at the end.
-/
theorem statesAfterBreaks_closed
    {tokens : List Token}
    (h : Closed tokens)
    (state : State) :
    state :: statesAfterBreaks tokens =
      (state :: statesAfterBreaks tokens).dropLast ++
        [endState state tokens] := by
  rcases List.eq_nil_or_concat tokens with rfl | ⟨init, t, rfl⟩
  · rfl
  · rw [List.concat_eq_append] at h ⊢
    have hBreak : t.isLineBreak = true := h t (by simp)
    have hStates :
        statesAfterBreaks (init ++ [t]) =
          statesAfterBreaks init ++ [t.stateAfter] := by
      rw [statesAfterBreaks_append]
      simp [statesAfterBreaks, hBreak]
    rw [hStates, endState_append, endState_cons,
      endState_nil, ← List.cons_append,
      List.dropLast_concat]

------------------------------------------------------------
-- Shifts
------------------------------------------------------------

@[simp]
theorem isLineBreak_shift (n : Nat) (t : Token) :
    (t.shift n).isLineBreak = t.isLineBreak := rfl

@[simp]
theorem stateAfter_shift (n : Nat) (t : Token) :
    (t.shift n).stateAfter = t.stateAfter := rfl

theorem stop_shift (n : Nat) (t : Token) :
    (t.shift n).stop = t.stop + n := by
  simp only [stop, shift]
  omega

@[simp]
theorem endState_shift
    (state : State)
    (n : Nat)
    (tokens : List Token) :
    endState state (tokens.map (shift n)) =
      endState state tokens := by
  induction tokens generalizing state with
  | nil => rfl
  | cons t tokens ih =>
      rw [List.map_cons, endState_cons, ih, endState_cons,
        stateAfter_shift]

@[simp]
theorem statesAfterBreaks_shift
    (n : Nat)
    (tokens : List Token) :
    statesAfterBreaks (tokens.map (shift n)) =
      statesAfterBreaks tokens := by
  simp only [statesAfterBreaks, List.filter_map,
    List.map_map]
  rfl

/- Pieces laid out further on are tokens further on. -/
theorem layOut_shift
    (stateAfter : State)
    (effect : Effect)
    (n m : Nat)
    (pieces : List Piece) :
    layOut stateAfter effect (n + m) pieces =
      (layOut stateAfter effect n pieces).map (shift m) := by
  induction pieces generalizing effect n with
  | nil => rfl
  | cons piece pieces ih =>
      simp only [layOut, List.map_cons]
      rw [Nat.add_right_comm, ih]
      rfl

end Token

------------------------------------------------------------
-- Runs
------------------------------------------------------------

namespace Run

/- The same run further on in a text. -/
def shift (n : Nat) (r : Run) : Run :=
  ⟨r.label, r.start + n, r.stop + n⟩

/- The runs of some tokens are at least one. -/
theorem ofTokens_ne_nil (t : Token) (tokens : List Token) :
    ofTokens (t :: tokens) ≠ [] := by
  unfold ofTokens push
  split
  · simp
  · split <;> simp

/- A token is pushed onto the first run only. -/
theorem push_append
    (t : Token)
    (next : Option Token)
    {runs : List Run}
    (hRuns : runs ≠ [])
    (more : List Run) :
    push t next (runs ++ more) = push t next runs ++ more := by
  cases runs with
  | nil => exact absurd rfl hRuns
  | cons run runs =>
      simp only [List.cons_append, push]
      split <;> rfl

/- A line break is a run of its own. -/
theorem push_of_isLineBreak
    {t : Token}
    (h : t.isLineBreak = true)
    (next : Option Token)
    (runs : List Run) :
    push t next runs = ofToken t :: runs := by
  have hJoins : next.any (joins t) = false := by
    cases next with
    | none => rfl
    | some u => simp [joins, h]
  cases runs with
  | nil => rfl
  | cons run runs => simp [push, hJoins]

/- No run goes past the end of a closed list of tokens. -/
theorem ofTokens_append
    {xs : List Token}
    (h : Token.Closed xs)
    (ys : List Token) :
    ofTokens (xs ++ ys) = ofTokens xs ++ ofTokens ys := by
  induction xs with
  | nil => rfl
  | cons t xs ih =>
      rw [List.cons_append, ofTokens, ofTokens,
        ih h.of_cons]
      cases xs with
      | nil =>
          have hBreak : t.isLineBreak = true := h t rfl
          rw [push_of_isLineBreak hBreak,
            push_of_isLineBreak hBreak]
          rfl
      | cons u xs =>
          exact push_append t (some u) (ofTokens_ne_nil u xs)
            (ofTokens ys)

theorem push_shift
    (n : Nat)
    (t : Token)
    (next : Option Token)
    (runs : List Run) :
    push (t.shift n) (next.map (Token.shift n))
        (runs.map (shift n)) =
      (push t next runs).map (shift n) := by
  have hToken : ofToken (t.shift n) = (ofToken t).shift n := by
    unfold ofToken shift
    rw [Token.stop_shift]
    rfl
  have hJoins :
      (next.map (Token.shift n)).any (joins (t.shift n)) =
        next.any (joins t) := by
    cases next <;> rfl
  cases runs with
  | nil => exact congrArg (fun r => [r]) hToken
  | cons run runs =>
      simp only [List.map_cons, push]
      rw [hJoins]
      split
      · rfl
      · rw [hToken]
        rfl

/- The runs of tokens further on are further on. -/
theorem ofTokens_shift (n : Nat) (tokens : List Token) :
    ofTokens (tokens.map (Token.shift n)) =
      (ofTokens tokens).map (shift n) := by
  induction tokens with
  | nil => rfl
  | cons t tokens ih =>
      rw [List.map_cons, ofTokens, ofTokens, ih,
        List.head?_map, push_shift]

end Run

end Highlighter

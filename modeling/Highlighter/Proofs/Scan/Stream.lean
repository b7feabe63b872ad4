import Highlighter.Proofs.Scan.Step

/-
  Scanning on demand: what repeated calls give out.

  Key definitions include:
    * `TokenStream.after`
    * `TokenStream.pull`
    * `TokenStream.toCome`
    * `TokenStream.Follows`

  Main statements:
    * `TokenStream.pull_eq`: the calls give out the tokens
      to come, one by one, and nothing after them.
    * `TokenStream.Follows.after`: a stream keeps to the
      text that it was started on.
-/

namespace Highlighter

namespace TokenStream

variable (table : RuleTable)

/- The stream after a number of calls. -/
def after : Nat → TokenStream → TokenStream
  | 0, s => s
  | k + 1, s => after k (s.next table).2

/- The answer to the call with a number, from zero on. -/
def pull (s : TokenStream) (k : Nat) : Option Token :=
  ((s.after table k).next table).1

/- The tokens that a stream has still to give out. -/
def toCome (s : TokenStream) : List Token :=
  s.pending ++ table.scanFrom s.cursor s.rest

/- At first these are all tokens of the scan. -/
theorem toCome_start (text : Text) (state : State) :
    (start text state).toCome table =
      table.scan text state := rfl

------------------------------------------------------------
-- One call
------------------------------------------------------------

/- A call gives out the first of the tokens to come. -/
theorem next_fst (s : TokenStream) :
    (s.next table).1 = (s.toCome table).head? := by
  unfold next toCome
  split
  · rename_i t pending hPending
    rw [hPending]
    rfl
  · rename_i hPending
    rw [hPending, List.nil_append]
    split
    · rename_i hNone
      rw [RuleTable.stepOn_eq_none_iff.mp hNone,
        RuleTable.scanFrom_nil]
      rfl
    · rename_i step hSome
      rcases RuleTable.stepOn_consumes hSome with
        ⟨consumed, hConsumes⟩
      rw [RuleTable.scanFrom_of_stepOn hSome,
        List.head?_append_of_ne_nil _
          hConsumes.tokens_ne_nil]

/- The others are to come after the call. -/
theorem toCome_next (s : TokenStream) :
    (s.next table).2.toCome table =
      (s.toCome table).tail := by
  unfold next toCome
  split
  · rename_i t pending hPending
    rw [hPending]
    rfl
  · rename_i hPending
    rw [hPending, List.nil_append]
    split
    · rename_i hNone
      rw [RuleTable.stepOn_eq_none_iff.mp hNone,
        RuleTable.scanFrom_nil, hPending]
      rfl
    · rename_i step hSome
      rcases RuleTable.stepOn_consumes hSome with
        ⟨consumed, hConsumes⟩
      rw [RuleTable.scanFrom_of_stepOn hSome,
        List.tail_append_of_ne_nil hConsumes.tokens_ne_nil]

------------------------------------------------------------
-- Many calls
------------------------------------------------------------

/- Each call takes one token off those to come. -/
theorem toCome_after (s : TokenStream) (k : Nat) :
    (s.after table k).toCome table =
      (s.toCome table).drop k := by
  induction k generalizing s with
  | zero => rfl
  | succ k ih =>
      rw [after, ih, toCome_next, List.drop_tail]

/- The calls give out the tokens to come one by one. -/
theorem pull_eq (s : TokenStream) (k : Nat) :
    s.pull table k = (s.toCome table)[k]? := by
  rw [pull, next_fst, toCome_after, List.head?_drop]

------------------------------------------------------------
-- The text of a stream
------------------------------------------------------------

/-
  A stream follows a text when it has the rest of the text
  from the offset of its cursor on.
-/
def Follows (text : Text) (s : TokenStream) : Prop :=
  text.suffixAt s.cursor.offset = some s.rest

theorem follows_start (text : Text) (state : State) :
    (start text state).Follows text :=
  Text.suffixAt_zero text

/-
  The steps of a stream are the steps of the table on the
  text that it follows.
-/
theorem Follows.step_eq
    {text : Text}
    {s : TokenStream}
    (h : s.Follows text) :
    table.step text s.cursor =
      table.stepOn s.cursor s.rest := by
  rw [RuleTable.step, h, Option.bind_some]

/- A call keeps to the text. -/
theorem Follows.next
    {text : Text}
    {s : TokenStream}
    (h : s.Follows text) :
    (s.next table).2.Follows text := by
  unfold TokenStream.next
  split
  · exact h
  · split
    · exact h
    · rename_i step hSome
      rcases RuleTable.stepOn_consumes hSome with
        ⟨consumed, hConsumes⟩
      rcases Text.suffixAt_eq_some_iff.mp h with
        ⟨before, hText, hSize⟩
      apply Text.suffixAt_eq_some_iff.mpr
      refine ⟨before ++ consumed, ?_, ?_⟩
      · rw [hText, hConsumes.text_eq, List.append_assoc]
      · rw [Text.size_append, hSize, hConsumes.offset_eq]

/- So do many calls. -/
theorem Follows.after
    {text : Text}
    {s : TokenStream}
    (h : s.Follows text)
    (k : Nat) : (s.after table k).Follows text := by
  induction k generalizing s with
  | zero => exact h
  | succ k ih => exact ih (h.next table)

/-
  Where no token is to come, none is pending and the cursor
  stands at the end of the text.
-/
theorem Follows.toCome_eq_nil_iff
    {text : Text}
    {s : TokenStream}
    (h : s.Follows text) :
    s.toCome table = [] ↔
      s.pending = [] ∧ s.cursor.offset = text.size := by
  rcases Text.suffixAt_eq_some_iff.mp h with
    ⟨before, hText, hSize⟩
  have hTiles := table.scanFrom_tiles s.cursor s.rest
  rw [toCome, List.append_eq_nil_iff, hText,
    Text.size_append]
  constructor
  · rintro ⟨hPending, hScan⟩
    have hRest : s.rest = [] := by
      by_contra hNot
      exact hTiles.ne_nil hNot hScan
    rw [hRest, Text.size_nil]
    exact ⟨hPending, hSize.symm⟩
  · rintro ⟨hPending, hOffset⟩
    have hRest : s.rest = [] := by
      apply Text.eq_nil_of_size_eq_zero
      omega
    rw [hRest, RuleTable.scanFrom_nil]
    exact ⟨hPending, rfl⟩

end TokenStream

end Highlighter

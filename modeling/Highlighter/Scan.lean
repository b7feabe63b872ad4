import Highlighter.RuleTable
import Highlighter.Token

/-
  Scanning: a rule table driven over a text, one rule at a
  time.

  Key definitions include:
    * `RuleTable.Step`
    * `RuleTable.stepOn`
    * `RuleTable.step`
    * `RuleTable.scanFrom`
    * `RuleTable.scan`
    * `TokenStream`
    * `TokenStream.next`
-/

namespace Highlighter

namespace RuleTable

------------------------------------------------------------
-- Steps
------------------------------------------------------------

/-
  The outcome of one step: its tokens, the cursor after it,
  and the text still to be scanned.
-/
structure Step where
  tokens : List Token
  cursor : Cursor
  rest : Text
deriving DecidableEq, Repr

/-
  The step over the first `n` characters of a text, given
  the pieces they are cut into.
-/
def stepOver
    (cursor : Cursor)
    (text : Text)
    (n : Nat)
    (pieces : List Piece)
    (stateAfter : State)
    (effect : Effect) : Step :=
  ⟨Token.layOut stateAfter effect cursor.offset pieces,
    ⟨cursor.offset + Text.size (text.take n), stateAfter⟩,
    text.drop n⟩

/- The first rule that fires at the start of a line. -/
def firstHit (line : Text) :
    List (Rule Pattern) → Option (Rule Pattern × Hit)
  | [] => none
  | r :: rules =>
      match r.apply line with
      | some hit => some (r, hit)
      | none => firstHit line rules

/- A step over one unlabelled piece that changes nothing. -/
def plainStep (cursor : Cursor) (text : Text) (n : Nat) : Step :=
  stepOver cursor text n [⟨none, text.take n⟩] cursor.state
    Effect.none

/-
  The next step on a text that begins at the cursor. A line
  break is a step by itself. Otherwise the first rule that
  fires on the rest of the line makes the step, and if none
  does one character is skipped.
-/
def stepOn (table : RuleTable) (cursor : Cursor) (text : Text) :
    Option Step :=
  match text with
  | [] => none
  | _ :: _ =>
      let n := Text.breakLength text
      if n = 0 then
        let line := Text.currentLine text
        match firstHit line (table.rules cursor.state) with
        | some (r, hit) =>
            some (stepOver cursor text hit.length hit.pieces
              (r.stateAfter cursor.state) r.effect)
        | none => some (plainStep cursor text 1)
      else
        some (plainStep cursor text n)

/-
  The next step from a cursor. There is none at the end of
  the text or inside a character.
-/
def step (table : RuleTable) (text : Text) (cursor : Cursor) :
    Option Step :=
  (text.suffixAt cursor.offset).bind
    fun rest => table.stepOn cursor rest

/- A rule that fires first is one that fires. -/
theorem firstHit_apply
    {line : Text}
    {rules : List (Rule Pattern)}
    {r : Rule Pattern}
    {hit : Hit}
    (h : firstHit line rules = some (r, hit)) :
    r.apply line = some hit := by
  induction rules with
  | nil => cases h
  | cons r' rules ih =>
      simp only [firstHit] at h
      split at h
      · rename_i hr
        cases h
        exact hr
      · exact ih h

/- A step leaves less to be scanned. -/
theorem stepOn_rest_length_lt
    {table : RuleTable}
    {cursor : Cursor}
    {text : Text}
    {s : Step}
    (h : table.stepOn cursor text = some s) :
    s.rest.length < text.length := by
  cases text with
  | nil => cases h
  | cons c rest =>
      have shorter : ∀ n, 0 < n →
          ((c :: rest).drop n).length < (c :: rest).length := by
        intro n hn
        simp only [List.length_drop, List.length_cons]
        omega
      simp only [stepOn] at h
      split at h
      · split at h
        · rename_i hit hfirst
          cases h
          exact shorter _
            (Rule.apply_length_pos (firstHit_apply hfirst))
        · cases h
          exact shorter 1 (by decide)
      · rename_i hn
        cases h
        exact shorter _ (Nat.pos_of_ne_zero hn)

------------------------------------------------------------
-- Scans
------------------------------------------------------------

/- The tokens of a text that begins at the cursor. -/
def scanFrom (table : RuleTable) (cursor : Cursor)
    (text : Text) : List Token :=
  match _h : table.stepOn cursor text with
  | none => []
  | some s => s.tokens ++ table.scanFrom s.cursor s.rest
termination_by text.length
decreasing_by exact stepOn_rest_length_lt _h

/- The tokens of a text scanned from a state. -/
def scan (table : RuleTable) (text : Text) (state : State) :
    List Token :=
  table.scanFrom ⟨0, state⟩ text

end RuleTable

------------------------------------------------------------
-- Scanning on demand
------------------------------------------------------------

/-
  A scan in progress: the cursor after the last step, the
  text after it, and the tokens of that step that have not
  been given out yet.
-/
structure TokenStream where
  cursor : Cursor
  rest : Text
  pending : List Token
deriving DecidableEq, Repr

namespace TokenStream

/- A scan that has not begun. -/
def start (text : Text) (state : State) : TokenStream :=
  ⟨⟨0, state⟩, text, []⟩

/-
  Give out the next token, making a step when no token is
  pending.
-/
def next (table : RuleTable) (s : TokenStream) :
    Option Token × TokenStream :=
  match s.pending with
  | t :: pending => (some t, { s with pending := pending })
  | [] =>
      match table.stepOn s.cursor s.rest with
      | none => (none, s)
      | some step =>
          (step.tokens.head?,
            ⟨step.cursor, step.rest, step.tokens.tail⟩)

end TokenStream

end Highlighter

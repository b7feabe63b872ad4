import Highlighter.Proofs.Scan.Stream

/-
  A scan covers its text: whatever the rules are, its tokens
  lie end to end from the start of the text to its end, a
  stream gives out exactly these and then nothing more, and
  every step moves on.

  Key definitions include:
    * `RuleTable.Tiling`

  Main statements:
    * `RuleTable.step_eq_none_iff`
    * `RuleTable.step_moves`
    * `RuleTable.scan_covers_text`
-/

namespace Highlighter

namespace RuleTable

------------------------------------------------------------
-- Steps from any cursor
------------------------------------------------------------

/-
  There is no step at or past the end of a text and inside
  of a character, and only there.
-/
theorem step_eq_none_iff
    (table : RuleTable)
    (text : Text)
    (cursor : Cursor) :
    table.step text cursor = none ↔
      text.size ≤ cursor.offset ∨
        ¬ text.IsBoundary cursor.offset := by
  rw [← Text.suffixAt_eq_none_iff, step]
  cases hSuffix : text.suffixAt cursor.offset with
  | none => simp
  | some rest =>
      rcases Text.suffixAt_eq_some_iff.mp hSuffix with
        ⟨before, rfl, hSize⟩
      simp only [Option.bind_some, reduceCtorEq, or_false]
      rw [stepOn_eq_none_iff, Text.size_append, ← hSize]
      constructor
      · rintro rfl
        simp
      · intro hLe
        apply Text.eq_nil_of_size_eq_zero
        omega

/- A step moves the cursor forward to a boundary. -/
theorem step_moves
    {table : RuleTable}
    {text : Text}
    {cursor : Cursor}
    {s : Step}
    (h : table.step text cursor = some s) :
    cursor.offset < s.cursor.offset ∧
      text.IsBoundary s.cursor.offset := by
  rcases Option.bind_eq_some_iff.mp h with
    ⟨rest, hSuffix, hStep⟩
  rcases Text.suffixAt_eq_some_iff.mp hSuffix with
    ⟨before, hText, hSize⟩
  rcases stepOn_consumes hStep with ⟨consumed, hConsumes⟩
  have hPos := Text.size_pos hConsumes.nonempty
  refine ⟨?_, before ++ consumed, s.rest, ?_, ?_⟩
  · rw [hConsumes.offset_eq]
    omega
  · rw [hText, hConsumes.text_eq, List.append_assoc]
  · rw [Text.size_append, hSize, hConsumes.offset_eq]

------------------------------------------------------------
-- Whole scans
------------------------------------------------------------

/-
  Tokens tile a whole text: the first one starts at zero,
  each starts where the one before it ended, the last ends
  at the end of the text, none is empty, and each stands
  where it says.
-/
structure Tiling (text : Text) (tokens : List Token) :
    Prop where
  start_head : ∀ t, tokens.head? = some t → t.start = 0
  isChain :
    tokens.IsChain fun t next => next.start = t.stop
  stop_last :
    (tokens.getLast?.map Token.stop).getD 0 = text.size
  text_ne_nil : ∀ t ∈ tokens, t.text ≠ []
  standsIn : ∀ t ∈ tokens, t.StandsIn text

/- The tokens of a scan tile the whole text. -/
theorem scan_tiling
    (table : RuleTable)
    (text : Text)
    (state : State) :
    Tiling text (table.scan text state) := by
  have hTiles : Token.Tiles 0 (table.scan text state) text :=
    table.scanFrom_tiles ⟨0, state⟩ text
  constructor
  · exact hTiles.start_head
  · exact hTiles.isChain
  · rw [hTiles.stop_getLast, Nat.zero_add]
  · exact hTiles.text_ne_nil
  · exact Token.Tiles.standsIn [] hTiles

/-
  For every rule table, text and state: the tokens of the
  scan tile the text; a stream gives out the tokens of the
  scan and nothing after them; it has nothing more to give
  exactly when none is pending and its cursor is at the end,
  and from then on; each step of it is a step of the table
  on the text. Such a step is missing exactly at or past the
  end and inside of characters, and else moves the cursor
  forward to a boundary.
-/
theorem scan_covers_text
    (table : RuleTable)
    (text : Text)
    (state : State) :
    let tokens := table.scan text state
    let stream := TokenStream.start text state
    Tiling text tokens ∧
    (∀ k, stream.pull table k = tokens[k]?) ∧
    (∀ k, stream.pull table k = none ↔
      (stream.after table k).pending = [] ∧
        (stream.after table k).cursor.offset = text.size) ∧
    (∀ k, stream.pull table k = none →
      ∀ l, k ≤ l → stream.pull table l = none) ∧
    (∀ k, table.step text (stream.after table k).cursor =
      table.stepOn (stream.after table k).cursor
        (stream.after table k).rest) ∧
    (∀ cursor, table.step text cursor = none ↔
      text.size ≤ cursor.offset ∨
        ¬ text.IsBoundary cursor.offset) ∧
    (∀ cursor s, table.step text cursor = some s →
      cursor.offset < s.cursor.offset ∧
        text.IsBoundary s.cursor.offset) := by
  intro tokens stream
  have hFollows : ∀ k, (stream.after table k).Follows text :=
    fun k =>
      (TokenStream.follows_start text state).after table k
  have hPull : ∀ k, stream.pull table k = tokens[k]? := by
    intro k
    rw [TokenStream.pull_eq, TokenStream.toCome_start]
  refine ⟨table.scan_tiling text state, hPull, ?_, ?_, ?_,
    table.step_eq_none_iff text, fun cursor s => step_moves⟩
  · intro k
    rw [TokenStream.pull, TokenStream.next_fst,
      List.head?_eq_none_iff]
    exact (hFollows k).toCome_eq_nil_iff table
  · intro k hNone l hkl
    rw [hPull, List.getElem?_eq_none_iff] at hNone ⊢
    exact Nat.le_trans hNone hkl
  · intro k
    exact (hFollows k).step_eq table

end RuleTable

end Highlighter

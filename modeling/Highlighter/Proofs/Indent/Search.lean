import Highlighter.Proofs.Indent.LeadingDedents

/-
  The search for the level of a line, look by look. It holds
  a position in the stack of levels, the rules of some state
  and what is left of the line. In each round a rule that
  dedents fires: the position goes down, the rules may
  change, and the line is cut after the match. To cut a line
  and to read the stack may both fail, at an offset that is
  no boundary and at a position outside of the stack, and
  the rules may hand over to each other in circles. It is
  shown that nothing fails and that the search ends.

  Key definitions include:
    * `Hit.size`
    * `RuleTable.Search`
    * `RuleTable.Search.look`
    * `RuleTable.Search.Reaches`
    * `RuleTable.Search.Follows`

  Main statements:
    * `RuleTable.Search.Follows.round`: what a round keeps.
    * `RuleTable.Search.Reaches.follows`: what all of the
      rounds keep.
    * `RuleTable.Search.exists_reaches_ended`
    * `RuleTable.suggest_by_search`
-/

namespace Highlighter

------------------------------------------------------------
-- Cuts of a line
------------------------------------------------------------

namespace Hit

/- The bytes of a hit are those of its pieces. -/
def size (hit : Hit) : Nat := (Piece.join hit.pieces).size

/- A line can be cut after what a hit covers. -/
theorem Covers.suffixAt_size
    {line : Text}
    {hit : Hit}
    (h : hit.Covers line) :
    line.suffixAt hit.size = some (line.drop hit.length) := by
  rw [size, h.join_pieces]
  exact Text.suffixAt_take line hit.length

end Hit

namespace RuleTable

------------------------------------------------------------
-- Looks
------------------------------------------------------------

/-
  A search for a level: its position in the stack, counted
  from the outermost level, which goes below zero where the
  line closes more levels than are open; the rules to be
  tried; and what is left of the line.
-/
structure Search where
  position : Int
  rules : List (Rule Pattern)
  rest : Text

namespace Search

/-
  What comes of a look at the line: no rule dedents, one
  does but the line cannot be cut after it, or there is a
  round and the search goes on.
-/
inductive Look
  | ended
  | cutFails
  | round (s : Search)

/- The search at its beginning, at the innermost level. -/
def start
    (table : RuleTable)
    (state : State)
    (levels : List Nat)
    (line : Text) : Search :=
  ⟨(levels.length : Int) - 1, table.rules state, line⟩

/- Look for a rule that dedents, and cut the line after it. -/
def look (table : RuleTable) (s : Search) : Look :=
  match firstHit s.rest (s.rules.filter (·.dedents)) with
  | none => Look.ended
  | some (r, hit) =>
      match s.rest.suffixAt hit.size with
      | none => Look.cutFails
      | some rest =>
          Look.round
            ⟨s.position - 1, table.rulesAfter s.rules r, rest⟩

/-
  The column at the position, zero below the stack. There is
  none if the position is past the end of the stack. The
  levels are given innermost first.
-/
def column? (levels : List Nat) (s : Search) : Option Nat :=
  if s.position < 0 then
    some 0
  else
    levels.reverse[s.position.toNat]?

variable {table : RuleTable}

/- A search ends where it has no closer before it. -/
theorem look_eq_ended_iff {s : Search} :
    s.look table = Look.ended ↔
      table.closers s.rules s.rest = 0 := by
  unfold look
  split
  · rename_i hNone
    rw [closers_of_no_hit hNone]
    exact iff_of_true rfl rfl
  · rename_i r hit hHit
    rw [closers_of_firstHit hHit]
    split <;> simp

/- Where it has one there is a round. -/
theorem look_of_firstHit
    {s : Search}
    {r : Rule Pattern}
    {hit : Hit}
    (h :
      firstHit s.rest (s.rules.filter (·.dedents)) =
        some (r, hit)) :
    s.look table =
      Look.round ⟨s.position - 1, table.rulesAfter s.rules r,
        s.rest.drop hit.length⟩ := by
  have hCovers := Rule.apply_covers (firstHit_apply h)
  simp only [look, h, hCovers.suffixAt_size]

/- Whatever fires, the line can be cut after it. -/
theorem look_ne_cutFails (s : Search) :
    s.look table ≠ Look.cutFails := by
  intro hFails
  cases hHit :
      firstHit s.rest (s.rules.filter (·.dedents)) with
  | none =>
      simp only [look, hHit] at hFails
      cases hFails
  | some found =>
      rw [look_of_firstHit hHit] at hFails
      cases hFails

/- All that a round does. -/
theorem exists_hit_of_round
    {s t : Search}
    (h : s.look table = Look.round t) :
    ∃ r hit,
      firstHit s.rest (s.rules.filter (·.dedents)) =
          some (r, hit) ∧
        t = ⟨s.position - 1, table.rulesAfter s.rules r,
          s.rest.drop hit.length⟩ := by
  cases hHit :
      firstHit s.rest (s.rules.filter (·.dedents)) with
  | none =>
      simp only [look, hHit] at h
      cases h
  | some found =>
      rcases found with ⟨r, hit⟩
      rw [look_of_firstHit hHit] at h
      cases h
      exact ⟨r, hit, rfl, rfl⟩

/- A round is one of the closers of the line. -/
theorem closers_of_round
    {s t : Search}
    (h : s.look table = Look.round t) :
    table.closers s.rules s.rest =
      table.closers t.rules t.rest + 1 := by
  rcases exists_hit_of_round h with ⟨r, hit, hHit, rfl⟩
  exact closers_of_firstHit hHit

------------------------------------------------------------
-- Rounds
------------------------------------------------------------

/-
  The search comes from one state to another in a number of
  rounds.
-/
inductive Reaches (table : RuleTable) :
    Nat → Search → Search → Prop
  | stay (s : Search) : Reaches table 0 s s
  | round
      {n : Nat}
      {s t u : Search}
      (hRound : s.look table = Look.round t)
      (hRest : Reaches table n t u) :
      Reaches table (n + 1) s u

/-
  Where a search is on a line after some rounds: it has gone
  down the stack by one level a round and taken at least one
  character a round off the line.
-/
structure Follows
    (levels : List Nat)
    (line : Text)
    (n : Nat)
    (s : Search) : Prop where
  position_eq : s.position = (levels.length : Int) - 1 - n
  taken : ∃ before, line = before ++ s.rest ∧
    n ≤ before.length

theorem follows_start
    (table : RuleTable)
    (state : State)
    (levels : List Nat)
    (line : Text) :
    Follows levels line 0 (start table state levels line) where
  position_eq := (Int.sub_zero _).symm
  taken := ⟨[], rfl, Nat.le_refl 0⟩

/- One more round takes it there. -/
theorem Follows.round
    {levels : List Nat}
    {line : Text}
    {n : Nat}
    {s t : Search}
    (h : Follows levels line n s)
    (hRound : s.look table = Look.round t) :
    Follows levels line (n + 1) t := by
  rcases exists_hit_of_round hRound with ⟨r, hit, hHit, rfl⟩
  have hCovers := Rule.apply_covers (firstHit_apply hHit)
  constructor
  · change s.position - 1 = _
    rw [h.position_eq]
    omega
  · rcases h.taken with ⟨before, hLine, hBefore⟩
    refine ⟨before ++ s.rest.take hit.length, ?_, ?_⟩
    · rw [List.append_assoc, List.take_append_drop, ← hLine]
    · -- an empty match does not fire
      have hPos := hCovers.length_pos
      rw [List.length_append, List.length_take,
        Nat.min_eq_left hCovers.length_le]
      omega

/- So do all rounds that there are. -/
theorem Reaches.follows
    {levels : List Nat}
    {line : Text}
    {k n : Nat}
    {s t : Search}
    (h : Reaches table n s t)
    (hFollows : Follows levels line k s) :
    Follows levels line (k + n) t := by
  induction h generalizing k with
  | stay s => exact hFollows
  | @round n s t u hRound hRest ih =>
      have hNumber : k + (n + 1) = k + 1 + n := by omega
      rw [hNumber]
      exact ih (hFollows.round hRound)

/- Each of the rounds is one of the closers of the line. -/
theorem Reaches.closers_eq
    {n : Nat}
    {s t : Search}
    (h : Reaches table n s t) :
    table.closers s.rules s.rest =
      table.closers t.rules t.rest + n := by
  induction h with
  | stay s => rfl
  | round hRound hRest ih =>
      rw [closers_of_round hRound, ih, Nat.add_assoc]

/- There are not more rounds than the line has bytes. -/
theorem Follows.le_size
    {levels : List Nat}
    {line : Text}
    {n : Nat}
    {s : Search}
    (h : Follows levels line n s) : n ≤ line.size := by
  rcases h.taken with ⟨before, rfl, hBefore⟩
  have hSize := Text.length_le_size before
  rw [Text.size_append]
  omega

/- What is left begins at a boundary of the line. -/
theorem Follows.exists_suffixAt
    {levels : List Nat}
    {line : Text}
    {n : Nat}
    {s : Search}
    (h : Follows levels line n s) :
    ∃ offset, n ≤ offset ∧
      line.suffixAt offset = some s.rest := by
  rcases h.taken with ⟨before, rfl, hBefore⟩
  exact ⟨before.size,
    Nat.le_trans hBefore (Text.length_le_size before),
    Text.suffixAt_append before s.rest⟩

/- The level as many places below the top as rounds. -/
theorem Follows.column?_eq
    {levels : List Nat}
    {line : Text}
    {n : Nat}
    {s : Search}
    (h : Follows levels line n s) :
    s.column? levels =
      if n < levels.length then levels[n]? else some 0 := by
  have hPosition := h.position_eq
  unfold column?
  by_cases hOpen : n < levels.length
  · have hIndex :
        s.position.toNat = levels.length - 1 - n := by
      omega
    have hBack : levels.length - 1 -
        (levels.length - 1 - n) = n := by
      omega
    rw [if_pos hOpen, if_neg (by omega), hIndex,
      List.getElem?_reverse (by omega), hBack]
  · rw [if_neg hOpen, if_pos (by omega)]

/- From everywhere the search comes to an end. -/
theorem exists_reaches_ended
    (table : RuleTable)
    (s : Search) :
    ∃ t, Reaches table (table.closers s.rules s.rest) s t ∧
      t.look table = Look.ended := by
  generalize hCount : table.closers s.rules s.rest = n
  induction n generalizing s with
  | zero =>
      exact ⟨s, Reaches.stay s, look_eq_ended_iff.mpr hCount⟩
  | succ n ih =>
      cases hLook : s.look table with
      | ended =>
          rw [look_eq_ended_iff, hCount] at hLook
          cases hLook
      | cutFails => exact absurd hLook (look_ne_cutFails s)
      | round t =>
          rw [closers_of_round hLook] at hCount
          rcases ih t (Nat.succ.inj hCount) with
            ⟨u, hReaches, hEnded⟩
          exact ⟨u, Reaches.round hLook hReaches, hEnded⟩

end Search

------------------------------------------------------------
-- Suggestions
------------------------------------------------------------

/- Levels are discarded from the top of the stack. -/
theorem headD_drop
    (levels : List Nat)
    (n : Nat) :
    some ((levels.drop n).headD 0) =
      if n < levels.length then levels[n]? else some 0 := by
  rw [List.headD_eq_head?_getD, List.head?_drop]
  split
  · rename_i hOpen
    rw [List.getElem?_eq_getElem hOpen]
    rfl
  · rename_i hClosed
    rw [List.getElem?_eq_none (Nat.le_of_not_lt hClosed)]
    rfl

/-
  The search for the level of a line ends, in any table and
  from any state, after as many rounds as the line has
  closers, not more than it has bytes. However far it has
  come, the line can be cut where the next round asks for
  it, what is left begins at a boundary of the line, and the
  position is in the stack or below it. The column suggested
  is the one at its end: zero, or the level as many places
  below the top of the stack as there were rounds.
-/
theorem suggest_by_search
    (table : RuleTable)
    (m : LanguageMeta)
    (state : State)
    (levels : List Nat)
    (line : Text) :
    let start := Search.start table state levels line
    let n := table.closers (table.rules state) line
    n ≤ line.size ∧
    (∃ last,
      Search.Reaches table n start last ∧
        last.look table = Search.Look.ended ∧
        table.suggest m state levels line =
          if m.indentsIn state then last.column? levels
          else none) ∧
    (∀ k s, Search.Reaches table k start s →
      k ≤ n ∧
        s.look table ≠ Search.Look.cutFails ∧
        (∃ offset, k ≤ offset ∧
          line.suffixAt offset = some s.rest) ∧
        s.position = (levels.length : Int) - 1 - k ∧
        (s.column? levels).isSome = true) ∧
    ∀ column,
      table.suggest m state levels line = some column →
        (levels.length ≤ n ∧ column = 0) ∨
          levels[n]? = some column := by
  intro start n
  have hStart :=
    Search.follows_start table state levels line
  have hFollows : ∀ k s,
      Search.Reaches table k start s →
        s.Follows levels line k := by
    intro k s hReaches
    have h := hReaches.follows hStart
    rwa [Nat.zero_add] at h
  rcases Search.exists_reaches_ended table start with
    ⟨last, hReaches, hEnded⟩
  have hColumn := (hFollows n last hReaches).column?_eq
  have hSuggest : table.suggest m state levels line =
      if m.indentsIn state then last.column? levels
      else none := by
    rw [hColumn, ← headD_drop]
    rfl
  refine ⟨(hFollows n last hReaches).le_size,
    ⟨last, hReaches, hEnded, hSuggest⟩, ?_, ?_⟩
  · intro k s hReaches
    have h := hFollows k s hReaches
    have hCount : n = table.closers s.rules s.rest + k :=
      hReaches.closers_eq
    refine ⟨by omega, s.look_ne_cutFails, h.exists_suffixAt,
      h.position_eq, ?_⟩
    rw [h.column?_eq]
    split
    · rename_i hOpen
      rw [List.getElem?_eq_getElem hOpen]
      rfl
    · rfl
  · intro column hSome
    rw [hSuggest, Option.ite_none_right_eq_some] at hSome
    rw [hSome.2] at hColumn
    split at hColumn
    · exact Or.inr hColumn.symm
    · rename_i hClosed
      exact Or.inl
        ⟨Nat.le_of_not_lt hClosed, Option.some.inj hColumn⟩

/-
  Two states whose rules that dedent hand over to each other
  without an end, one of them by a literal.
-/
def circleEntries : List Entry :=
  [⟨State.start,
    [{ pattern := Pattern.Source.regex "[\x7d]".toList
       labelling := Labelling.whole none
       next := some State.comment
       dedents := true }]⟩,
   ⟨State.comment,
    [{ pattern := Pattern.Source.upTo "\x7d".toList
       labelling := Labelling.whole none
       next := some State.start
       dedents := true }]⟩]

/- They go round three times on a line of five bytes. -/
theorem suggest_by_search_circle :
    let line : Text := "\x7dé)\x7d".toList
    ∃ table last,
      compile circleEntries = Except.ok table ∧
      Search.Reaches table 3
        (Search.start table State.start [8, 6, 4, 2] line)
        last ∧
      last.look table = Search.Look.ended ∧
      last.column? [8, 6, 4, 2] = some 2 := by
  intro line
  rcases exists_of_compile circleEntries
      (fun table =>
        table.closers (table.rules State.start) line = 3)
      (by decide +kernel) with ⟨table, hCompile, hThree⟩
  rcases suggest_by_search table Qhantoom.info State.start
    [8, 6, 4, 2] line with
    ⟨-, ⟨last, hReaches, hEnded, hSuggest⟩, -, -⟩
  rw [hThree] at hReaches
  refine ⟨table, last, hCompile, hReaches, hEnded, ?_⟩
  have hIndents :
      Qhantoom.info.indentsIn State.start = true := by decide
  rw [if_pos hIndents] at hSuggest
  rw [← hSuggest, suggest, if_pos hIndents, hThree]
  rfl

end RuleTable

end Highlighter

import Highlighter.Proofs.Indent.Closers
import Highlighter.Proofs.RuleTable
import Highlighter.Proofs.Scan.Outline
import Highlighter.Qhantoom

/-
  The levels that a line closes against the dedents that a
  scan of the line begins with. Indentation tries the rules
  that dedent alone, where a scan tries every rule in order.
  The two go along for as long as the scan dedents. Then the
  scan may be at a closing bracket that an earlier rule
  hides from it and not from indentation.

  Key definitions include:
    * `RuleTable.Step.dedents`
    * `RuleTable.DedentRun`
    * `RuleTable.dedentRun`
    * `RuleTable.HidesDedent`

  Main statements:
    * `RuleTable.closers_eq_dedentRun`: the closers of a line
      are the dedents its scan begins with and the closers
      of what is left.
    * `RuleTable.closers_eq_zero_iff_not_hides`
    * `RuleTable.discards_leading_dedents`
-/

namespace Highlighter

/- What is dropped from a line leaves a line. -/
theorem Text.BreakFree.drop
    {t : Text}
    (h : t.BreakFree)
    (n : Nat) : BreakFree (t.drop n) :=
  fun c hc => h c (List.mem_of_mem_drop hc)

/- There is something on a line that is hit. -/
theorem Hit.Covers.line_ne_nil
    {line : Text}
    {hit : Hit}
    (h : hit.Covers line) : line ≠ [] :=
  List.length_pos_iff.mp
    (Nat.lt_of_lt_of_le h.length_pos h.length_le)

namespace RuleTable

------------------------------------------------------------
-- Steps that dedent
------------------------------------------------------------

/- Does a token of the step dedent? -/
def Step.dedents (s : Step) : Bool :=
  s.tokens.any (·.effect == Effect.dedent)

theorem dedents_plainStep
    (cursor : Cursor)
    (text : Text)
    (n : Nat) : (plainStep cursor text n).dedents = false :=
  rfl

/- A rule that fires gives its step the effect it has. -/
theorem dedents_stepOver
    {cursor : Cursor}
    {text line : Text}
    {hit : Hit}
    (hCovers : hit.Covers line)
    (state : State)
    (effect : Effect) :
    (stepOver cursor text hit.length hit.pieces state
        effect).dedents =
      (effect == Effect.dedent) := by
  unfold Step.dedents stepOver
  cases hPieces : hit.pieces with
  | nil => exact absurd hPieces hCovers.pieces_ne_nil
  | cons piece pieces =>
      -- only the first token has the effect
      have hOthers : ∀ t ∈ Token.layOut state Effect.none
          (cursor.offset + piece.text.size) pieces,
          ¬ (t.effect == Effect.dedent) = true := by
        intro t ht
        rw [Token.effect_of_mem_layOut ht]
        decide
      simp only [Token.layOut, List.any_cons,
        List.any_eq_false.mpr hOthers, Bool.or_false]

/- A rule whose effect it is to dedent is one that dedents. -/
theorem dedents_of_effect
    {r : Rule Pattern}
    (h : r.effect = Effect.dedent) : r.dedents = true := by
  unfold Rule.effect at h
  split at h
  · cases h
  · split at h
    · assumption
    · cases h

/- In a sound table a rule that dedents has that effect. -/
theorem Sound.effect_of_dedents
    {table : RuleTable}
    {r : Rule Pattern}
    (h : table.Sound r)
    (hDedents : r.dedents = true) :
    r.effect = Effect.dedent := by
  have hOne := h.one_effect
  rw [hDedents, Bool.and_true] at hOne
  simp [Rule.effect, hOne, hDedents]

/-
  On a line a step dedents just if the rule that fires first
  does.
-/
theorem dedents_iff
    {table : RuleTable}
    {cursor : Cursor}
    {line : Text}
    (hFree : line.BreakFree)
    {s : Step}
    (h : table.stepOn cursor line = some s) :
    s.dedents = true ↔
      ∃ r hit,
        firstHit line (table.rules cursor.state) =
            some (r, hit) ∧
          r.effect = Effect.dedent ∧
          s = stepOver cursor line hit.length hit.pieces
            (r.stateAfter cursor.state) r.effect := by
  rcases stepOn_cases h with
    ⟨hBreak, rfl⟩ | ⟨-, -, r, hit, hHit, rfl⟩ | ⟨hNone, rfl⟩
  · cases line with
    | nil => cases h
    | cons c line =>
        rw [breakLength_of_breakFree hFree] at hBreak
        cases hBreak
  · rw [currentLine_of_breakFree hFree] at hHit
    rw [dedents_stepOver
      (Rule.apply_covers (firstHit_apply hHit)), beq_iff_eq]
    constructor
    · intro hEffect
      exact ⟨r, hit, hHit, hEffect, rfl⟩
    · rintro ⟨r', hit', hHit', hEffect, -⟩
      cases hHit.symm.trans hHit'
      exact hEffect
  · rw [dedents_plainStep]
    refine ⟨fun hFalse => ?_, ?_⟩
    · cases hFalse
    · rintro ⟨r, hit, hHit, -⟩
      rw [← currentLine_of_breakFree hFree] at hHit
      exact absurd hNone (not_recovers_of_firstHit hHit)

/- A rule that fires first and dedents makes such a step. -/
theorem exists_step_of_firstHit
    {table : RuleTable}
    {cursor : Cursor}
    {line : Text}
    (hFree : line.BreakFree)
    {r : Rule Pattern}
    {hit : Hit}
    (hHit :
      firstHit line (table.rules cursor.state) =
        some (r, hit))
    (hEffect : r.effect = Effect.dedent) :
    ∃ s, table.stepOn cursor line = some s ∧
      s.dedents = true := by
  have hSome :=
    (Rule.apply_covers (firstHit_apply hHit)).line_ne_nil
  cases line with
  | nil => exact absurd rfl hSome
  | cons c line =>
      have hLine := hHit
      rw [← currentLine_of_breakFree hFree] at hLine
      have hStep := stepOn_of_firstHit
        (List.cons_ne_nil c line)
        (breakLength_of_breakFree hFree) hLine
      exact ⟨_, hStep, (dedents_iff hFree hStep).mpr
        ⟨r, hit, hHit, hEffect, rfl⟩⟩

------------------------------------------------------------
-- The dedents a scan begins with
------------------------------------------------------------

/-
  The steps that dedent at the beginning of a scan: their
  number, the cursor after them, and the text after it.
-/
structure DedentRun where
  count : Nat
  cursor : Cursor
  rest : Text
deriving DecidableEq, Repr

/- Make steps up to the first that does not dedent. -/
def dedentRun (table : RuleTable) (cursor : Cursor)
    (text : Text) : DedentRun :=
  match _h : table.stepOn cursor text with
  | none => ⟨0, cursor, text⟩
  | some s =>
      if s.dedents then
        let run := table.dedentRun s.cursor s.rest
        { run with count := run.count + 1 }
      else
        ⟨0, cursor, text⟩
termination_by text.length
decreasing_by exact stepOn_rest_length_lt _h

variable {table : RuleTable}

/- A step that dedents counts, and the run goes on. -/
theorem dedentRun_of_dedents
    {cursor : Cursor}
    {text : Text}
    {s : Step}
    (h : table.stepOn cursor text = some s)
    (hDedents : s.dedents = true) :
    let run := table.dedentRun s.cursor s.rest
    table.dedentRun cursor text =
      { run with count := run.count + 1 } := by
  intro run
  rw [dedentRun]
  split
  · rename_i hNone
    cases h.symm.trans hNone
  · rename_i s' hSome
    cases h.symm.trans hSome
    rw [if_pos hDedents]

/- Any other step ends it. -/
theorem dedentRun_of_not_dedents
    {cursor : Cursor}
    {text : Text}
    {s : Step}
    (h : table.stepOn cursor text = some s)
    (hDedents : s.dedents = false) :
    table.dedentRun cursor text = ⟨0, cursor, text⟩ := by
  rw [dedentRun]
  split
  · rfl
  · rename_i s' hSome
    cases h.symm.trans hSome
    rw [hDedents]
    rfl

theorem dedentRun_nil (cursor : Cursor) :
    table.dedentRun cursor [] = ⟨0, cursor, []⟩ := by
  rw [dedentRun]
  rfl

/- The run ends within the line it began in. -/
theorem breakFree_dedentRun
    (cursor : Cursor)
    (text : Text)
    (hFree : text.BreakFree) :
    (table.dedentRun cursor text).rest.BreakFree := by
  induction cursor, text using scan_induction table with
  | hEnd cursor =>
      rw [dedentRun_nil]
      exact hFree
  | hStep cursor text s consumed hStep hConsumes ih =>
      cases hDedents : s.dedents with
      | false =>
          rw [dedentRun_of_not_dedents hStep hDedents]
          exact hFree
      | true =>
          rw [dedentRun_of_dedents hStep hDedents]
          apply ih
          intro c hc
          apply hFree c
          rw [hConsumes.text_eq]
          exact List.mem_append_right consumed hc

/- At its end there is no step, or one that does not dedent. -/
theorem stepOn_dedentRun
    (cursor : Cursor)
    (text : Text) :
    ∀ s,
      table.stepOn (table.dedentRun cursor text).cursor
          (table.dedentRun cursor text).rest = some s →
        s.dedents = false := by
  induction cursor, text using scan_induction table with
  | hEnd cursor =>
      rw [dedentRun_nil]
      intro s h
      cases h
  | hStep cursor text s consumed hStep hConsumes ih =>
      cases hDedents : s.dedents with
      | false =>
          rw [dedentRun_of_not_dedents hStep hDedents]
          intro s' hStep'
          cases hStep.symm.trans hStep'
          exact hDedents
      | true =>
          rw [dedentRun_of_dedents hStep hDedents]
          exact ih

------------------------------------------------------------
-- Closers
------------------------------------------------------------

/-
  The rule that fires first fires first among those of its
  own sort.
-/
theorem firstHit_filter
    {line : Text}
    {rules : List (Rule Pattern)}
    {r : Rule Pattern}
    {hit : Hit}
    (h : firstHit line rules = some (r, hit))
    {p : Rule Pattern → Bool}
    (hr : p r = true) :
    firstHit line (rules.filter p) = some (r, hit) := by
  induction rules with
  | nil => cases h
  | cons r' rules ih =>
      simp only [firstHit] at h
      cases hApply : r'.apply line with
      | some hit' =>
          rw [hApply] at h
          cases h
          rw [List.filter_cons_of_pos hr, firstHit, hApply]
      | none =>
          rw [hApply] at h
          rw [List.filter_cons]
          split
          · rw [firstHit, hApply]
            exact ih h
          · exact ih h

/-
  The closers of a line are the dedents that its scan begins
  with, and after these the closers of what is left.
-/
theorem closers_eq_dedentRun
    (cursor : Cursor)
    (line : Text)
    (hFree : line.BreakFree) :
    let run := table.dedentRun cursor line
    table.closers (table.rules cursor.state) line =
      run.count +
        table.closers (table.rules run.cursor.state)
          run.rest := by
  induction cursor, line using scan_induction table with
  | hEnd cursor =>
      simp only [dedentRun_nil, Nat.zero_add]
  | hStep cursor line s consumed hStep hConsumes ih =>
      cases hDedents : s.dedents with
      | false =>
          simp only [dedentRun_of_not_dedents hStep hDedents,
            Nat.zero_add]
      | true =>
          rcases (dedents_iff hFree hStep).mp hDedents with
            ⟨r, hit, hHit, hEffect, rfl⟩
          have hAlone :=
            firstHit_filter hHit (dedents_of_effect hEffect)
          have hRest := ih (hFree.drop hit.length)
          rw [dedentRun_of_dedents hStep hDedents,
            closers_of_firstHit hAlone, rulesAfter_rules]
          simp only at hRest ⊢
          rw [Nat.add_right_comm, ← hRest]
          rfl

/-
  A dedent is hidden on a line when a rule that dedents
  could fire on it and one that does not fires first.
-/
def HidesDedent
    (table : RuleTable)
    (state : State)
    (line : Text) : Prop :=
  (∃ r hit,
      firstHit line (table.rules state) = some (r, hit) ∧
        r.dedents = false) ∧
    ∃ r ∈ table.rules state,
      r.dedents = true ∧ (r.apply line).isSome

/-
  Where the scan of a line does not begin with a dedent, the
  line has closers just if one is hidden.
-/
theorem closers_eq_zero_iff_not_hides
    (hSound : ∀ state, ∀ r ∈ table.rules state,
      table.Sound r)
    {cursor : Cursor}
    {line : Text}
    (hFree : line.BreakFree)
    (hStop : ∀ s, table.stepOn cursor line = some s →
      s.dedents = false) :
    table.closers (table.rules cursor.state) line = 0 ↔
      ¬ table.HidesDedent cursor.state line := by
  rw [closers_eq_zero_iff]
  constructor
  · rintro hNone ⟨-, r, hr, hDedents, hFires⟩
    rw [hNone r hr hDedents] at hFires
    cases hFires
  · intro hHides r hr hDedents
    by_contra hFires
    have hFires := Option.ne_none_iff_isSome.mp hFires
    apply hHides
    refine ⟨?_, r, hr, hDedents, hFires⟩
    cases hHit : firstHit line (table.rules cursor.state) with
    | none =>
        rw [firstHit_eq_none_iff.mp hHit r hr] at hFires
        cases hFires
    | some found =>
        rcases found with ⟨first, hit⟩
        refine ⟨first, hit, rfl, ?_⟩
        rw [← Bool.not_eq_true]
        intro hFirst
        -- then the scan would begin with that dedent
        have hSoundFirst := hSound _ _ (firstHit_mem hHit)
        rcases exists_step_of_firstHit hFree hHit
            (hSoundFirst.effect_of_dedents hFirst) with
          ⟨s, hStep, hStepDedents⟩
        rw [hStop s hStep] at hStepDedents
        cases hStepDedents

------------------------------------------------------------
-- Levels
------------------------------------------------------------

/-
  The levels that are discarded for a line, in a table that
  compiled with any reader: one for every dedent that a scan
  of the line begins with, after its leading blanks, and one
  for every closer that is left after them. Those are as
  many as the dedents just if no dedent is hidden where they
  end.
-/
theorem discards_leading_dedents
    {read : Regex.Reader}
    {entries : List Entry}
    (hCompile : compileWith read entries = Except.ok table)
    {m : LanguageMeta}
    {state : State}
    (hIndents : m.indentsIn state = true)
    (levels : List Nat)
    {line : Text}
    (hFree : line.BreakFree) :
    let body := line.trimStart
    let discarded := table.closers (table.rules state) body
    let run := table.dedentRun ⟨0, state⟩ body
    let left :=
      table.closers (table.rules run.cursor.state) run.rest
    table.suggest m state levels body =
        some ((levels.drop discarded).headD 0) ∧
      discarded = run.count + left ∧
      (discarded = run.count ↔
        ¬ table.HidesDedent run.cursor.state run.rest) := by
  intro body discarded run left
  have hBody : body.BreakFree := hFree.trimStart
  have hSum : discarded = run.count + left :=
    closers_eq_dedentRun ⟨0, state⟩ body hBody
  have hLeft : left = 0 ↔
      ¬ table.HidesDedent run.cursor.state run.rest :=
    closers_eq_zero_iff_not_hides
      (fun _ _ hr => sound_of_compile hCompile hr)
      (breakFree_dedentRun ⟨0, state⟩ body hBody)
      (stepOn_dedentRun ⟨0, state⟩ body)
  refine ⟨?_, hSum, ?_⟩
  · unfold suggest
    rw [if_pos hIndents]
  · rw [← hLeft, hSum]
    omega

/- What is computed from a table that compiles is so. -/
theorem exists_of_compile
    (entries : List Entry)
    (p : RuleTable → Prop)
    [DecidablePred p]
    (h : (compile entries).toOption.any (fun table =>
      decide (p table)) = true) :
    ∃ table, compile entries = Except.ok table ∧ p table := by
  cases hCompile : compile entries with
  | error e =>
      rw [hCompile] at h
      cases h
  | ok table =>
      rw [hCompile] at h
      exact ⟨table, rfl, of_decide_eq_true h⟩

/-
  A table whose first rule reads a closing brace together
  with the letter after it, and so hides the brace.
-/
def hidingEntries : List Entry :=
  [⟨State.start,
    [{ pattern := Pattern.Source.regex "[\x7d]x".toList
       labelling := Labelling.whole (some Label.keyword) },
     { pattern := Pattern.Source.regex "[\x7d]".toList
       labelling := Labelling.whole none
       dedents := true },
     { pattern := Pattern.Source.regex "[\x7b]".toList
       labelling := Labelling.whole none
       indents := true }]⟩]

/- A scan dedents at the first of two braces only. -/
theorem discards_second_brace :
    let line : Text := " \x7d\x7dx".toList
    ∃ table, compile hidingEntries = Except.ok table ∧
      Qhantoom.info.indentsIn State.start = true ∧
      line.BreakFree ∧
      let run := table.dedentRun ⟨0, State.start⟩
        line.trimStart
      run.count = 1 ∧
        table.HidesDedent run.cursor.state run.rest ∧
        table.suggest Qhantoom.info State.start [6, 4, 2]
          line.trimStart = some 2 := by
  intro line
  have hIndents :
      Qhantoom.info.indentsIn State.start = true := by decide
  have hFree : line.BreakFree := by decide
  rcases exists_of_compile hidingEntries
      (fun table =>
        (table.dedentRun ⟨0, State.start⟩
            line.trimStart).count = 1 ∧
          table.closers (table.rules State.start)
            line.trimStart = 2)
      (by decide +kernel) with ⟨table, hCompile, hRun, hTwo⟩
  rcases discards_leading_dedents hCompile hIndents [6, 4, 2]
    hFree with ⟨hSuggest, -, hHides⟩
  rw [hTwo] at hSuggest
  rw [hTwo, hRun] at hHides
  refine ⟨table, hCompile, hIndents, hFree, hRun, ?_,
    hSuggest⟩
  by_contra hNot
  have hTwoIsOne : 2 = 1 := hHides.mpr hNot
  cases hTwoIsOne

/- A level is discarded though the scan does not dedent. -/
theorem discards_hidden_brace :
    let line : Text := "\x7dx".toList
    ∃ table, compile hidingEntries = Except.ok table ∧
      Qhantoom.info.indentsIn State.start = true ∧
      (table.dedentRun ⟨0, State.start⟩
        line.trimStart).count = 0 ∧
      table.closers (table.rules State.start)
        line.trimStart = 1 ∧
      table.suggest Qhantoom.info State.start [2]
        line.trimStart = some 0 := by
  intro line
  exact exists_of_compile hidingEntries _ (by decide +kernel)

end RuleTable

end Highlighter

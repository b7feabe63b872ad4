import Highlighter.Proofs.Qhantoom.WordRules
import Highlighter.Proofs.Scan.Step

/-
  How the scan classifies words. Outside of strings and
  comments the longest word at the cursor decides the next
  step as a whole: it is looked up among the words that
  define a name, the reserved words, the built-in types and
  the built-in values, in this order.

  Key definitions include:
    * `Qhantoom.Cuts`
    * `Qhantoom.KeywordFirst`

  Main statements:
    * `Qhantoom.cuts_word`
    * `Qhantoom.keyword_of_scanFrom`: no keyword is part of a
      longer word.
    * `Qhantoom.words_classified`
-/

namespace Highlighter

namespace Qhantoom

open Regex RuleTable

------------------------------------------------------------
-- Rules that fire first
------------------------------------------------------------

/-
  The first of some rules that fires cuts a line into pieces
  and changes nothing else.
-/
def Cuts
    (line : Text)
    (pieces : List Piece)
    (rules : List (Rule Pattern)) : Prop :=
  ∃ r,
    firstHit line rules =
      some (r, ⟨(Piece.join pieces).length, pieces⟩) ∧
    r.next = none ∧ r.effect = Effect.none

section

variable {line : Text}
variable {pieces : List Piece}
variable {rules : List (Rule Pattern)}

theorem Cuts.here
    {r : Rule Pattern}
    (hApply :
      r.apply line =
        some ⟨(Piece.join pieces).length, pieces⟩)
    (hNext : r.next = none)
    (hEffect : r.effect = Effect.none) :
    Cuts line pieces (r :: rules) := by
  refine ⟨r, ?_, hNext, hEffect⟩
  rw [firstHit, hApply]

theorem Cuts.skip
    {r : Rule Pattern}
    (h : Cuts line pieces rules)
    (hApply : r.apply line = none) :
    Cuts line pieces (r :: rules) := by
  rcases h with ⟨r', hHit, hSame⟩
  refine ⟨r', ?_, hSame⟩
  rw [firstHit, hApply]
  exact hHit

theorem Cuts.skipAll
    {skipped : List (Rule Pattern)}
    (h : Cuts line pieces rules)
    (hNone : ∀ r ∈ skipped, r.apply line = none) :
    Cuts line pieces (skipped ++ rules) := by
  induction skipped with
  | nil => exact h
  | cons r skipped ih =>
      rw [List.forall_mem_cons] at hNone
      exact (ih hNone.2).skip hNone.1

end

/- If it does not fire the rules after it decide. -/
theorem Cuts.choose
    {line s : Text}
    {a : Regex}
    {label : Label}
    {c : Prop}
    [Decidable c]
    (hApply :
      (labelling a label).apply line =
        if c then some ⟨s.length, [⟨some label, s⟩]⟩
        else none)
    {piece : Piece}
    {rules : List (Rule Pattern)}
    (h : ¬ c → Cuts line [piece] rules) :
    Cuts line [if c then ⟨some label, s⟩ else piece]
      (labelling a label :: rules) := by
  by_cases hc : c
  · rw [if_pos hc] at hApply ⊢
    refine Cuts.here ?_ rfl rfl
    rw [hApply, Piece.join_cons, Piece.join_nil,
      List.append_nil]
  · rw [if_neg hc] at hApply ⊢
    exact (h hc).skip hApply

------------------------------------------------------------
-- Words
------------------------------------------------------------

/- The rules before definitions do not fire on words. -/
theorem earlier_rules
    {line : Text}
    (hName : line.beginsName = true)
    (hPlain : line.leadingWord ∉ texts quotePrefixes) :
    ∀ r ∈ compiledStart.take 6, r.apply line = none := by
  have hWord := Text.beginsWord_of_beginsName hName
  have hTake :
      compiledStart.take 6 =
        compiledStart.take 5 ++ (compiledStart.drop 5).take 1 :=
    rfl
  intro r hr
  rw [hTake, List.mem_append] at hr
  rcases hr with hQuote | hNumber
  · rcases quote_rules r hQuote with
      ⟨a, ha, hPattern, hSimple⟩
    exact Rule.apply_of_paths_nil hPattern hSimple
      (quotes_of_word hWord hPlain a ha)
  · exact other_rules hName r
      (List.mem_append_left _ hNumber)

/-
  A word that defines nothing is looked up by the rules
  after definitions.
-/
theorem cuts_wordPiece
    {line : Text}
    (hName : line.beginsName = true) :
    Cuts line
      [wordPiece line.leadingWord
        (line.drop line.leadingWord.length)]
      (wordRules ++ compiledStart.drop 17) := by
  have hWord := Text.beginsWord_of_beginsName hName
  unfold wordPiece
  refine Cuts.choose (apply_keywordExpr line)
    fun hKeyword => ?_
  refine Cuts.choose
    (apply_listedExpr (by decide) (by decide) _ hWord)
    fun _ => ?_
  refine Cuts.choose
    (apply_listedExpr (by decide) (by decide) _ hWord)
    fun _ => ?_
  -- a function is a reserved word, and so this is none
  have hFunction :
      (definingRule functionExpr).apply line = none := by
    rw [apply_functionExpr, functionDefinition?, if_neg]
    · rfl
    · intro hFun
      apply hKeyword
      rw [← hFun]
      decide
  apply Cuts.skip _ hFunction
  show Cuts line _ ((compiledStart.drop 11).take 4 ++ _)
  apply Cuts.skipAll _ fun r hr =>
    other_rules hName r (List.mem_append_right _ hr)
  refine Cuts.choose (apply_callExpr _ hName) fun _ => ?_
  refine Cuts.here ?_ rfl rfl
  rw [apply_nameExpr _ hName, Piece.join_cons,
    Piece.join_nil, List.append_nil]

/- The rules for words do what is said of the word. -/
theorem cuts_word
    {line : Text}
    (hName : line.beginsName = true)
    (hPlain : line.leadingWord ∉ texts quotePrefixes) :
    Cuts line
      (wordPieces line.leadingWord
        (line.drop line.leadingWord.length))
      compiledStart := by
  rw [compiledStart_eq]
  apply Cuts.skipAll _ (earlier_rules hName hPlain)
  have hDefinition := apply_definitionExpr line
  unfold wordPieces
  cases hCase :
      definition? line.leadingWord
        (line.drop line.leadingWord.length) with
  | some d =>
      rw [hCase] at hDefinition
      exact Cuts.here hDefinition rfl rfl
  | none =>
      rw [hCase] at hDefinition
      exact (cuts_wordPiece hName).skip hDefinition

------------------------------------------------------------
-- Keywords
------------------------------------------------------------

/-
  Only the first of some pieces of a line may be a keyword,
  and then no character of a word follows it.
-/
def KeywordFirst (line : Text) : List Piece → Prop
  | [] => True
  | piece :: others =>
      (piece.label = some Label.keyword →
        ∃ more, line = piece.text ++ more ∧
          more.beginsWord = false) ∧
      ∀ other ∈ others, other.label ≠ some Label.keyword

theorem keywordFirst_pieces
    {d : Definition}
    {line : Text}
    (h : d.Within line) : KeywordFirst line d.pieces := by
  rcases h.line_eq with ⟨more, hLine⟩
  refine ⟨fun _ => ⟨_, hLine, ?_⟩, by simp⟩
  rw [Text.beginsWord_append h.blanks_ne_nil]
  exact h.beginsWord_blanks

/- May a rule label something as a keyword? -/
def mayLabelKeyword (r : Rule Pattern) : Bool :=
  match r.labelling with
  | Labelling.whole label => label == some Label.keyword
  | Labelling.captures _ => true

/- Three rules may. -/
theorem keyword_rules (state : State) :
    ∀ r ∈ compiledOf state,
      mayLabelKeyword r = false ∨
        r = definingRule definitionExpr ∨
        r = labelling keywordExpr Label.keyword ∨
        r = definingRule functionExpr := by
  cases state <;> decide +kernel

/- They take only whole words for keywords. -/
theorem keywordFirst_of_apply
    {state : State}
    {r : Rule Pattern}
    (hr : r ∈ table.rules state)
    {line : Text}
    {hit : Hit}
    (h : r.apply line = some hit) :
    KeywordFirst line hit.pieces := by
  rw [rules_eq_compiledOf] at hr
  rcases keyword_rules state r hr with
    hOther | rfl | rfl | rfl
  · cases hLabelling : r.labelling with
    | captures groups =>
        simp [mayLabelKeyword, hLabelling] at hOther
    | whole label =>
        rw [Rule.apply_whole hLabelling,
          Option.bind_eq_some_iff] at h
        rcases h with ⟨n, -, hHit⟩
        split at hHit
        · cases hHit
        · cases hHit
          refine ⟨fun hLabel => ?_, by simp⟩
          simp [mayLabelKeyword, hLabelling] at hOther
          exact absurd hLabel hOther
  · rw [apply_definitionExpr, Option.map_eq_some_iff] at h
    rcases h with ⟨d, hd, rfl⟩
    exact keywordFirst_pieces (definitionExpr_within hd)
  · rw [apply_keywordExpr] at h
    split at h
    · cases h
      refine ⟨fun _ => ?_, by simp⟩
      exact ⟨line.drop line.leadingWord.length,
        (Text.leadingWord_append_drop line).symm,
        Text.beginsWord_drop_leadingWord line⟩
    · cases h
  · rw [apply_functionExpr, Option.map_eq_some_iff] at h
    rcases h with ⟨d, hd, rfl⟩
    exact keywordFirst_pieces (functionDefinition?_within hd)

/- The tokens of such pieces are like them. -/
theorem keyword_of_mem_layOut
    {line : Text}
    {pieces : List Piece}
    (h : KeywordFirst line pieces)
    {stateAfter : State}
    {effect : Effect}
    {n : Nat}
    {t : Token}
    (ht : t ∈ Token.layOut stateAfter effect n pieces)
    (hLabel : t.label = some Label.keyword) :
    t.start = n ∧
      ∃ more, line = t.text ++ more ∧
        more.beginsWord = false := by
  cases pieces with
  | nil => cases ht
  | cons piece others =>
      rcases List.mem_cons.mp ht with rfl | ht
      · exact ⟨rfl, h.1 hLabel⟩
      · exfalso
        rcases Token.exists_of_mem_layOut ht with
          ⟨other, hOther, hSame, -⟩
        exact h.2 other hOther (hSame.trans hLabel)

/- A step makes a keyword of a whole word at the cursor. -/
theorem keyword_of_stepOn
    {cursor : Cursor}
    {text : Text}
    {s : Step}
    (h : table.stepOn cursor text = some s)
    {t : Token}
    (ht : t ∈ s.tokens)
    (hLabel : t.label = some Label.keyword) :
    t.start = cursor.offset ∧
      ∃ after, text = t.text ++ after ∧
        after.beginsWord = false := by
  have hPlain : ∀ n, t ∉ (plainStep cursor text n).tokens := by
    intro n hMem
    rw [List.mem_singleton.mp hMem] at hLabel
    cases hLabel
  rcases stepOn_cases h with
    ⟨-, rfl⟩ | ⟨-, -, r, hit, hHit, rfl⟩ | ⟨-, rfl⟩
  · exact absurd ht (hPlain _)
  · have hFirst :=
      keywordFirst_of_apply (firstHit_mem hHit)
        (firstHit_apply hHit)
    rcases keyword_of_mem_layOut hFirst ht hLabel with
      ⟨hStart, more, hLine, hMore⟩
    let further := text.dropWhile fun c =>
      !Text.isBreakChar c
    refine ⟨hStart, more ++ further, ?_, ?_⟩
    · rw [← List.append_assoc, ← hLine,
        Text.currentLine_append_dropWhile]
    · exact Text.beginsWord_append_dropWhile hMore text
  · exact absurd ht (hPlain _)

/- Every keyword of a scan is a whole word to its end. -/
theorem keyword_of_scanFrom
    (cursor : Cursor)
    (text : Text) :
    ∀ t ∈ table.scanFrom cursor text,
      t.label = some Label.keyword →
        ∃ before after, text = before ++ t.text ++ after ∧
          t.start = cursor.offset + before.size ∧
          after.beginsWord = false := by
  induction cursor, text using scan_induction table with
  | hEnd cursor =>
      intro t ht
      rw [scanFrom_nil] at ht
      cases ht
  | hStep cursor text s consumed hStep hConsumes ih =>
      intro t ht hLabel
      rw [scanFrom_of_stepOn hStep, List.mem_append] at ht
      rcases ht with ht | ht
      · rcases keyword_of_stepOn hStep ht hLabel with
          ⟨hStart, after, hText, hAfter⟩
        exact ⟨[], after, hText, by simpa using hStart,
          hAfter⟩
      · rcases ih t ht hLabel with
          ⟨before, after, hRest, hStart, hAfter⟩
        refine ⟨consumed ++ before, after, ?_, ?_, hAfter⟩
        · rw [hConsumes.text_eq, hRest]
          simp only [List.append_assoc]
        · rw [hStart, hConsumes.offset_eq, Text.size_append,
            Nat.add_assoc]

/-
  In the start state the longest word at the cursor decides
  the step as a whole, unless it is the prefix of a quote.
  If it defines a name, as one of the defining words with
  blanks and a name after it, the step takes all three, and
  `val` with `mut` after it is one keyword. Otherwise it
  takes the word, with an exclamation mark after a plain
  one. So no keyword of a scan is part of a longer word.
-/
theorem words_classified :
    (∀ (cursor : Cursor) (text : Text),
      cursor.state = State.start →
      (Text.currentLine text).beginsName = true →
      (Text.currentLine text).leadingWord ∉
        texts quotePrefixes →
      let line := Text.currentLine text
      let w := line.leadingWord
      let pieces := wordPieces w (line.drop w.length)
      table.stepOn cursor text =
        some (stepOver cursor text
          (Piece.join pieces).length pieces State.start
          Effect.none)) ∧
    ∀ (text : Text) (state : State),
      ∀ t ∈ table.scan text state,
        t.label = some Label.keyword →
          ∃ before after,
            text = before ++ t.text ++ after ∧
            t.start = before.size ∧
            after.beginsWord = false := by
  constructor
  · intro cursor text hState hName hPlain
    rcases cuts_word hName hPlain with
      ⟨r, hHit, hNext, hEffect⟩
    have hText : text ≠ [] := by
      rintro rfl
      cases hName
    have hBreak : Text.breakLength text = 0 := by
      cases text with
      | nil => rfl
      | cons c text =>
          rw [Text.breakLength_eq_zero_iff]
          by_contra hNot
          simp [Text.currentLine, hNot, Text.beginsName]
            at hName
    rw [← rules_start, ← hState] at hHit
    have hStep := stepOn_of_firstHit hText hBreak hHit
    rw [Rule.stateAfter, hNext, hState, hEffect] at hStep
    exact hStep
  · intro text state t ht hLabel
    rcases keyword_of_scanFrom ⟨0, state⟩ text t ht hLabel
      with ⟨before, after, hText, hStart, hAfter⟩
    exact ⟨before, after, hText, by simpa using hStart,
      hAfter⟩

theorem words_classified_mutable :
    table.stepOn ⟨0, State.start⟩ "val mut x".toList =
      some
        ⟨[⟨some Label.keyword, "val mut".toList, 0,
            State.start, Effect.none⟩,
          ⟨none, " ".toList, 7, State.start, Effect.none⟩,
          ⟨some Label.definition, "x".toList, 8,
            State.start, Effect.none⟩],
        ⟨9, State.start⟩, []⟩ ∧
      ∃ before after,
        "val mut x".toList =
          before ++ "val mut".toList ++ after ∧
        0 = Text.size before ∧
        Text.beginsWord after = false := by
  have hStep := words_classified.1 ⟨0, State.start⟩
    "val mut x".toList rfl (by decide) (by decide)
  refine ⟨hStep.trans (by decide), ?_⟩
  apply words_classified.2 "val mut x".toList State.start
    ⟨some Label.keyword, "val mut".toList, 0, State.start,
      Effect.none⟩ _ rfl
  rw [scan, scanFrom_of_stepOn hStep]
  exact List.mem_append_left _ (by decide)

end Qhantoom

end Highlighter

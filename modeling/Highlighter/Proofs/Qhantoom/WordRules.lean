import Highlighter.Proofs.Qhantoom.Lookup

/-
  The rules of the start state for words, and what they take
  from the start of a line.

  Key definitions include:
    * `Qhantoom.Definition.Within`
    * `Qhantoom.definingRule`
    * `Qhantoom.labelling`
    * `Qhantoom.wordRules`

  Main statements:
    * `Qhantoom.compiledStart_eq`
    * `Qhantoom.apply_definitionExpr`
    * `Qhantoom.apply_keywordExpr`
    * `Qhantoom.apply_functionExpr`
-/

namespace Highlighter

namespace Qhantoom

open Regex RuleTable

------------------------------------------------------------
-- Texts of definitions
------------------------------------------------------------

/-
  A definition is at the start of a line: no part of it is
  empty, and its blanks do not go on with the keyword.
-/
structure Definition.Within
    (d : Definition)
    (line : Text) : Prop where
  line_eq : ∃ more,
    line = d.keyword ++ (d.blanks ++ (d.name ++ more))
  keyword_ne_nil : d.keyword ≠ []
  blanks_ne_nil : d.blanks ≠ []
  name_ne_nil : d.name ≠ []
  beginsWord_blanks : d.blanks.beginsWord = false

/- What precedes a name are blanks. -/
theorem nameAfter?_eq_some
    {t blanks name : Text}
    (h : nameAfter? t = some (blanks, name)) :
    (∃ more, t = blanks ++ (name ++ more)) ∧
      blanks ≠ [] ∧ name ≠ [] ∧
      blanks.beginsWord = false := by
  rw [nameAfter?] at h
  split at h
  · rename_i hTaken
    cases h
    have hWord := Text.beginsWord_of_beginsName hTaken.2
    refine ⟨⟨t.trimStart.drop t.trimStart.leadingWord.length,
      ?_⟩, hTaken.1, Text.leadingWord_ne_nil hWord,
      Text.beginsWord_leadingBlanks t⟩
    rw [Text.leadingWord_append_drop,
      Text.leadingBlanks_append_trimStart]
  · cases h

theorem plainDefinition?_within
    {w after : Text}
    (hw : w ≠ [])
    {d : Definition}
    (h : plainDefinition? w after = some d) :
    d.Within (w ++ after) := by
  rw [plainDefinition?, Option.map_eq_some_iff] at h
  rcases h with ⟨⟨blanks, name⟩, hAfter, rfl⟩
  rcases nameAfter?_eq_some hAfter with
    ⟨⟨more, hMore⟩, hBlanks, hName, hEnd⟩
  refine ⟨⟨more, ?_⟩, hw, hBlanks, hName, hEnd⟩
  rw [hMore]

theorem mutableDefinition?_within
    {w after : Text}
    (hw : w ≠ [])
    {d : Definition}
    (h : mutableDefinition? w after = some d) :
    d.Within (w ++ after) := by
  rw [mutableDefinition?, Option.bind_eq_some_iff] at h
  rcases h with ⟨⟨blanks, name⟩, hAfter, hPlain⟩
  rcases nameAfter?_eq_some hAfter with ⟨⟨more, rfl⟩, -⟩
  have hDrop :
      (blanks ++ (name ++ more)).drop
        (blanks.length + name.length) = more := by
    simp [← List.append_assoc]
  simp only [hDrop] at hPlain
  split at hPlain
  · have hWithin :=
      plainDefinition?_within (by simp [hw]) hPlain
    simpa only [List.append_assoc] using hWithin
  · cases hPlain

/- So is every definition that a word begins. -/
theorem definition?_within
    {w after : Text}
    {d : Definition}
    (h : definition? w after = some d) :
    d.Within (w ++ after) := by
  have hNe : ∀ s ∈ texts definingWords, s ≠ [] := by decide
  rw [definition?, Option.or_eq_some_iff] at h
  rcases h with hMutable | ⟨-, hPlain⟩
  · split at hMutable
    · rename_i hw
      apply mutableDefinition?_within _ hMutable
      rw [hw]
      decide
    · cases hMutable
  · split at hPlain
    · rename_i hw
      exact plainDefinition?_within (hNe w hw) hPlain
    · cases hPlain

/- The number of characters of a definition. -/
def Definition.length (d : Definition) : Nat :=
  d.keyword.length + d.blanks.length + d.name.length

theorem stop_first (d : Definition) (line : Text) :
    (d.stop (Place.first line)).pos = d.length ∧
      (d.stop (Place.first line)).groups =
        [⟨3, d.keyword.length + d.blanks.length, d.length⟩,
          ⟨2, d.keyword.length,
            d.keyword.length + d.blanks.length⟩,
          ⟨1, 0, d.keyword.length⟩] := by
  simp [Definition.stop, Definition.length, afterName,
    Place.close, Place.beyond, Place.first]

/- The part of a text after some and before other text. -/
theorem slice_between (s t u : Text) :
    Text.slice (s ++ (t ++ u)) s.length
      (s.length + t.length) = t := by
  simp [Text.slice]

/- The groups of a definition are its pieces. -/
theorem cut_definition
    {d : Definition}
    {line : Text}
    (h : d.Within line) :
    Hit.cut line ⟨0, d.stop (Place.first line)⟩ 0
        [(1, some Label.keyword), (2, none),
          (3, some Label.definition)] =
      d.pieces := by
  rcases stop_first d line with ⟨hPos, hGroups⟩
  rcases h.line_eq with ⟨more, hLine⟩
  have hKeyword : 0 < d.keyword.length :=
    List.length_pos_iff.mpr h.keyword_ne_nil
  have hBlanks := List.length_pos_iff.mpr h.blanks_ne_nil
  have hName := List.length_pos_iff.mpr h.name_ne_nil
  have hOrder :
      d.keyword.length + d.blanks.length < d.length := by
    rw [Definition.length]
    omega
  have hFirst : line.slice 0 d.keyword.length = d.keyword := by
    rw [hLine, Text.slice_zero, List.take_left]
  have hSecond :
      line.slice d.keyword.length
        (d.keyword.length + d.blanks.length) = d.blanks := by
    rw [hLine, slice_between]
  have hThird :
      line.slice (d.keyword.length + d.blanks.length)
        d.length = d.name := by
    rw [hLine, ← List.append_assoc, ← List.length_append,
      Definition.length, ← List.length_append, slice_between]
  simp [Hit.cut, Match.group?, Match.stop, Hit.gap, hPos,
    hGroups, hKeyword, hBlanks, hOrder, hFirst, hSecond,
    hThird, Definition.pieces]

------------------------------------------------------------
-- Rules
------------------------------------------------------------

/- A rule that labels all that an expression matches. -/
def labelling (a : Regex) (label : Label) : Rule Pattern where
  pattern := Pattern.regex (anchored a)
  labelling := Labelling.whole (some label)

/- A rule that labels a keyword and the name after it. -/
def definingRule (a : Regex) : Rule Pattern where
  pattern := Pattern.regex (anchored a)
  labelling :=
    Labelling.captures
      [(1, some Label.keyword), (2, none),
       (3, some Label.definition)]

/- The rules for words but for the one for definitions. -/
def wordRules : List (Rule Pattern) :=
  [labelling keywordExpr Label.keyword,
    labelling (listedExpr atoms) Label.atom,
    labelling (listedExpr builtins) Label.builtin,
    definingRule functionExpr] ++
  (compiledStart.drop 11).take 4 ++
  [labelling callExpr Label.identifier3,
    labelling nameExpr Label.identifier]

theorem compiledStart_eq :
    compiledStart =
      compiledStart.take 6 ++ definingRule definitionExpr ::
        (wordRules ++ compiledStart.drop 17) := by
  rfl

/- No name begins a number, a comment or an operator. -/
theorem other_rules_read_no_name
    {c : Char}
    (hc : (Text.isAsciiLetter c || c == '_') = true) :
    ∀ r ∈ (compiledStart.drop 5).take 1 ++
        (compiledStart.drop 11).take 4,
      r.pattern.readsFirst c = false := by
  have hAll :
      ((compiledStart.drop 5).take 1 ++
          (compiledStart.drop 11).take 4).all (fun r =>
        ((List.range 128).map Char.ofNat).all fun c =>
          !(Text.isAsciiLetter c || c == '_') ||
            !r.pattern.readsFirst c) = true := by
    decide +kernel
  have hMem : c ∈ (List.range 128).map Char.ofNat := by
    refine List.mem_map.mpr ⟨c.toNat, ?_, Char.ofNat_toNat c⟩
    rw [List.mem_range]
    exact Text.toNat_lt_of_nameStart hc
  intro r hr
  have hRule := List.all_eq_true.mp hAll r hr
  simpa [hc] using List.all_eq_true.mp hRule c hMem

/- So they do not fire on one. -/
theorem other_rules
    {line : Text}
    (hName : line.beginsName = true) :
    ∀ r ∈ (compiledStart.drop 5).take 1 ++
        (compiledStart.drop 11).take 4,
      r.apply line = none := by
  intro r hr
  cases line with
  | nil => cases hName
  | cons c line =>
      exact Rule.apply_eq_none
        (other_rules_read_no_name hName r hr) line

/- The rules for quotes are those of their expressions. -/
theorem quote_rules :
    ∀ r ∈ compiledStart.take 5, ∃ a ∈ startExprs.take 5,
      r.pattern = Pattern.regex (anchored a) ∧
        a.simple = true := by
  decide +kernel

------------------------------------------------------------
-- Hits
------------------------------------------------------------

/- A rule for definitions takes one if there is one. -/
theorem apply_definingRule
    {a : Regex}
    (hSimple : a.simple = true)
    {line : Text}
    {o : Option Definition}
    (hHead :
      (a.paths (Place.first line)).head? =
        o.map (Definition.stop (Place.first line)))
    (hWithin : ∀ d, o = some d → d.Within line) :
    (definingRule a).apply line =
      o.map fun d =>
        ⟨(Piece.join d.pieces).length, d.pieces⟩ := by
  rw [Rule.apply_captures (r := definingRule a) rfl rfl
    hSimple, hHead]
  cases o with
  | none => rfl
  | some d =>
      have hIn := hWithin d rfl
      have hPos := (stop_first d line).1
      have hName := List.length_pos_iff.mpr hIn.name_ne_nil
      have hLength :
          (Piece.join d.pieces).length = d.length := by
        simp [Definition.pieces, Definition.length,
          Nat.add_assoc]
      rw [Option.map_some, Option.bind_some, hPos,
        cut_definition hIn,
        if_neg (by rw [Definition.length]; omega),
        Option.map_some, hLength]

theorem definitionExpr_within
    {line : Text}
    {d : Definition}
    (h :
      definition? line.leadingWord
        (line.drop line.leadingWord.length) = some d) :
    d.Within line := by
  have hWithin := definition?_within h
  rwa [Text.leadingWord_append_drop] at hWithin

/- The definition that the whole word at a line begins. -/
theorem apply_definitionExpr (line : Text) :
    (definingRule definitionExpr).apply line =
      (definition? line.leadingWord
        (line.drop line.leadingWord.length)).map fun d =>
          ⟨(Piece.join d.pieces).length, d.pieces⟩ := by
  apply apply_definingRule (by decide)
    (head?_definitionExpr (Place.first line))
  exact fun d hd => definitionExpr_within hd

/- The definition of a function at the start of a line. -/
def functionDefinition? (line : Text) : Option Definition :=
  if "fun".toList = line.leadingWord then
    plainDefinition? "fun".toList
      (line.drop "fun".toList.length)
  else none

theorem functionDefinition?_within
    {line : Text}
    {d : Definition}
    (h : functionDefinition? line = some d) :
    d.Within line := by
  rw [functionDefinition?] at h
  split at h
  · rename_i hWhole
    have hWithin :=
      plainDefinition?_within (by decide) h
    rwa [hWhole, Text.leadingWord_append_drop] at hWithin
  · cases h

theorem apply_functionExpr (line : Text) :
    (definingRule functionExpr).apply line =
      (functionDefinition? line).map fun d =>
        ⟨(Piece.join d.pieces).length, d.pieces⟩ := by
  apply apply_definingRule (by decide)
    (head?_functionExpr line)
  exact fun d hd => functionDefinition?_within hd

/- A rule for words takes its word or does not fire. -/
theorem apply_labelling
    {a : Regex}
    (hSimple : a.simple = true)
    (label : Label)
    {line s : Text}
    {c : Prop}
    [Decidable c]
    (hTaken : c → s ≠ [] ∧ s <+: line)
    (hHead :
      (a.paths (Place.first line)).head? =
        if c then some ((Place.first line).beyond s)
        else none) :
    (labelling a label).apply line =
      if c then some ⟨s.length, [⟨some label, s⟩]⟩
      else none := by
  by_cases hc : c
  · rw [if_pos hc] at hHead ⊢
    rcases hTaken hc with ⟨hs, u, rfl⟩
    exact Rule.apply_of_head?_paths (r := labelling a label)
      rfl rfl hSimple hs hHead
  · rw [if_neg hc] at hHead ⊢
    exact Rule.apply_of_paths_nil (r := labelling a label)
      rfl hSimple (List.head?_eq_none_iff.mp hHead)

/- A reserved word that is a whole word. -/
theorem apply_keywordExpr (line : Text) :
    (labelling keywordExpr Label.keyword).apply line =
      if line.leadingWord ∈ texts keywords then
        some ⟨line.leadingWord.length,
          [⟨some Label.keyword, line.leadingWord⟩]⟩
      else none := by
  have hWords : areWords keywords = true := by decide
  exact apply_labelling (by decide) _
    (fun hMem => ⟨areWords_ne_nil hWords hMem,
      Text.leadingWord_prefix line⟩)
    (head?_keywordExpr (Place.first line))

section

variable {line : Text}

/- A word of a list that is the whole word. -/
theorem apply_listedExpr
    {words : List String}
    (hWords : areWords words = true)
    (hSimple : (listedExpr words).simple = true)
    (label : Label)
    (hWord : line.beginsWord = true) :
    (labelling (listedExpr words) label).apply line =
      if line.leadingWord ∈ texts words then
        some ⟨line.leadingWord.length,
          [⟨some label, line.leadingWord⟩]⟩
      else none :=
  apply_labelling hSimple label
    (fun _ => ⟨Text.leadingWord_ne_nil hWord,
      Text.leadingWord_prefix line⟩)
    (head?_listedExpr hWords hWord)

/- The whole word and the mark after it. -/
theorem apply_callExpr
    (label : Label)
    (hName : line.beginsName = true) :
    (labelling callExpr label).apply line =
      if (line.drop line.leadingWord.length).head? =
          some '!' then
        some ⟨(line.leadingWord ++ ['!']).length,
          [⟨some label, line.leadingWord ++ ['!']⟩]⟩
      else none := by
  refine apply_labelling (by decide) label (fun hHead => ?_)
    (head?_callExpr hName)
  refine ⟨by simp, ?_⟩
  have hLine := Text.leadingWord_append_drop line
  rcases List.head?_eq_some_iff.mp hHead with
    ⟨rest, hRest⟩
  have hDrop : line.drop line.leadingWord.length =
      '!' :: rest := hRest
  rw [hDrop] at hLine
  exact ⟨rest, by simpa using hLine⟩

/- The whole word as a name. -/
theorem apply_nameExpr
    (label : Label)
    (hName : line.beginsName = true) :
    (labelling nameExpr label).apply line =
      some ⟨line.leadingWord.length,
        [⟨some label, line.leadingWord⟩]⟩ := by
  have hWord := Text.beginsWord_of_beginsName hName
  have hApply := apply_labelling (a := nameExpr) (by decide)
    label
    (fun _ => ⟨Text.leadingWord_ne_nil hWord,
      Text.leadingWord_prefix line⟩)
    (head?_nameExpr (Place.first line))
  rw [hApply]
  exact if_pos hName

end

end Qhantoom

end Highlighter

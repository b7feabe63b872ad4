import Highlighter.Proofs.Qhantoom.Blanks
import Highlighter.Proofs.Regex.Spelling
import Highlighter.Proofs.Text.Words

/-
  The classes of words, and where the expressions for words
  lead to: an expression that reads no word character after
  a word matches the whole word or nothing of it.

  Key definitions include:
    * `Qhantoom.nameAfter?`
    * `Qhantoom.Definition`
    * `Qhantoom.definition?`
    * `Qhantoom.wordPiece`
    * `Qhantoom.wordPieces`

  Main statements:
    * `Qhantoom.findSome?_anyWord`: of some words only the
      whole word ahead leads on.
    * `Qhantoom.head?_definitionExpr`
-/

namespace Highlighter

namespace Text

------------------------------------------------------------
-- Blanks before words
------------------------------------------------------------

/- No blank is a character of a word. -/
theorem isAsciiWordChar_of_isBlank
    {c : Char}
    (h : isBlank c = true) : isAsciiWordChar c = false := by
  have hAll :
      blankChars.all (fun c => !isAsciiWordChar c) = true := by
    decide
  simpa using List.all_eq_true.mp hAll c (mem_blankChars h)

theorem leadingBlanks_of_beginsWord
    {t : Text}
    (h : t.beginsWord = true) : t.leadingBlanks = [] := by
  cases t with
  | nil => rfl
  | cons c t =>
      cases hc : isBlank c with
      | false => simp [leadingBlanks, hc]
      | true =>
          rw [beginsWord, List.head?_cons, Option.any_some,
            isAsciiWordChar_of_isBlank hc] at h
          cases h

theorem beginsWord_leadingBlanks (t : Text) :
    t.leadingBlanks.beginsWord = false := by
  cases t with
  | nil => rfl
  | cons c t =>
      cases hc : isBlank c with
      | false => simp [leadingBlanks, beginsWord, hc]
      | true =>
          simp [leadingBlanks, beginsWord, hc,
            isAsciiWordChar_of_isBlank hc]

end Text

namespace Qhantoom

open Regex RuleTable

/- Words as texts. -/
def texts (words : List String) : List Text :=
  words.map String.toList

------------------------------------------------------------
-- Names and definitions
------------------------------------------------------------

/- The blanks that a text begins with and the name after. -/
def nameAfter? (t : Text) : Option (Text × Text) :=
  let rest := t.trimStart
  if t.leadingBlanks ≠ [] ∧ rest.beginsName = true then
    some (t.leadingBlanks, rest.leadingWord)
  else
    none

/- A keyword, blanks, and the name that they define. -/
structure Definition where
  keyword : Text
  blanks : Text
  name : Text
deriving DecidableEq, Repr

/- The words that define the name after them. -/
def definingWords : List String :=
  ["val", "imu", "mut", "fun", "enum", "mod", "exp", "ext",
    "struct", "type", "union"]

/- A definition by a word and the name after it. -/
def plainDefinition? (w after : Text) : Option Definition :=
  (nameAfter? after).map fun (blanks, name) =>
    ⟨w, blanks, name⟩

/- A definition by `val` and `mut`, the one after the other. -/
def mutableDefinition? (w after : Text) :
    Option Definition :=
  (nameAfter? after).bind fun (blanks, name) =>
    if name = "mut".toList then
      plainDefinition? (w ++ blanks ++ name)
        (after.drop (blanks.length + name.length))
    else
      none

/-
  The definition that a word begins, given the text after
  it.
-/
def definition? (w after : Text) : Option Definition :=
  let mutable :=
    if w = "val".toList then mutableDefinition? w after
    else none
  let plain :=
    if w ∈ texts definingWords then plainDefinition? w after
    else none
  mutable.or plain

------------------------------------------------------------
-- Classes of words
------------------------------------------------------------

/- The pieces of a definition. -/
def Definition.pieces (d : Definition) : List Piece :=
  [⟨some Label.keyword, d.keyword⟩, ⟨none, d.blanks⟩,
    ⟨some Label.definition, d.name⟩]

/- A word that defines nothing, given the text after it. -/
def wordPiece (w after : Text) : Piece :=
  if w ∈ texts keywords then
    ⟨some Label.keyword, w⟩
  else if w ∈ texts atoms then
    ⟨some Label.atom, w⟩
  else if w ∈ texts builtins then
    ⟨some Label.builtin, w⟩
  else if after.head? = some '!' then
    ⟨some Label.identifier3, w ++ ['!']⟩
  else
    ⟨some Label.identifier, w⟩

/- The pieces that a word makes with the text after it. -/
def wordPieces (w after : Text) : List Piece :=
  match definition? w after with
  | some d => d.pieces
  | none => [wordPiece w after]

------------------------------------------------------------
-- Characters
------------------------------------------------------------

theorem contains_nameChar (c : Char) :
    nameChar.contains c = Text.isAsciiWordChar c := by
  simp [nameChar, CharSet.unions, CharSet.asciiDigit,
    CharSet.contains, CharSet.contains_single,
    Text.isAsciiWordChar, Text.isAsciiLetter,
    Text.isAsciiDigit, Bool.or_assoc, Bool.beq_comm (a := c)]

theorem contains_nameStart (c : Char) :
    nameStart.contains c =
      (Text.isAsciiLetter c || c == '_') := by
  simp [nameStart, CharSet.unions, CharSet.contains,
    CharSet.contains_single, Text.isAsciiLetter,
    Bool.or_assoc, Bool.beq_comm (a := c)]

theorem sees_nameStart (p : Place) :
    p.sees nameStart = p.rest.beginsName := by
  simp only [Place.sees, contains_nameStart, Text.beginsName]

theorem sees_nameChar (p : Place) :
    p.sees nameChar = p.rest.beginsWord := by
  simp only [Place.sees, contains_nameChar]
  rfl

theorem sees_nameChar_of_nameStart
    {p : Place}
    (h : p.sees nameStart = true) :
    p.sees nameChar = true := by
  rw [sees_nameStart] at h
  rw [sees_nameChar]
  exact Text.beginsWord_of_beginsName h

theorem past_nameChar (p : Place) :
    p.past nameChar = p.beyond p.rest.leadingWord := by
  simp only [Place.past, contains_nameChar]
  rfl

------------------------------------------------------------
-- Whole words
------------------------------------------------------------

/- After a word the character before belongs to a word. -/
theorem any_before_beyond
    {s : Text}
    (hs : s ≠ [] ∧ s.isAsciiWord = true)
    (p : Place) :
    (p.beyond s).before.any Text.isAsciiWordChar = true := by
  have hLast :=
    List.all_eq_true.mp hs.2 _ (List.getLast_mem hs.1)
  simp [Place.beyond, hLast,
    List.getLast?_eq_some_getLast hs.1]

section

variable {α : Type}
variable {K : Place → Option α}

/-
  Nothing leads on from within a word: after a character of
  a word, where another one follows.
-/
def StopsInWords (K : Place → Option α) : Prop :=
  ∀ p : Place, p.before.any Text.isAsciiWordChar = true →
    p.rest.beginsWord = true → K p = none

/- Then a word leads on if it is the whole word ahead. -/
theorem findSome?_literal
    (hK : StopsInWords K)
    {s : Text}
    (hs : s ≠ [] ∧ s.isAsciiWord = true)
    (p : Place) :
    ((concat (s.map char)).paths p).findSome? K =
      if s = p.rest.leadingWord then K (p.beyond s)
      else none := by
  rw [paths_literal]
  split
  · rename_i hPrefix
    rcases List.isPrefixOf_iff_prefix.mp hPrefix with ⟨u, hu⟩
    have hRest : (p.beyond s).rest = u :=
      Place.rest_beyond hu.symm
    rw [List.findSome?_singleton, ← hu]
    cases hNext : Text.beginsWord u with
    | false =>
        rw [Text.leadingWord_append hs.2 hNext, if_pos rfl]
    | true =>
        have hWithin : (p.beyond s).rest.beginsWord = true := by
          rw [hRest]
          exact hNext
        rw [hK _ (any_before_beyond hs p) hWithin]
        simp
  · rename_i hNot
    have hNe : s ≠ p.rest.leadingWord := by
      rintro rfl
      apply hNot
      rw [List.isPrefixOf_iff_prefix]
      exact Text.leadingWord_prefix p.rest
    rw [if_neg hNe]
    rfl

/- Are words such that each of them is a whole word? -/
def areWords (words : List String) : Bool :=
  !words.isEmpty && (texts words).all fun s =>
    !s.isEmpty && s.isAsciiWord

theorem areWords_ne_nil
    {words : List String}
    (hWords : areWords words = true)
    {s : Text}
    (hs : s ∈ texts words) : s ≠ [] := by
  rw [areWords, Bool.and_eq_true, List.all_eq_true] at hWords
  have hAll := hWords.2 s hs
  rw [Bool.and_eq_true, Bool.not_eq_true',
    List.isEmpty_eq_false_iff] at hAll
  exact hAll.1

/- Of some words only the whole word leads on. -/
theorem findSome?_anyWord
    (hK : StopsInWords K)
    {words : List String}
    (hWords : areWords words = true)
    (p : Place) :
    ((anyWord words).paths p).findSome? K =
      if p.rest.leadingWord ∈ texts words then
        K (p.beyond p.rest.leadingWord)
      else none := by
  simp only [areWords, texts, Bool.and_eq_true,
    Bool.not_eq_true', List.isEmpty_eq_false_iff,
    List.all_eq_true, List.forall_mem_map] at hWords
  rcases hWords with ⟨hNe, hAll⟩
  rw [anyWord, paths_choice (by simpa using hNe),
    findSome?_flatMap]
  clear hNe
  induction words with
  | nil => rfl
  | cons first words ih =>
      rw [List.forall_mem_cons] at hAll
      rw [List.map_cons, List.findSome?_cons, word,
        findSome?_literal hK hAll.1, ih hAll.2]
      by_cases hEq : first.toList = p.rest.leadingWord
      · have hMem :
            p.rest.leadingWord ∈ texts (first :: words) :=
          List.mem_map.mpr
            ⟨first, List.mem_cons_self .., hEq⟩
        rw [if_pos hEq, if_pos hMem, hEq]
        cases K (p.beyond p.rest.leadingWord) with
        | none => simp
        | some x => rfl
      · have hIff :
            p.rest.leadingWord ∈ texts (first :: words) ↔
              p.rest.leadingWord ∈ texts words := by
          simp [texts, Ne.symm hEq]
        rw [if_neg hEq]
        simp only [hIff]

end

------------------------------------------------------------
-- Names
------------------------------------------------------------

theorem paths_many_set (chars : CharSet) :
    (many (set chars)).paths =
      star (set chars).paths true := by
  funext p
  exact List.flatMap_singleton ..

theorem paths_some1_set (chars : CharSet) (p : Place) :
    (some1 (set chars)).paths p =
      ((set chars).paths p).flatMap
        (star (set chars).paths true) := by
  show (copies (set chars).paths 1 p).flatMap _ = _
  rw [← copies_flatMap]
  exact List.flatMap_singleton ..

/-
  At least one character of a set, and then something that
  no such character begins: all of them are read.
-/
theorem paths_some1_flatMap
    {chars : CharSet}
    {f : Place → List Place}
    (hDead : ∀ q, q.sees chars = true → f q = [])
    (p : Place) :
    ((some1 (set chars)).paths p).flatMap f =
      if p.sees chars then f (p.past chars) else [] := by
  rw [paths_some1_set, paths_set]
  split
  · rename_i hSees
    rw [List.flatMap_singleton, star_flatMap hDead,
      Place.past_next hSees]
  · rfl

/- A name is read to its end first. -/
theorem head?_nameExpr (p : Place) :
    (nameExpr.paths p).head? =
      if p.rest.beginsName then
        some (p.beyond p.rest.leadingWord)
      else none := by
  rw [nameExpr, paths, List.head?_flatMap, paths_many_set,
    paths_set, ← sees_nameStart, ← past_nameChar]
  simp only [head?_star]
  split
  · rename_i hSees
    rw [List.findSome?_singleton,
      Place.past_next (sees_nameChar_of_nameStart hSees)]
  · rfl

/- A place after a keyword, blanks and a name. -/
def afterName (p : Place) (blanks name : Text) : Place :=
  let q := (p.beyond blanks).close (some 2) p.pos
  (q.beyond name).close (some 3) q.pos

theorem past_blank (p : Place) :
    p.past CharSet.blank = p.beyond p.rest.leadingBlanks := rfl

theorem sees_blank (p : Place) :
    p.sees CharSet.blank = true ↔
      p.rest.leadingBlanks ≠ [] := by
  unfold Place.sees Text.leadingBlanks
  cases p.rest with
  | nil => simp
  | cons c rest =>
      cases hc : Text.isBlank c <;>
        simp [CharSet.contains, hc]

/- No name begins with a blank. -/
theorem nameExpr_of_sees_blank
    {p : Place}
    (h : p.sees CharSet.blank = true) :
    nameExpr.paths p = [] := by
  have hNot : p.rest.beginsName = false := by
    cases hName : p.rest.beginsName with
    | false => rfl
    | true =>
        have hWord := Text.beginsWord_of_beginsName hName
        exact absurd (Text.leadingBlanks_of_beginsWord hWord)
          ((sees_blank p).mp h)
  rw [← List.head?_eq_none_iff, head?_nameExpr, hNot]
  rfl

/- Blanks and a name are read to the end of the name. -/
theorem head?_definedName (p : Place) :
    ((concat definedName).paths p).head? =
      (nameAfter? p.rest).map fun (blanks, name) =>
        afterName p blanks name := by
  let f := fun q : Place =>
    (group (some 3) nameExpr).paths (q.close (some 2) p.pos)
  have hDead : ∀ q, q.sees CharSet.blank = true → f q = [] := by
    intro q hq
    have hNone := nameExpr_of_sees_blank
      (p := q.close (some 2) p.pos) hq
    simp only [f, paths, hNone, List.map_nil]
  have hPaths :
      (concat definedName).paths p =
        ((some1 (set CharSet.blank)).paths p).flatMap f :=
    List.flatMap_map ..
  have hRest : (p.beyond p.rest.leadingBlanks).rest =
      p.rest.trimStart :=
    Place.rest_beyond
      (Text.leadingBlanks_append_trimStart p.rest).symm
  rw [hPaths, paths_some1_flatMap hDead, past_blank]
  by_cases hNil : p.rest.leadingBlanks = []
  · rw [if_neg fun hSees => (sees_blank p).mp hSees hNil]
    simp [nameAfter?, hNil]
  · rw [if_pos ((sees_blank p).mpr hNil)]
    simp only [f, paths, List.head?_map, head?_nameExpr,
      Place.rest_close, hRest, nameAfter?, hNil, ne_eq,
      not_false_eq_true, true_and]
    split
    · rfl
    · rfl

------------------------------------------------------------
-- Definitions
------------------------------------------------------------

theorem paths_optional
    {a : Regex}
    (h : a.readsNothing = false)
    (p : Place) : (optional a).paths p = a.paths p ++ [p] := by
  have hTimes : optional a = times 0 (some 1) true a := by
    simp [optional, repeated, h]
  simp [hTimes, paths, copies, atMost]

theorem paths_group_none (a : Regex) :
    (group none a).paths = a.paths := by
  funext p
  exact List.map_id' _

/- No blanks follow within a word. -/
theorem nameAfter?_of_beginsWord
    {t : Text}
    (h : t.beginsWord = true) : nameAfter? t = none := by
  simp [nameAfter?, Text.leadingBlanks_of_beginsWord h]

/- The place after a definition that begins at a place. -/
def Definition.stop (p : Place) (d : Definition) : Place :=
  afterName ((p.beyond d.keyword).close (some 1) p.pos)
    d.blanks d.name

/- Where blanks and a name lead to after a keyword. -/
def nameFrom (start : Nat) (q : Place) : Option Place :=
  ((concat definedName).paths (q.close (some 1) start)).head?

theorem nameFrom_beyond (p : Place) (w : Text) :
    nameFrom p.pos (p.beyond w) =
      (plainDefinition? w (p.beyond w).rest).map
        (Definition.stop p) := by
  rw [nameFrom, head?_definedName, Place.rest_close,
    plainDefinition?, Option.map_map]
  rfl

theorem nameFrom_stopsInWords (start : Nat) :
    StopsInWords (nameFrom start) := by
  intro q hBefore hRest
  rw [nameFrom, head?_definedName, Place.rest_close,
    nameAfter?_of_beginsWord hRest]
  rfl

/- Blanks and the word `mut`. -/
def mutExpr : Regex :=
  bracketed (some1 (set CharSet.blank) :: "mut".toList.map char)

/- It does not begin with anything but a blank. -/
theorem mut_of_sees_blank
    {p : Place}
    (h : p.sees CharSet.blank = true) :
    (concat ("mut".toList.map char)).paths p = [] := by
  rw [paths_literal]
  cases hRest : p.rest with
  | nil => rfl
  | cons c rest =>
      have hNe : 'm' ≠ c := by
        rintro rfl
        rw [Place.sees_cons hRest] at h
        exact absurd h (by decide)
      simp [hNe]

theorem paths_mutExpr (p : Place) :
    mutExpr.paths p =
      if p.sees CharSet.blank then
        (concat ("mut".toList.map char)).paths
          (p.beyond p.rest.leadingBlanks)
      else [] := by
  rw [mutExpr, bracketed, paths_group_none, paths_concat_cons,
    paths_some1_flatMap fun q hq => mut_of_sees_blank hq,
    past_blank]

/- After `val` they lead on if a name follows. -/
theorem findSome?_mutExpr (p : Place) (w : Text) :
    (mutExpr.paths (p.beyond w)).findSome? (nameFrom p.pos) =
      (mutableDefinition? w (p.beyond w).rest).map
        (Definition.stop p) := by
  generalize hq : p.beyond w = q
  have hRest : (q.beyond q.rest.leadingBlanks).rest =
      q.rest.trimStart :=
    Place.rest_beyond
      (Text.leadingBlanks_append_trimStart q.rest).symm
  have hMut : "mut".toList ≠ [] ∧
      Text.isAsciiWord "mut".toList = true := by
    decide
  rw [paths_mutExpr]
  by_cases hNil : q.rest.leadingBlanks = []
  · rw [if_neg fun hSees => (sees_blank q).mp hSees hNil]
    simp [mutableDefinition?, nameAfter?, hNil]
  · rw [if_pos ((sees_blank q).mpr hNil),
      findSome?_literal (nameFrom_stopsInWords p.pos) hMut,
      hRest]
    by_cases hName :
        "mut".toList = q.rest.trimStart.leadingWord
    · have hBegins : q.rest.trimStart.beginsName = true := by
        rw [← Text.beginsName_leadingWord, ← hName]
        decide
      have hAfter :
          nameAfter? q.rest =
            some (q.rest.leadingBlanks, "mut".toList) := by
        rw [nameAfter?, if_pos ⟨hNil, hBegins⟩, hName]
      have hFurther :
          (p.beyond (w ++ q.rest.leadingBlanks ++
              "mut".toList)).rest =
            q.rest.drop (q.rest.leadingBlanks.length +
              "mut".toList.length) := by
        simp only [← hq, Place.beyond, List.drop_drop,
          List.length_append, Nat.add_assoc]
      rw [if_pos hName, mutableDefinition?, hAfter,
        Option.bind_some]
      simp only [if_true]
      rw [← hFurther, ← nameFrom_beyond,
        ← Place.beyond_append, ← Place.beyond_append, hq]
    · have hNone : mutableDefinition? w q.rest = none := by
        rw [mutableDefinition?, Option.bind_eq_none_iff]
        rintro ⟨blanks, name⟩ hAfter
        rw [nameAfter?] at hAfter
        split at hAfter
        · cases hAfter
          exact if_neg (Ne.symm hName)
        · cases hAfter
      rw [if_neg hName, hNone]
      rfl

/- The keyword `val` with `mut` after it or without. -/
def valExpr : Regex :=
  concat ("val".toList.map char ++ [optional mutExpr])

/- A definition is one by `val` or by another word. -/
theorem head?_definitionExpr_or (p : Place) :
    (definitionExpr.paths p).head? =
      ((valExpr.paths p).findSome? (nameFrom p.pos)).or
        (((anyWord definingWords.tail).paths p).findSome?
          (nameFrom p.pos)) := by
  have hExpr :
      definitionExpr =
        concat
          (group (some 1)
            (choice (valExpr :: definingWords.tail.map word)) ::
              definedName) := rfl
  have hTail : definingWords.tail.map word ≠ [] := by
    simp [definingWords]
  rw [hExpr, paths_concat_cons, List.head?_flatMap, paths,
    List.findSome?_map]
  show ((choice (valExpr :: _)).paths p).findSome?
    (nameFrom p.pos) = _
  rw [paths_choice (List.cons_ne_nil _ _), findSome?_flatMap,
    List.findSome?_cons, anyWord, paths_choice hTail,
    findSome?_flatMap]
  cases (valExpr.paths p).findSome? (nameFrom p.pos) with
  | none => rfl
  | some q => rfl

/- What `val` begins is tried with `mut` first. -/
theorem findSome?_valExpr (p : Place) :
    (valExpr.paths p).findSome? (nameFrom p.pos) =
      if "val".toList = p.rest.leadingWord then
        ((mutExpr.paths (p.beyond "val".toList)).findSome?
          (nameFrom p.pos)).or
            (nameFrom p.pos (p.beyond "val".toList))
      else none := by
  have hVal : "val".toList ≠ [] ∧
      Text.isAsciiWord "val".toList = true := by
    decide
  have hPaths : ∀ q, (concat [optional mutExpr]).paths q =
      mutExpr.paths q ++ [q] :=
    paths_optional rfl
  have hStops : StopsInWords fun q =>
      ((concat [optional mutExpr]).paths q).findSome?
        (nameFrom p.pos) := by
    intro q hBefore hRest
    have hNil := Text.leadingBlanks_of_beginsWord hRest
    have hNot : ¬ q.sees CharSet.blank = true :=
      fun hSees => (sees_blank q).mp hSees hNil
    simp only [hPaths, paths_mutExpr, if_neg hNot,
      List.nil_append, List.findSome?_singleton]
    exact nameFrom_stopsInWords p.pos q hBefore hRest
  rw [valExpr, paths_concat_append, findSome?_flatMap,
    findSome?_literal hStops hVal, hPaths,
    List.findSome?_append, List.findSome?_singleton]

/-
  The first path of a definition leads to the end of the
  definition that the whole word begins.
-/
theorem head?_definitionExpr (p : Place) :
    (definitionExpr.paths p).head? =
      (definition? p.rest.leadingWord
        (p.rest.drop p.rest.leadingWord.length)).map
          (Definition.stop p) := by
  have hTail : areWords definingWords.tail = true := by decide
  have hAfter :
      p.rest.drop p.rest.leadingWord.length =
        (p.beyond p.rest.leadingWord).rest := rfl
  rw [head?_definitionExpr_or, findSome?_valExpr, hAfter,
    findSome?_anyWord (nameFrom_stopsInWords p.pos) hTail,
    definition?]
  generalize p.rest.leadingWord = w
  by_cases hw : "val".toList = w
  · subst hw
    have hNot : "val".toList ∉ texts definingWords.tail := by
      decide
    have hMem : "val".toList ∈ texts definingWords := by decide
    rw [if_pos rfl, if_neg hNot, if_pos rfl, if_pos hMem,
      findSome?_mutExpr, nameFrom_beyond, Option.or_none,
      Option.map_or]
  · have hIff : w ∈ texts definingWords ↔
        w ∈ texts definingWords.tail := by
      have hCons : texts definingWords =
          "val".toList :: texts definingWords.tail := rfl
      rw [hCons, List.mem_cons]
      exact or_iff_right (Ne.symm hw)
    rw [if_neg hw, if_neg (Ne.symm hw)]
    simp only [hIff, Option.none_or]
    split
    · exact nameFrom_beyond p w
    · rfl

end Qhantoom

end Highlighter

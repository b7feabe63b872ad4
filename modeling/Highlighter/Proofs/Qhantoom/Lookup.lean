import Highlighter.Proofs.Qhantoom.Words

/-
  The expressions of the start state at the beginning of a
  word: which of them go over the whole word, and that the
  quotes before them do not begin with one, but for their
  prefixes.

  Key definitions include:
    * `Qhantoom.keywordExpr`
    * `Qhantoom.listedExpr`
    * `Qhantoom.callExpr`
    * `Qhantoom.quotePrefixes`

  Main statements:
    * `Qhantoom.head?_edged`: of words before an edge only
      the whole word is found.
    * `Qhantoom.quotes_of_word`
-/

namespace Highlighter

namespace Qhantoom

open Regex RuleTable

------------------------------------------------------------
-- Edges
------------------------------------------------------------

/- An edge is there where a word begins or ends. -/
theorem paths_wordEdge (p : Place) :
    wordEdge.paths p =
      if p.before.any Text.isAsciiWordChar =
          p.rest.beginsWord then []
      else [p] := by
  have hPaths : wordEdge.paths p =
      if p.allows (Assertion.asciiWord WordEdge.boundary) then
        [p]
      else [] :=
    List.map_id' _
  rw [hPaths, Place.allows, Assertion.holds, WordEdge.holds,
    Text.beginsWord]
  simp only [bne_iff_ne, ne_eq, ite_not]

/- Before a word there is an edge at the start of the line. -/
theorem wordEdge_first
    {line : Text}
    (h : line.beginsWord = true) :
    wordEdge.paths (Place.first line) =
      [Place.first line] := by
  have hNot : ¬ (none : Option Char).any
      Text.isAsciiWordChar = line.beginsWord := by
    rw [h]
    decide
  rw [paths_wordEdge]
  exact if_neg hNot

/- Of words before an edge only the whole word is found. -/
theorem head?_edged
    {words : List String}
    (hWords : areWords words = true)
    (p : Place) :
    (((anyWord words).paths p).flatMap wordEdge.paths).head? =
      if p.rest.leadingWord ∈ texts words then
        some (p.beyond p.rest.leadingWord)
      else none := by
  have hStops :
      StopsInWords fun q => (wordEdge.paths q).head? := by
    intro q hBefore hRest
    simp only [paths_wordEdge, hBefore, hRest, if_true,
      List.head?_nil]
  rw [List.head?_flatMap, findSome?_anyWord hStops hWords]
  split
  · rename_i hMem
    have hBefore := any_before_beyond
      ⟨areWords_ne_nil hWords hMem,
        Text.isAsciiWord_leadingWord p.rest⟩ p
    have hAfter :
        (p.beyond p.rest.leadingWord).rest.beginsWord = false :=
      Text.beginsWord_drop_leadingWord p.rest
    rw [paths_wordEdge, hBefore, hAfter]
    rfl
  · rfl

------------------------------------------------------------
-- Expressions of words
------------------------------------------------------------

/- The reserved words. -/
def keywordExpr : Regex :=
  cat (group none (anyWord keywords)) wordEdge

/- Words of a list between two edges. -/
def listedExpr (words : List String) : Regex :=
  concat [wordEdge, group none (anyWord words), wordEdge]

/- A word and the exclamation mark after it. -/
def callExpr : Regex :=
  concat [set nameStart, many (set nameChar), char '!']

theorem head?_keywordExpr (p : Place) :
    (keywordExpr.paths p).head? =
      if p.rest.leadingWord ∈ texts keywords then
        some (p.beyond p.rest.leadingWord)
      else none := by
  have hPaths : keywordExpr.paths p =
      ((anyWord keywords).paths p).flatMap wordEdge.paths := by
    rw [keywordExpr, paths, paths_group_none]
  rw [hPaths]
  exact head?_edged (by decide) p

theorem head?_listedExpr
    {words : List String}
    (hWords : areWords words = true)
    {line : Text}
    (hWord : line.beginsWord = true) :
    ((listedExpr words).paths (Place.first line)).head? =
      if line.leadingWord ∈ texts words then
        some ((Place.first line).beyond line.leadingWord)
      else none := by
  have hPaths :
      (listedExpr words).paths (Place.first line) =
        ((anyWord words).paths (Place.first line)).flatMap
          wordEdge.paths := by
    rw [listedExpr, paths_concat_cons, wordEdge_first hWord,
      List.flatMap_singleton, paths_concat_cons,
      paths_group_none]
    rfl
  rw [hPaths]
  exact head?_edged hWords _

/- A function is a definition by its keyword. -/
theorem head?_functionExpr (line : Text) :
    (functionExpr.paths (Place.first line)).head? =
      (if "fun".toList = line.leadingWord then
        plainDefinition? "fun".toList
          (line.drop "fun".toList.length)
      else none).map (Definition.stop (Place.first line)) := by
  have hFun : "fun".toList ≠ [] ∧
      Text.isAsciiWord "fun".toList = true := by
    decide
  have hDefines :
      ((concat (group (some 1) (word "fun") ::
        definedName)).paths (Place.first line)).head? =
        if "fun".toList = line.leadingWord then
          nameFrom 0 ((Place.first line).beyond "fun".toList)
        else none := by
    rw [paths_concat_cons, List.head?_flatMap, paths,
      List.findSome?_map]
    exact findSome?_literal (nameFrom_stopsInWords 0) hFun _
  rw [functionExpr, paths_concat_cons]
  by_cases hWhole : "fun".toList = line.leadingWord
  · have hWord : line.beginsWord = true := by
      rw [← Text.beginsWord_leadingWord, ← hWhole]
      decide
    rw [wordEdge_first hWord, List.flatMap_singleton, hDefines,
      if_pos hWhole, if_pos hWhole]
    exact nameFrom_beyond (Place.first line) "fun".toList
  · rw [if_neg hWhole] at hDefines ⊢
    rw [List.head?_eq_none_iff] at hDefines
    rw [paths_wordEdge]
    split
    · rfl
    · rw [List.flatMap_singleton, hDefines]
      rfl

/- No other character is read where a word goes on. -/
theorem char_of_beginsWord
    {c : Char}
    (hc : Text.isAsciiWordChar c = false)
    {p : Place}
    (h : p.rest.beginsWord = true) :
    (char c).paths p = [] := by
  have hNot : p.sees (CharSet.single c) = false := by
    cases hRest : p.rest with
    | nil => simp [Place.sees, hRest]
    | cons d rest =>
        rw [hRest] at h
        have hd : Text.isAsciiWordChar d = true := h
        rw [Place.sees_cons hRest, CharSet.contains_single,
          beq_eq_false_iff_ne]
        rintro rfl
        rw [hc] at hd
        cases hd
  rw [char, paths_set, hNot]
  rfl

/- A mark right after the word is taken with it. -/
theorem head?_callExpr
    {p : Place}
    (hName : p.rest.beginsName = true) :
    (callExpr.paths p).head? =
      if (p.beyond p.rest.leadingWord).rest.head? =
          some '!' then
        some (p.beyond (p.rest.leadingWord ++ ['!']))
      else none := by
  have hDead : ∀ q : Place, q.sees nameChar = true →
      (char '!').paths q = [] := by
    intro q hq
    rw [sees_nameChar] at hq
    exact char_of_beginsWord (by decide) hq
  have hPaths : callExpr.paths p =
      (char '!').paths (p.beyond p.rest.leadingWord) := by
    have hSees : p.sees nameStart = true := by
      rw [sees_nameStart]
      exact hName
    rw [callExpr, paths_concat_cons, paths_set, if_pos hSees,
      List.flatMap_singleton, paths_concat_cons,
      paths_many_set]
    show (star (set nameChar).paths true _).flatMap
      (char '!').paths = _
    rw [star_flatMap hDead,
      Place.past_next (sees_nameChar_of_nameStart hSees),
      past_nameChar]
  rw [hPaths, ← Place.beyond_append, char, paths_set]
  generalize p.beyond p.rest.leadingWord = q
  cases hRest : q.rest with
  | nil => simp [Place.sees, hRest]
  | cons c rest =>
      rw [Place.sees_cons hRest, CharSet.contains_single,
        Place.next_cons hRest, List.head?_cons]
      by_cases hc : c = '!'
      · subst hc
        rfl
      · simp [hc, Ne.symm hc]

------------------------------------------------------------
-- Quotes
------------------------------------------------------------

/- The prefixes of quotes that are words. -/
def quotePrefixes : List String := ["b", "r", "br"]

/-
  A word and then something that begins with no character of
  a word: the word is the whole one.
-/
theorem literal_then
    {s : Text}
    (hs : s.isAsciiWord = true)
    {a : Regex}
    (hDead : ∀ q : Place, q.rest.beginsWord = true →
      a.paths q = [])
    {p : Place}
    (hWord : p.rest.beginsWord = true)
    (hNe : s ≠ p.rest.leadingWord) :
    (concat (s.map char ++ [a])).paths p = [] := by
  cases hEmpty : s with
  | nil => exact hDead p hWord
  | cons c s' =>
      have hStops : StopsInWords fun q =>
          ((concat [a]).paths q).head? := by
        intro q hBefore hRest
        show (a.paths q).head? = none
        rw [hDead q hRest, List.head?_nil]
      have hNil : s ≠ [] := by
        rw [hEmpty]
        exact List.cons_ne_nil c s'
      rw [← hEmpty, ← List.head?_eq_none_iff,
        paths_concat_append, List.head?_flatMap,
        findSome?_literal hStops ⟨hNil, hs⟩, if_neg hNe]

/- So is it if a `b` may come first. -/
theorem optional_b_then
    {s : Text}
    (hs : s.isAsciiWord = true)
    {a : Regex}
    (hDead : ∀ q : Place, q.rest.beginsWord = true →
      a.paths q = [])
    {p : Place}
    (hWord : p.rest.beginsWord = true)
    (hNe : s ≠ p.rest.leadingWord)
    (hNe' : 'b' :: s ≠ p.rest.leadingWord) :
    (concat (optional (char 'b') :: (s.map char ++ [a]))).paths
      p = [] := by
  have hb : Text.isAsciiWord ('b' :: s) = true := by
    rw [Text.isAsciiWord, List.all_cons, Bool.and_eq_true]
    exact ⟨by decide, hs⟩
  have hLong := literal_then hb hDead hWord hNe'
  rw [List.map_cons, List.cons_append, paths_concat_cons]
    at hLong
  rw [paths_concat_cons, paths_optional rfl,
    List.flatMap_append, hLong, List.flatMap_singleton,
    literal_then hs hDead hWord hNe]
  rfl

theorem cat_char_of_beginsWord
    {c : Char}
    (hc : Text.isAsciiWordChar c = false)
    (a : Regex)
    (p : Place)
    (h : p.rest.beginsWord = true) :
    (cat (char c) a).paths p = [] := by
  rw [paths, char_of_beginsWord hc h]
  rfl

/- No quote begins with a whole word but for its prefix. -/
theorem quotes_of_word
    {p : Place}
    (hWord : p.rest.beginsWord = true)
    (hPlain : p.rest.leadingWord ∉ texts quotePrefixes) :
    ∀ a ∈ startExprs.take 5, a.paths p = [] := by
  have hNe : ∀ s, s ∈ [] :: texts quotePrefixes →
      s ≠ p.rest.leadingWord := by
    rintro s hs rfl
    rcases List.mem_cons.mp hs with hNil | hMem
    · exact Text.leadingWord_ne_nil hWord hNil
    · exact hPlain hMem
  have hQuote : ∀ q : Place, q.rest.beginsWord = true →
      quote.paths q = [] :=
    fun q hq => char_of_beginsWord (by decide) hq
  have hHashes : ∀ q : Place, q.rest.beginsWord = true →
      (cat (some1 (char '#')) quote).paths q = [] := by
    intro q hq
    have hHash : (set (CharSet.single '#')).paths q = [] :=
      char_of_beginsWord (by decide) hq
    rw [paths, char, paths_some1_set, hHash]
    rfl
  simp only [startExprs, List.take_succ_cons, List.take_zero,
    List.forall_mem_cons]
  refine ⟨?_, ?_, ?_, ?_, ?_, by simp⟩
  · exact optional_b_then (s := []) rfl hQuote hWord
      (hNe _ (by decide)) (hNe _ (by decide))
  · exact optional_b_then (s := ['r']) (by decide) hQuote hWord
      (hNe _ (by decide)) (hNe _ (by decide))
  · exact optional_b_then (s := ['r']) (by decide) hHashes hWord
      (hNe _ (by decide)) (hNe _ (by decide))
  · exact cat_char_of_beginsWord (c := '\'') (by decide) _ p
      hWord
  · exact literal_then (s := ['b']) (by decide)
      (cat_char_of_beginsWord (c := '\'') (by decide) _)
      hWord (hNe _ (by decide))

end Qhantoom

end Highlighter

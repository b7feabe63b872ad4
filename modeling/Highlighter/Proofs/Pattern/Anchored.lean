import Highlighter.Proofs.Regex.Alphabet
import Highlighter.Proofs.Regex.Loops
import Highlighter.Proofs.Regex.Wrapping

/-
  Patterns match from the start of a line. A text that
  stands for an expression is compiled to that expression,
  anchored; a text that closes the group it is put into is
  not, and its later branches are matched anywhere.

  Key definitions include:
    * `Regex.MatchesTo`

  Main statements:
    * `Pattern.compile?_regex_eq`
    * `Pattern.matches_from_start`
    * `Pattern.unanchored_branch`
-/

namespace Highlighter

namespace Regex

/-
  The expression matches the first characters of a line, so
  many of them, from the start of the line on.
-/
def MatchesTo (a : Regex) (line : Text) (n : Nat) : Prop :=
  ∃ q, a.Matches (Place.first line) q ∧
    (Place.first line).Reads (line.take n) q ∧ q.pos = n

end Regex

namespace Pattern

/- What stands for an expression is compiled to it. -/
theorem ofSource?_anchoredSource
    {source : Text}
    {a b : Regex}
    (hSource : Regex.StandsFor source a)
    (h : Regex.ofSource? (anchoredSource source) = some b) :
    b = Regex.anchored a := by
  rcases hSource with ⟨r, hRead, hClosed, rfl⟩
  -- what is read before the text itself
  let caret : Regex.Branches :=
    ⟨[], [Regex.Part.expr
      (Regex.assert Assertion.textStart) 0]⟩
  have hOpen : Regex.Reading.start.readAll
      (anchoredSource source).length (anchoredSource source) =
      Regex.Reading.readAll (source.length + 3)
        (Regex.Reading.start.within ⟨none, caret, {}⟩)
        (source ++ [')']) := by
    have hLength : (anchoredSource source).length =
        source.length + 5 := by
      simp [anchoredSource]
    rw [hLength]
    rfl
  unfold Regex.ofSource? at h
  rw [hOpen, Regex.Reading.readAll_within hRead (by omega),
    Regex.Reading.closeGroup] at h
  simp only [Regex.Reading.within, hClosed,
    List.nil_append] at h
  by_cases hHeight : r.branches.close.2 < Regex.nestLimit
  · simp only [hHeight, if_true] at h
    split at h
    · cases h
      rfl
    · cases h
  · simp only [hHeight, if_false] at h
    cases h

/- What stands for an expression is compiled to it. -/
theorem compile?_regex_eq
    {source : Text}
    {a : Regex}
    (hSource : Regex.StandsFor source a)
    {p : Pattern}
    (h : compile? (Source.regex source) = some p) :
    p = regex (Regex.anchored a) := by
  rcases Option.map_eq_some_iff.mp h with ⟨b, hb, rfl⟩
  rw [ofSource?_anchoredSource hSource hb]

/- An anchored expression matches from the start. -/
theorem matchesTo_of_matchLength
    {a : Regex}
    {line : Text}
    {n : Nat}
    (h : (regex (Regex.anchored a)).matchLength line =
      some n) : a.MatchesTo line n := by
  rcases Option.map_eq_some_iff.mp h with ⟨m, hFind, rfl⟩
  rw [Regex.find_anchored] at hFind
  rcases Regex.run_finds a 0 _ _ _ _
      (Regex.Outcome.found_of_answer? hFind) with
    ⟨q, w, hMatch, hAccept⟩
  cases hAccept
  rcases hMatch.reads with ⟨t, hLine, hPos⟩
  have hTake : line.take q.pos = t := by
    rw [hPos, show line = t ++ q.rest from hLine]
    exact List.take_left' (Nat.zero_add t.length).symm
  refine ⟨q, hMatch, ?_, rfl⟩
  rw [show Regex.Match.stop ⟨0, q⟩ = q.pos from rfl, hTake]
  exact ⟨hLine, hPos⟩

/-
  A pattern whose text stands for an expression is this
  expression, anchored. What is told of a line is the end of
  a match of the expression from the start of the line, also
  in bytes, and the pieces of a rule that fires make up what
  was matched.
-/
theorem matches_from_start
    {source : Text}
    {a : Regex}
    (hSource : Regex.StandsFor source a)
    {p : Pattern}
    (hCompile : compile? (Source.regex source) = some p)
    (line : Text) :
    p = regex (Regex.anchored a) ∧
    (∀ n, p.matchLength line = some n →
      a.MatchesTo line n) ∧
    (∀ size, p.matchSize line = some size →
      ∃ n, Text.size (line.take n) = size ∧
        a.MatchesTo line n) ∧
    ∀ r : Rule Pattern, r.pattern = p →
      ∀ hit, r.apply line = some hit →
        a.MatchesTo line hit.length ∧
          Piece.join hit.pieces = line.take hit.length := by
  have hPattern := compile?_regex_eq hSource hCompile
  subst hPattern
  refine ⟨rfl, fun n hn => matchesTo_of_matchLength hn, ?_, ?_⟩
  · intro size hSize
    rcases Option.map_eq_some_iff.mp hSize with ⟨n, hn, hEq⟩
    exact ⟨n, hEq, matchesTo_of_matchLength hn⟩
  · intro r hr hit hHit
    have hLength := Rule.matchLength_of_apply hHit
    rw [hr] at hLength
    exact ⟨matchesTo_of_matchLength hLength,
      (Rule.apply_covers hHit).join_pieces⟩

/- The second branch of a choice matches at the start. -/
theorem matches_from_start_choice :
    Regex.StandsFor "a|b".toList
        ((Regex.char 'a').alt (Regex.char 'b')) ∧
      ((Regex.char 'a').alt (Regex.char 'b')).MatchesTo
        "bc".toList 1 := by
  have hSource : Regex.StandsFor "a|b".toList
      ((Regex.char 'a').alt (Regex.char 'b')) :=
    Regex.standsFor_of_ofSource? (by decide)
  refine ⟨hSource, ?_⟩
  exact (matches_from_start hSource
    (p := regex (Regex.anchored
      ((Regex.char 'a').alt (Regex.char 'b'))))
    (by decide) "bc".toList).2.1 1 (by decide)

/-
  A text that closes the group it is put into and opens one
  again. By itself it stands for no expression, but it is
  accepted, and its second branch, which is not anchored,
  makes a rule label what no branch matches from the start.
-/
theorem unanchored_branch :
    ∃ a, compile? (Source.regex "a)|(b".toList) =
        some (regex a) ∧
      (∀ b, ¬ Regex.StandsFor "a)|(b".toList b) ∧
      (regex a).matchLength "xb".toList = some 2 ∧
      (a.find "xb".toList).map Regex.Match.start = some 1 ∧
      (∀ n, ¬ a.MatchesTo "xb".toList n) ∧
      ∀ label next,
        Rule.apply ⟨regex a, Labelling.whole label, next,
          false, false⟩ "xb".toList =
          some ⟨2, [⟨label, "xb".toList⟩]⟩ := by
  refine ⟨(Regex.anchored (Regex.char 'a')).alt
    (Regex.group (some 1) (Regex.char 'b')), by decide, ?_,
    by decide, by decide, ?_, ?_⟩
  · rintro b ⟨r, hRead, -⟩
    cases hRead
  · -- neither branch begins with the first character
    rintro n ⟨q, hMatch, -⟩
    rcases hMatch with
      ⟨r, ⟨-, rfl⟩, s, hFirst, -⟩ | ⟨s, hSecond, -⟩
    · cases hFirst
    · cases hSecond
  · intro label next
    rfl

end Pattern

end Highlighter

import Highlighter.Proofs.Pattern
import Highlighter.Proofs.Qhantoom.Table
import Highlighter.Proofs.Text.Lines

/-
  How far the patterns inside of strings and comments match
  on a line.

  Key definitions include:
    * `Qhantoom.charLength`
    * `Qhantoom.StringHead`

  Main statements:
    * `Qhantoom.matchLength_quote`
    * `Qhantoom.matchLength_hashedQuote`
    * `Qhantoom.matchLength_commentEnd`
    * `Qhantoom.matchLength_rawText`
    * `Qhantoom.matchLength_lineText`
    * `Qhantoom.matchLength_stringText`
-/

namespace Highlighter

open Regex

/- Characters within a line are no line feed. -/
theorem CharSet.contains_notNewline
    {c : Char}
    (h : Text.isBreakChar c = false) :
    notNewline.contains c = true := by
  simp only [Text.isBreakChar, Bool.or_eq_false_iff] at h
  rw [notNewline, contains, contains_single,
    Bool.not_eq_true', beq_eq_false_iff_ne]
  rintro rfl
  simp at h

namespace Qhantoom

------------------------------------------------------------
-- Closing patterns
------------------------------------------------------------

/- A quote is matched where one is ahead. -/
theorem matchLength_quote (line : Text) :
    (Pattern.regex (anchored quote)).matchLength line =
      if ['"'] <+: line then some 1 else none :=
  (testsFor_accept.char '"' 0).matchLength line

/- With hashes it is matched where one of them follows. -/
theorem matchLength_hashedQuote (line : Text) :
    (Pattern.regex (anchored hashedQuote)).matchLength line =
      if ['"', '#'] <+: line then
        some (1 + (line.tail.takeWhile ('#' == ·)).length)
      else none := by
  have hRun : ∀ t,
      hashedQuote.run 0 (Place.first t) #[] accept =
        (char '"').run 0 (Place.first t) #[] fun q v =>
          (char '#').run 1 q v fun q v =>
            rounds (char '#').run 0 true q.rest q v accept :=
    fun _ => rfl
  split
  · rename_i hPrefix
    rcases hPrefix with ⟨rest, rfl⟩
    apply matchLength_of_stopsAt
    rw [List.cons_append, List.cons_append, List.nil_append,
      hRun, run_char (p := Place.first ('"' :: '#' :: rest)) rfl,
      run_char (p := ⟨_, '#' :: rest, _, _⟩) rfl]
    have hStops := rounds_set_stopsAt (CharSet.single '#')
      (p := ⟨some '#', rest, 2, []⟩) (unmet_empty 0 2)
    simp only [CharSet.contains_single] at hStops
    have hLength :
        1 + ('#' :: rest.takeWhile ('#' == ·)).length =
          2 + (rest.takeWhile ('#' == ·)).length := by
      rw [List.length_cons]
      omega
    rw [← hLength] at hStops
    exact hStops
  · rename_i hNot
    apply matchLength_of_failed (v := #[])
    rw [hRun]
    by_cases hQuote : line.head? = some '"'
    · rcases List.head?_eq_some_iff.mp hQuote with ⟨rest, rfl⟩
      rw [run_char (p := Place.first ('"' :: rest)) rfl]
      apply run_char_of_ne
      intro hHash
      rcases List.head?_eq_some_iff.mp hHash with ⟨tail, hTail⟩
      apply hNot
      rw [show rest = '#' :: tail from hTail]
      exact List.prefix_append ['"', '#'] tail
    · exact run_char_of_ne hQuote 0 #[] _

/-
  The end of a comment is matched at its first occurrence,
  with all text of the line before it.
-/
theorem matchLength_commentEnd
    {line : Text}
    (hFree : line.BreakFree) :
    (Pattern.regex (anchored commentEnd)).matchLength line =
      let n := Pattern.lengthUpTo ['*', '/'] line
      if n < line.length then some (n + 2) else none := by
  let k : Next Match := fun q v =>
    (char '*').run 2 q v fun q v => (char '/').run 2 q v accept
  have hTests : TestsFor ['*', '/'] k :=
    (testsFor_accept.char '/' 2).char '*' 2
  have hRun : commentEnd.run 0 (Place.first line) #[] accept =
      rounds (set CharSet.notNewline).run 0 false line
        (Place.first line) #[] k := rfl
  simp only
  split
  · rename_i hInside
    apply matchLength_of_stopsAt
    rw [hRun]
    have hStops := rounds_lazy_stopsAt
      CharSet.notNewline hTests
      (p := Place.first line)
      (Pattern.prefix_drop_lengthUpTo hInside)
      (fun j hj => Pattern.not_prefix_of_lt_lengthUpTo hj)
      (fun c hc => CharSet.contains_notNewline
        (hFree c (List.mem_of_mem_take hc)))
      (Nat.le_of_lt hInside) (unmet_empty 0 0)
    rw [Place.first, Nat.zero_add] at hStops
    exact hStops
  · rename_i hOutside
    have hNever := Pattern.not_prefix_of_length_le
      (List.cons_ne_nil _ _) (Nat.le_of_not_lt hOutside)
    rcases rounds_lazy_fails CharSet.notNewline hTests
        (p := Place.first line) hNever (unmet_empty 0 0) with
      ⟨v, hFails⟩
    exact matchLength_of_failed (hRun.trans hFails)

------------------------------------------------------------
-- Filling patterns
------------------------------------------------------------

/- Raw text is matched up to the first quote. -/
theorem matchLength_rawText (line : Text) :
    (Pattern.regex (anchored rawText)).matchLength line =
      some (Pattern.lengthUpTo ['"'] line) := by
  rw [rawText, matchLength_many_set,
    Pattern.lengthUpTo_singleton]
  simp only [CharSet.contains, CharSet.contains_single]

/- Text of a line is matched as a whole. -/
theorem matchLength_lineText
    {line : Text}
    (hFree : line.BreakFree) :
    (Pattern.regex (anchored lineText)).matchLength line =
      some line.length := by
  have hAll :
      line.takeWhile (CharSet.notNewline.contains ·) =
        line := by
    apply List.takeWhile_eq_self_iff.mpr
    intro c hc
    exact CharSet.contains_notNewline (hFree c hc)
  rw [lineText, matchLength_many_set, hAll]

/-
  The number of characters that the next character of a
  string takes up: two for an escape, unless it stands at
  the end. It is zero where the string ends.
-/
def charLength : Text → Nat
  | [] => 0
  | ['\\'] => 1
  | '\\' :: c :: _ => if c = '\n' then 0 else 2
  | c :: _ => if c = '"' then 0 else 1

/-
  What a text may begin with in a string, and the number of
  characters that this takes up.
-/
inductive StringHead : Text → Nat → Prop
  | nil : StringHead [] 0
  | quote (rest : Text) : StringHead ('"' :: rest) 0
  | newline (rest : Text) :
      StringHead ('\\' :: '\n' :: rest) 0
  | slash : StringHead ['\\'] 1
  | plain
      {c : Char}
      (hSlash : c ≠ '\\')
      (hQuote : c ≠ '"')
      (rest : Text) : StringHead (c :: rest) 1
  | escape
      {c : Char}
      (hBreak : c ≠ '\n')
      (rest : Text) : StringHead ('\\' :: c :: rest) 2

theorem stringHead (t : Text) :
    StringHead t (charLength t) := by
  unfold charLength
  split
  · exact StringHead.nil
  · exact StringHead.slash
  · split
    · rename_i hBreak
      subst hBreak
      exact StringHead.newline _
    · rename_i hBreak
      exact StringHead.escape hBreak _
  · rename_i c rest hLast hMore
    split
    · rename_i hQuote
      subst hQuote
      exact StringHead.quote rest
    · rename_i hQuote
      refine StringHead.plain ?_ hQuote rest
      rintro rfl
      cases rest with
      | nil => exact hLast rfl rfl
      | cons d rest => exact hMore d rest rfl rfl

theorem charLength_le (t : Text) :
    charLength t ≤ t.length := by
  have hHead := stringHead t
  generalize charLength t = n at hHead ⊢
  cases hHead <;> simp

/-
  The search for the end of a string has not met its choices
  at a position: to go on with the loop, and which kind of
  character to read. Which kind of escape to read it has not
  met after the position.
-/
structure Fresh (pos : Nat) (v : Visits) : Prop where
  loop : Unmet 0 pos v
  kind : Unmet 1 pos v
  escape : Unmet 2 (pos + 1) v

theorem fresh_empty (pos : Nat) : Fresh pos #[] :=
  ⟨unmet_empty 0 pos, unmet_empty 1 pos, unmet_empty 2 _⟩

/- A choice noted before leaves it so. -/
theorem Fresh.mark
    {pos n place pos' : Nat}
    {v : Visits}
    (h : Fresh pos v)
    (hLe : pos ≤ pos')
    (hPlace : place < pos' ∨ n = 2 ∧ place = pos') :
    Fresh pos' (v.mark n place) := by
  constructor
  · apply h.loop.mark hLe
    omega
  · apply h.kind.mark hLe
    omega
  · apply h.escape.mark (Nat.succ_le_succ hLe)
    omega

/- At the start of a round the kind is still to be chosen. -/
theorem Fresh.has_kind
    {pos : Nat}
    {v : Visits}
    (h : Fresh pos v) :
    (v.mark 0 pos).has 1 pos = false := by
  have hUnmet : Unmet 1 pos (v.mark 0 pos) := by
    apply h.kind.mark (Nat.le_refl pos)
    intro hEq
    cases hEq
  exact hUnmet pos (Nat.le_refl pos)

/- So is, after a backslash, the kind of escape. -/
theorem Fresh.has_escape
    {pos : Nat}
    {v : Visits}
    (h : Fresh pos v) :
    ((v.mark 0 pos).mark 1 pos).has 2 (pos + 1) = false := by
  have hUnmet :
      Unmet 2 (pos + 1) ((v.mark 0 pos).mark 1 pos) := by
    apply Unmet.mark _ (Nat.le_refl _)
    · intro hEq
      cases hEq
    · apply h.escape.mark (Nat.le_refl _)
      intro hEq
      cases hEq
  exact hUnmet (pos + 1) (Nat.le_refl _)

/- A round leaves all choices open further on. -/
theorem Fresh.next
    {pos : Nat}
    {v : Visits}
    (h : Fresh pos v) :
    Fresh (pos + 1) ((v.mark 0 pos).mark 1 pos) := by
  apply Fresh.mark _ (Nat.le_refl _)
  · exact Or.inl (Nat.lt_succ_self pos)
  · exact h.mark (Nat.le_succ pos)
      (Or.inl (Nat.lt_succ_self pos))

/- What may follow a backslash: a character or the end. -/
def afterBackslash (k : Next Match) : Next Match :=
  fun q =>
    choose 2 q.pos
      (fun v => (set CharSet.notNewline).run 3 q v k)
      (fun v => (assert Assertion.textEnd).run 3 q v k)

/- A character of a string is plain or an escape. -/
theorem run_stringChar
    (p : Place)
    (v : Visits)
    (k : Next Match) :
    (group none stringChar).run 1 p v k =
      choose 1 p.pos
        (fun v => (set plainChar).run 2 p v k)
        (fun v =>
          (char '\\').run 2 p v (afterBackslash k)) v := rfl

theorem contains_plainChar (c : Char) :
    plainChar.contains c = !('\\' == c || '"' == c) := by
  simp only [plainChar, CharSet.contains,
    CharSet.contains_single]

/- Where no plain character is ahead there is an escape. -/
theorem run_stringChar_of_not_plain
    {p : Place}
    (hHead : ∀ c, p.rest.head? = some c →
      plainChar.contains c = false)
    {v : Visits}
    (hFresh : v.has 1 p.pos = false)
    (k : Next Match) :
    (group none stringChar).run 1 p v k =
      (char '\\').run 2 p (v.mark 1 p.pos)
        (afterBackslash k) := by
  rw [run_stringChar]
  apply choose_of_failed hFresh (w := v.mark 1 p.pos)
  exact run_set_of_not_mem hHead 2 _ k

section Escapes

variable {before : Option Char}
variable {pos : Nat}
variable {groups : List Span}
variable {v : Visits}

/- A line feed is not escaped. -/
theorem afterBackslash_newline
    (rest : Text)
    (hFresh : v.has 2 pos = false)
    (k : Next Match) :
    afterBackslash k ⟨before, '\n' :: rest, pos, groups⟩ v =
      Outcome.failed (v.mark 2 pos) := by
  unfold afterBackslash
  rw [choose_of_failed hFresh (w := v.mark 2 pos)]
  · rfl
  · apply run_set_of_not_mem
    intro c hc
    cases hc
    rfl

/- Any other character is. -/
theorem afterBackslash_char
    {c : Char}
    (hBreak : c ≠ '\n')
    (rest : Text)
    (hFresh : v.has 2 pos = false)
    {k : Next Match}
    {stop : Nat}
    (hStops :
      (k ⟨some c, rest, pos + 1, groups⟩
        (v.mark 2 pos)).StopsAt stop) :
    (afterBackslash k ⟨before, c :: rest, pos, groups⟩
      v).StopsAt stop := by
  apply choose_stopsAt hFresh
  rw [run_set_of_mem rfl]
  · exact hStops
  · rw [CharSet.notNewline, CharSet.contains,
      CharSet.contains_single, Bool.not_eq_true',
      beq_eq_false_iff_ne]
    exact hBreak.symm

/- So is the end. -/
theorem afterBackslash_end
    (hFresh : v.has 2 pos = false)
    {k : Next Match}
    {stop : Nat}
    (hStops :
      (k ⟨before, [], pos, groups⟩
        (v.mark 2 pos)).StopsAt stop) :
    (afterBackslash k ⟨before, [], pos, groups⟩
      v).StopsAt stop := by
  unfold afterBackslash
  rw [choose_of_failed hFresh (w := v.mark 2 pos)]
  · exact hStops
  · apply run_set_of_not_mem
    intro c hc
    cases hc

end Escapes

/- Without a character of a string ahead a round fails. -/
theorem run_stringChar_fails
    {p : Place}
    {v : Visits}
    (hFresh : Fresh p.pos v)
    (hLen : charLength p.rest = 0)
    (k : Next Match) :
    ∃ w, (group none stringChar).run 1 p (v.mark 0 p.pos) k =
      Outcome.failed w := by
  have hKind := hFresh.has_kind
  have hHead := stringHead p.rest
  rw [hLen] at hHead
  generalize hRest : p.rest = t at hHead
  cases hHead with
  | nil =>
      rw [run_stringChar_of_not_plain (by simp [hRest]) hKind]
      exact ⟨_, run_char_of_ne (by simp [hRest]) 2 _ _⟩
  | quote rest =>
      rw [run_stringChar_of_not_plain
        (by simp [hRest, contains_plainChar]) hKind]
      exact ⟨_, run_char_of_ne (by simp [hRest]) 2 _ _⟩
  | newline rest =>
      rw [run_stringChar_of_not_plain
        (by simp [hRest, contains_plainChar]) hKind,
        run_char hRest]
      exact ⟨_, afterBackslash_newline rest
        hFresh.has_escape k⟩

/- Otherwise it reads that character. -/
theorem run_stringChar_stopsAt
    {p : Place}
    {v : Visits}
    (hFresh : Fresh p.pos v)
    (hLen : 0 < charLength p.rest)
    {k : Next Match}
    {stop : Nat}
    (hk : ∀ q w, q.rest = p.rest.drop (charLength p.rest) →
      q.pos = p.pos + charLength p.rest → Fresh q.pos w →
      (k q w).StopsAt stop) :
    ((group none stringChar).run 1 p (v.mark 0 p.pos)
      k).StopsAt stop := by
  have hKind := hFresh.has_kind
  have hNext := hFresh.next
  have hHead := stringHead p.rest
  generalize charLength p.rest = n at hHead hLen hk
  generalize hRest : p.rest = t at hHead hk
  cases hHead with
  | nil => cases hLen
  | quote rest => cases hLen
  | newline rest => cases hLen
  | slash =>
      rw [run_stringChar_of_not_plain
        (by simp [hRest, contains_plainChar]) hKind,
        run_char hRest]
      apply afterBackslash_end hFresh.has_escape
      apply hk _ _ rfl rfl
      exact hNext.mark (Nat.le_refl _) (Or.inr ⟨rfl, rfl⟩)
  | plain hSlash hQuote rest =>
      rw [run_stringChar]
      apply choose_stopsAt hKind
      rw [run_set_of_mem hRest]
      · exact hk _ _ rfl rfl hNext
      · rw [contains_plainChar]
        simp [hSlash.symm, hQuote.symm]
  | escape hBreak rest =>
      rw [run_stringChar_of_not_plain
        (by simp [hRest, contains_plainChar]) hKind,
        run_char hRest]
      apply afterBackslash_char hBreak rest hFresh.has_escape
      apply hk _ _ rfl rfl
      exact hNext.mark (Nat.le_succ _)
        (Or.inl (Nat.lt_succ_self _))

/- The rounds of the loop are the characters of a string. -/
theorem rounded_stringChar :
    Rounded (group none stringChar).run 0 Fresh
      charLength := by
  constructor
  · intro pos v hFresh
    exact hFresh.loop pos (Nat.le_refl pos)
  · intro p v k hFresh hLen
    exact run_stringChar_fails hFresh hLen k
  · intro p v k stop hFresh hLen hk
    exact run_stringChar_stopsAt hFresh hLen hk

/- Text of a string is matched as long as characters last. -/
theorem matchLength_stringText
    {line : Text}
    {n : Nat}
    (h : Exhausts charLength line n) :
    (Pattern.regex (anchored stringText)).matchLength line =
      some n := by
  apply matchLength_of_stopsAt
  have hStops := rounded_stringChar.rounds_stopsAt rfl
    (p := Place.first line) h (Nat.le_refl _) (fresh_empty 0)
  rwa [Place.first, Nat.zero_add] at hStops

end Qhantoom

end Highlighter

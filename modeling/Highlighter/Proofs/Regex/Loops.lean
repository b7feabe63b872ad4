import Highlighter.Pattern

/-
  Loops of a search that takes the first match it comes to:
  a greedy loop goes round until its body fails, and a lazy
  one until what comes after it matches.

  A loop goes only through choices that were not met yet.
  This is what its readiness says, and each round hands it
  on to the next.

  Key definitions include:
    * `Regex.anchored`
    * `Regex.Outcome.StopsAt`
    * `Regex.TestsFor`
    * `Regex.Rounded`
    * `Regex.Exhausts`

  Main statements:
    * `Regex.find_anchored`
    * `Regex.Rounded.rounds_stopsAt`
    * `Regex.matchLength_many_set`
    * `Regex.rounds_lazy_stopsAt` and
      `Regex.rounds_lazy_fails`
-/

namespace Highlighter

/- A set of one character has just that. -/
theorem CharSet.contains_single (c d : Char) :
    (single c).contains d = (c == d) := by
  rw [Bool.eq_iff_iff]
  simp only [single, contains, Bool.and_eq_true,
    decide_eq_true_eq, beq_iff_eq]
  constructor
  · rintro ⟨hLe, hGe⟩
    exact Char.le_antisymm hLe hGe
  · rintro rfl
    exact ⟨Char.le_refl c, Char.le_refl c⟩

namespace Regex

------------------------------------------------------------
-- Anchored searches
------------------------------------------------------------

/- An expression in its group, anchored at the start. -/
def anchored (body : Regex) : Regex :=
  cat (assert Assertion.textStart) (group none body)

/- Take the first place that is come to. -/
def accept : Next Match :=
  fun q _ => Outcome.found ⟨0, q⟩

/- The place at the start of a text. -/
def Place.first (t : Text) : Place := ⟨none, t, 0, []⟩

/- An anchored search is one run from the start. -/
theorem find_anchored (body : Regex) (t : Text) :
    (anchored body).find t =
      (body.run 0 (Place.first t) #[] accept).answer? := by
  rfl

/- A search found a match that stops at a position. -/
def Outcome.StopsAt (o : Outcome Match) (n : Nat) : Prop :=
  ∃ m, o = Outcome.found m ∧ m.stop = n

theorem accept_stopsAt (q : Place) (v : Visits) :
    (accept q v).StopsAt q.pos :=
  ⟨⟨0, q⟩, rfl, rfl⟩

/- An anchored pattern matches up to where its run stops. -/
theorem matchLength_of_stopsAt
    {body : Regex}
    {t : Text}
    {n : Nat}
    (h : (body.run 0 (Place.first t) #[] accept).StopsAt n) :
    (Pattern.regex (anchored body)).matchLength t =
      some n := by
  rcases h with ⟨m, hFound, rfl⟩
  rw [Pattern.matchLength, find_anchored, hFound]
  rfl

/- It does not match if the run fails. -/
theorem matchLength_of_failed
    {body : Regex}
    {t : Text}
    {v : Visits}
    (h : body.run 0 (Place.first t) #[] accept =
      Outcome.failed v) :
    (Pattern.regex (anchored body)).matchLength t = none := by
  rw [Pattern.matchLength, find_anchored, h]
  rfl

------------------------------------------------------------
-- Choices met for the first time
------------------------------------------------------------

variable {α : Type}

/- A choice takes its first way if that leads to a match. -/
theorem choose_stopsAt
    {n pos stop : Nat}
    {first second : Visits → Outcome Match}
    {v : Visits}
    (hFresh : v.has n pos = false)
    (h : (first (v.mark n pos)).StopsAt stop) :
    (choose n pos first second v).StopsAt stop := by
  rcases h with ⟨m, hFound, hStop⟩
  refine ⟨m, ?_, hStop⟩
  simp [choose, hFresh, hFound]

/- If that fails it takes its second way. -/
theorem choose_of_failed
    {n pos : Nat}
    {first second : Visits → Outcome α}
    {v w : Visits}
    (hFresh : v.has n pos = false)
    (h : first (v.mark n pos) = Outcome.failed w) :
    choose n pos first second v = second w := by
  simp [choose, hFresh, h]

/- To read a character that is in the set goes on. -/
theorem run_set_of_mem
    {chars : CharSet}
    {c : Char}
    {rest : Text}
    {p : Place}
    (hRest : p.rest = c :: rest)
    (hMem : chars.contains c = true)
    (n : Nat)
    (v : Visits)
    (k : Next α) :
    (set chars).run n p v k =
      k ⟨some c, rest, p.pos + 1, p.groups⟩ v := by
  simp [run, Place.read, hRest, hMem]

/- To read any other character fails. -/
theorem run_set_of_not_mem
    {chars : CharSet}
    {p : Place}
    (hMem : ∀ c, p.rest.head? = some c →
      chars.contains c = false)
    (n : Nat)
    (v : Visits)
    (k : Next α) :
    (set chars).run n p v k = Outcome.failed v := by
  cases hRest : p.rest with
  | nil => simp [run, Place.read, hRest]
  | cons c rest =>
      have hNot : chars.contains c = false := by
        apply hMem
        rw [hRest]
        rfl
      simp [run, Place.read, hRest, hNot]

/- A set matches the one character that it has. -/
theorem matchLength_set
    (chars : CharSet)
    (c : Char)
    (line : Text) :
    (Pattern.regex (anchored (set chars))).matchLength
        (c :: line) =
      if chars.contains c then some 1 else none := by
  split
  · rename_i hMem
    apply matchLength_of_stopsAt
    rw [run_set_of_mem (p := Place.first (c :: line)) rfl hMem]
    exact accept_stopsAt _ _
  · rename_i hMem
    apply matchLength_of_failed
    apply run_set_of_not_mem
    intro d hd
    cases hd
    exact Bool.not_eq_true _ ▸ hMem

------------------------------------------------------------
-- Literals
------------------------------------------------------------

/- One character is read where it is ahead. -/
theorem run_char
    {c : Char}
    {rest : Text}
    {p : Place}
    (hRest : p.rest = c :: rest)
    (n : Nat)
    (v : Visits)
    (k : Next α) :
    (char c).run n p v k =
      k ⟨some c, rest, p.pos + 1, p.groups⟩ v := by
  apply run_set_of_mem hRest
  rw [CharSet.contains_single, beq_self_eq_true]

/- It fails elsewhere. -/
theorem run_char_of_ne
    {c : Char}
    {p : Place}
    (hHead : p.rest.head? ≠ some c)
    (n : Nat)
    (v : Visits)
    (k : Next α) :
    (char c).run n p v k = Outcome.failed v := by
  apply run_set_of_not_mem
  intro d hd
  rw [CharSet.contains_single, beq_eq_false_iff_ne]
  rintro rfl
  exact hHead hd

/-
  A way to go on tests for a literal: where that is ahead it
  matches it, and elsewhere it fails without any choice.
-/
structure TestsFor (literal : Text) (k : Next Match) :
    Prop where
  stopsAt : ∀ q v, literal <+: q.rest →
    (k q v).StopsAt (q.pos + literal.length)
  fails : ∀ q v, ¬ literal <+: q.rest →
    k q v = Outcome.failed v

/- To accept at once is to test for nothing. -/
theorem testsFor_accept : TestsFor [] accept := by
  constructor
  · intro q v _
    exact accept_stopsAt q v
  · intro q v hNot
    exact absurd List.nil_prefix hNot

/- To read a character first is to test for one more. -/
theorem TestsFor.char
    {literal : Text}
    {k : Next Match}
    (h : TestsFor literal k)
    (c : Char)
    (n : Nat) :
    TestsFor (c :: literal)
      (fun q v => (char c).run n q v k) := by
  constructor
  · intro q v hPrefix
    rcases hPrefix with ⟨rest, hRest⟩
    rw [run_char hRest.symm, List.length_cons,
      ← Nat.succ_eq_add_one, Nat.add_succ, ← Nat.succ_add]
    exact h.stopsAt _ v (List.prefix_append literal rest)
  · intro q v hNot
    by_cases hHead : q.rest.head? = some c
    · rcases List.head?_eq_some_iff.mp hHead with
        ⟨rest, hRest⟩
      rw [run_char hRest]
      apply h.fails
      intro hPrefix
      apply hNot
      rw [hRest]
      exact List.cons_prefix_cons.mpr ⟨rfl, hPrefix⟩
    · exact run_char_of_ne hHead n v k

/- An expression for a literal matches where that is. -/
theorem TestsFor.matchLength
    {literal : Text}
    {body : Regex}
    (h : TestsFor literal fun q v => body.run 0 q v accept)
    (line : Text) :
    (Pattern.regex (anchored body)).matchLength line =
      if literal <+: line then some literal.length
      else none := by
  split
  · rename_i hPrefix
    have hStops := h.stopsAt (Place.first line) #[] hPrefix
    rw [Place.first, Nat.zero_add] at hStops
    exact matchLength_of_stopsAt hStops
  · rename_i hNot
    exact matchLength_of_failed
      (h.fails (Place.first line) #[] hNot)

------------------------------------------------------------
-- Greedy loops
------------------------------------------------------------

/-
  The rounds of a loop are as told by a length: from a place
  where the loop is ready, the body fails if the length of
  the text ahead is zero, and otherwise it reads that many
  characters first and leaves the loop ready.
-/
structure Rounded
    (body : Runner Match)
    (n : Nat)
    (Ready : Nat → Visits → Prop)
    (len : Text → Nat) : Prop where
  fresh : ∀ pos v, Ready pos v → v.has n pos = false
  fails : ∀ p v k, Ready p.pos v → len p.rest = 0 →
    ∃ w, body (n + 1) p (v.mark n p.pos) k =
      Outcome.failed w
  goes : ∀ p v k stop, Ready p.pos v → 0 < len p.rest →
    (∀ q w, q.rest = p.rest.drop (len p.rest) →
      q.pos = p.pos + len p.rest → Ready q.pos w →
      (k q w).StopsAt stop) →
    (body (n + 1) p (v.mark n p.pos) k).StopsAt stop

/-
  Rounds of the given lengths go so far into a text that the
  next one fails.
-/
inductive Exhausts (len : Text → Nat) : Text → Nat → Prop
  | stop
      {t : Text}
      (h : len t = 0) : Exhausts len t 0
  | round
      {t : Text}
      {n : Nat}
      (h : 0 < len t)
      (hRest : Exhausts len (t.drop (len t)) n) :
      Exhausts len t (len t + n)

/- There are such rounds, as each shortens the text. -/
theorem exists_exhausts
    {len : Text → Nat}
    (hLe : ∀ t, len t ≤ t.length)
    (t : Text) : ∃ n, Exhausts len t n := by
  by_cases hLen : len t = 0
  · exact ⟨0, Exhausts.stop hLen⟩
  · have hPos : 0 < len t := Nat.pos_of_ne_zero hLen
    have hShorter : (t.drop (len t)).length < t.length := by
      have hLe := hLe t
      rw [List.length_drop]
      omega
    rcases exists_exhausts hLe (t.drop (len t)) with
      ⟨n, hRest⟩
    exact ⟨len t + n, Exhausts.round hPos hRest⟩
termination_by t.length

/- A greedy loop goes on until its body fails. -/
theorem Rounded.rounds_stopsAt
    {body : Runner Match}
    {n : Nat}
    {Ready : Nat → Visits → Prop}
    {len : Text → Nat}
    (hBody : Rounded body n Ready len)
    (hNil : len [] = 0)
    {p : Place}
    {count : Nat}
    (hExhausts : Exhausts len p.rest count)
    {ahead : Text}
    (hAhead : p.rest.length ≤ ahead.length)
    {v : Visits}
    (hReady : Ready p.pos v) :
    (rounds body n true ahead p v accept).StopsAt
      (p.pos + count) := by
  generalize hRest : p.rest = t at hExhausts
  induction hExhausts generalizing p ahead v with
  | @stop t hLen =>
      have hFresh := hBody.fresh p.pos v hReady
      -- the last round may be cut off by its bound or fail
      cases ahead with
      | nil =>
          exact choose_stopsAt hFresh (accept_stopsAt p _)
      | cons c ahead =>
          rw [← hRest] at hLen
          rcases hBody.fails p v _ hReady hLen with ⟨w, hw⟩
          simp only [rounds, goOn, if_true]
          rw [choose_of_failed hFresh hw]
          exact accept_stopsAt p w
  | @round t count hLen hRounds ih =>
      have hFresh := hBody.fresh p.pos v hReady
      cases ahead with
      | nil =>
          -- no text is left that a round could read
          rw [hRest, List.length_nil, Nat.le_zero,
            List.length_eq_zero_iff] at hAhead
          rw [hAhead, hNil] at hLen
          cases hLen
      | cons c ahead =>
          simp only [rounds, goOn, if_true]
          apply choose_stopsAt hFresh
          rw [← hRest] at hLen
          apply hBody.goes p v _ _ hReady hLen
          intro q w hDrop hPos hNext
          have hShorter : q.rest.length ≤ ahead.length := by
            rw [List.length_cons] at hAhead
            rw [hDrop, List.length_drop]
            omega
          rw [hRest] at hDrop hPos
          rw [← Nat.add_assoc, ← hPos]
          exact ih hShorter hNext hDrop

/- A choice was not met at a position or after it. -/
def Unmet (n pos : Nat) (v : Visits) : Prop :=
  ∀ q, pos ≤ q → v.has n q = false

theorem unmet_empty (n pos : Nat) : Unmet n pos #[] :=
  fun q _ => Visits.has_empty n q

/-
  It is not met further on when another choice is noted, or
  the same one before.
-/
theorem Unmet.mark
    {n pos other place pos' : Nat}
    {v : Visits}
    (h : Unmet n pos v)
    (hLe : pos ≤ pos')
    (hOther : other = n → place < pos') :
    Unmet n pos' (v.mark other place) := by
  intro q hq
  rw [Visits.has_mark, h q (Nat.le_trans hLe hq),
    Bool.false_or, decide_eq_false_iff_not]
  rintro ⟨rfl, rfl⟩
  exact absurd (hOther rfl) (Nat.not_lt.mpr hq)

/- The number of characters that a set reads at a text. -/
def readLength (chars : CharSet) : Text → Nat
  | [] => 0
  | c :: _ => if chars.contains c then 1 else 0

theorem readLength_of_mem
    {chars : CharSet}
    {c : Char}
    (h : chars.contains c = true)
    (t : Text) : readLength chars (c :: t) = 1 :=
  if_pos h

theorem readLength_of_not_mem
    {chars : CharSet}
    {c : Char}
    (h : chars.contains c = false)
    (t : Text) : readLength chars (c :: t) = 0 := by
  simp [readLength, h]

/- The rounds of a loop over a set read one character. -/
theorem rounded_set (chars : CharSet) (n : Nat) :
    Rounded (set chars).run n (Unmet n)
      (readLength chars) := by
  constructor
  · intro pos v hUnmet
    exact hUnmet pos (Nat.le_refl pos)
  · intro p v k hUnmet hLen
    refine ⟨v.mark n p.pos, run_set_of_not_mem ?_ _ _ _⟩
    intro c hHead
    rcases List.head?_eq_some_iff.mp hHead with ⟨rest, hRest⟩
    cases hMem : chars.contains c with
    | false => rfl
    | true =>
        rw [hRest, readLength_of_mem hMem] at hLen
        cases hLen
  · intro p v k stop hUnmet hLen hk
    cases hRest : p.rest with
    | nil =>
        rw [hRest] at hLen
        cases hLen
    | cons c rest =>
        rw [hRest] at hLen hk
        cases hMem : chars.contains c with
        | false =>
            rw [readLength_of_not_mem hMem] at hLen
            cases hLen
        | true =>
            rw [readLength_of_mem hMem] at hk
            rw [run_set_of_mem hRest hMem]
            apply hk _ _ rfl rfl
            exact hUnmet.mark (Nat.le_succ p.pos)
              fun _ => Nat.lt_succ_self p.pos

theorem exhausts_set (chars : CharSet) (t : Text) :
    Exhausts (readLength chars) t
      (t.takeWhile (chars.contains ·)).length := by
  induction t with
  | nil => exact Exhausts.stop rfl
  | cons c t ih =>
      cases hMem : chars.contains c with
      | true =>
          have hOne := readLength_of_mem hMem t
          have hRound :
              Exhausts (readLength chars) (c :: t)
                (readLength chars (c :: t) +
                  (t.takeWhile (chars.contains ·)).length) := by
            apply Exhausts.round
            · rw [hOne]
              exact Nat.one_pos
            · rw [hOne]
              exact ih
          rw [hOne, Nat.add_comm] at hRound
          simpa [hMem] using hRound
      | false =>
          have hStop :=
            Exhausts.stop (readLength_of_not_mem hMem t)
          simpa [hMem] using hStop

/- A greedy loop over a set reads all it can. -/
theorem rounds_set_stopsAt
    (chars : CharSet)
    {n : Nat}
    {p : Place}
    {v : Visits}
    (hUnmet : Unmet n p.pos v) :
    (rounds (set chars).run n true p.rest p v accept).StopsAt
      (p.pos +
        (p.rest.takeWhile (chars.contains ·)).length) :=
  (rounded_set chars n).rounds_stopsAt rfl
    (exhausts_set chars p.rest) (Nat.le_refl _) hUnmet

/- An anchored loop over a set matches all it can read. -/
theorem matchLength_many_set (chars : CharSet) (line : Text) :
    (Pattern.regex (anchored (many (set chars)))).matchLength
        line =
      some (line.takeWhile (chars.contains ·)).length := by
  apply matchLength_of_stopsAt
  have hStops := rounds_set_stopsAt chars
    (p := Place.first line) (unmet_empty 0 0)
  rwa [Place.first, Nat.zero_add] at hStops

------------------------------------------------------------
-- Lazy loops
------------------------------------------------------------

/-
  A lazy loop goes on until the literal is ahead, if it can
  read all characters up to there.
-/
theorem rounds_lazy_stopsAt
    (chars : CharSet)
    {literal : Text}
    {k : Next Match}
    (hTests : TestsFor literal k)
    {n i : Nat}
    {p : Place}
    (hHere : literal <+: p.rest.drop i)
    (hBefore : ∀ j, j < i → ¬ literal <+: p.rest.drop j)
    (hRead : ∀ c ∈ p.rest.take i, chars.contains c = true)
    (hLength : i ≤ p.rest.length)
    {v : Visits}
    (hUnmet : Unmet n p.pos v) :
    (rounds (set chars).run n false p.rest p v k).StopsAt
      (p.pos + i + literal.length) := by
  have hFresh := hUnmet p.pos (Nat.le_refl p.pos)
  induction i generalizing p v with
  | zero =>
      have hStops := hTests.stopsAt p (v.mark n p.pos) hHere
      cases hRest : p.rest with
      | nil => exact choose_stopsAt hFresh hStops
      | cons c rest => exact choose_stopsAt hFresh hStops
  | succ i ih =>
      cases hRest : p.rest with
      | nil =>
          rw [hRest] at hLength
          cases hLength
      | cons c rest =>
          rw [hRest] at hHere hBefore hRead hLength
          have hNot : ¬ literal <+: p.rest := by
            rw [hRest]
            exact hBefore 0 (Nat.succ_pos i)
          have hMem : chars.contains c = true :=
            hRead c (List.mem_cons_self ..)
          simp only [rounds, goOn, Bool.false_eq_true, if_false]
          rw [choose_of_failed hFresh (hTests.fails p _ hNot),
            run_set_of_mem hRest hMem]
          have hNext : Unmet n (p.pos + 1) (v.mark n p.pos) :=
            hUnmet.mark (Nat.le_succ p.pos)
              fun _ => Nat.lt_succ_self p.pos
          have hStops := ih
            (p := ⟨some c, rest, p.pos + 1, p.groups⟩)
            hHere
            (fun j hj => hBefore (j + 1) (Nat.succ_lt_succ hj))
            (fun d hd => hRead d (List.mem_cons_of_mem c hd))
            (Nat.le_of_succ_le_succ hLength) hNext
            (hNext _ (Nat.le_refl _))
          simpa only [Nat.add_assoc, Nat.add_comm 1] using hStops

/- It fails if the literal is never ahead. -/
theorem rounds_lazy_fails
    (chars : CharSet)
    {literal : Text}
    {k : Next Match}
    (hTests : TestsFor literal k)
    {n : Nat}
    {p : Place}
    (hNever : ∀ j, ¬ literal <+: p.rest.drop j)
    {v : Visits}
    (hUnmet : Unmet n p.pos v) :
    ∃ w, rounds (set chars).run n false p.rest p v k =
      Outcome.failed w := by
  have hFresh := hUnmet p.pos (Nat.le_refl p.pos)
  have hFails :=
    hTests.fails p (v.mark n p.pos) (hNever 0)
  generalize hRest : p.rest = rest
  induction rest generalizing p v with
  | nil =>
      refine ⟨v.mark n p.pos, ?_⟩
      simp only [rounds]
      rw [choose, hFresh]
      simp [hFails]
  | cons c rest ih =>
      simp only [rounds, goOn, Bool.false_eq_true, if_false]
      rw [choose_of_failed hFresh hFails]
      cases hMem : chars.contains c with
      | false =>
          refine ⟨v.mark n p.pos, run_set_of_not_mem ?_ _ _ _⟩
          intro d hHead
          rw [hRest] at hHead
          cases hHead
          exact hMem
      | true =>
          have hNext : Unmet n (p.pos + 1) (v.mark n p.pos) :=
            hUnmet.mark (Nat.le_succ p.pos)
              fun _ => Nat.lt_succ_self p.pos
          rw [run_set_of_mem hRest hMem]
          rw [hRest] at hNever
          exact ih
            (p := ⟨some c, rest, p.pos + 1, p.groups⟩)
            (fun j => hNever (j + 1)) hNext
            (hNext _ (Nat.le_refl _))
            (hTests.fails _ _ (hNever 1)) rfl

end Regex

end Highlighter

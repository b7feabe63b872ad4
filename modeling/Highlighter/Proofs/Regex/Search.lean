import Highlighter.Proofs.Regex.DeadEnds

/-
  A search by backtracking finds the first path, although it
  goes through each choice only once at a position.

  This is shown for expressions whose unbounded loops are
  over single characters. A loop over something that reads
  nothing would come to a choice again that is still open.

  Key definitions include:
    * `Regex.simple`
    * `Regex.RunsAs`
    * `Regex.Runs`

  Main statements:
    * `Regex.run_continues`: a run tries its paths in order.
    * `Regex.find_anchored_eq`: an anchored search finds the
      first path.
-/

namespace Highlighter

namespace Regex

/- Is the expression a single set of characters? -/
def isSet : Regex → Bool
  | set _ => true
  | _ => false

/- Are unbounded loops over single characters only? -/
def simple : Regex → Bool
  | empty => true
  | set _ => true
  | assert _ => true
  | cat a b => a.simple && b.simple
  | alt a b => a.simple && b.simple
  | times _ high _ body =>
      body.simple && (high.isSome || body.isSet)
  | group _ body => body.simple

variable {α : Type}

------------------------------------------------------------
-- Runs
------------------------------------------------------------

theorem findSome?_flatMap
    {β γ δ : Type}
    (xs : List β)
    (f : β → List γ)
    (g : γ → Option δ) :
    (xs.flatMap f).findSome? g =
      xs.findSome? fun x => (f x).findSome? g := by
  induction xs with
  | nil => rfl
  | cons x xs ih =>
      rw [List.flatMap_cons, List.findSome?_append, ih,
        List.findSome?_cons]
      cases (f x).findSome? g <;> rfl

section

variable {t : Text}
variable {F : Nat → Nat → Prop}

/-
  A runner tries the places that a step leads to in order,
  its choices being as many as given and told to fail as
  given.
-/
def RunsAs
    (t : Text)
    (F : Nat → Nat → Prop)
    (width : Nat)
    (tells : Nat → (Nat → Prop) → Prop)
    (step : Place → List Place)
    (body : Runner α) : Prop :=
  ∀ n Z K k, tells n Z → NoneAt t K Z →
    Continues t F (n + width) K k →
    Continues t F n (fun p => (step p).findSome? K)
      (fun p v => body n p v k)

theorem RunsAs.inRow
    {width : Nat}
    {tells : Nat → (Nat → Prop) → Prop}
    {step : Place → List Place}
    {body : Runner α}
    (h : RunsAs t F width tells step body)
    (hStep : AlikeStep t step)
    (count : Nat) :
    RunsAs t F (count * width)
      (TellsCopies t step tells width count)
      (copies step count) (inRow body width count) := by
  induction count with
  | zero =>
      intro n Z K k hTells hZ hk
      simpa [copies, Regex.inRow] using hk
  | succ count ih =>
      intro n Z K k hTells hZ hk
      rcases hTells with ⟨hFirst, hRest⟩
      have hNumber :
          n + (count + 1) * width =
            n + width + count * width := by
        rw [Nat.succ_mul]
        omega
      rw [hNumber] at hk
      have hLater := ih (n + width) Z K k hRest hZ hk
      have hHere := h n _ _ _ hFirst
        (hZ.through (hStep.copies count)) hLater
      simpa only [copies, findSome?_flatMap, Regex.inRow]
        using hHere

/- The first answer of up to a number of steps. -/
theorem findSome?_atMost
    (step : Place → List Place)
    (greedy : Bool)
    (count : Nat)
    (K : Place → Option α)
    (p : Place) :
    (atMost step greedy (count + 1) p).findSome? K =
      let further := (step p).findSome? fun q =>
        (atMost step greedy count q).findSome? K
      if greedy then further.or (K p)
      else (K p).or further := by
  rw [atMost]
  cases greedy with
  | true =>
      simp only [if_true, List.findSome?_append,
        List.findSome?_singleton, findSome?_flatMap]
  | false =>
      simp only [Bool.false_eq_true, if_false,
        List.findSome?_cons, findSome?_flatMap]
      cases K p <;> rfl

theorem goOn_eq_none_iff
    (greedy : Bool)
    (x y : Option α) :
    (if greedy then x.or y else y.or x) = none ↔
      x = none ∧ y = none := by
  cases greedy with
  | true => simp
  | false => simp [and_comm]

theorem RunsAs.upTo
    {width : Nat}
    {tells : Nat → (Nat → Prop) → Prop}
    {step : Place → List Place}
    {body : Runner α}
    (h : RunsAs t F width tells step body)
    (hStep : AlikeStep t step)
    (greedy : Bool)
    (count : Nat) :
    RunsAs t F (count * (width + 1))
      (TellsAtMost t F step tells width greedy count)
      (atMost step greedy count)
      (upTo body width greedy count) := by
  induction count with
  | zero =>
      intro n Z K k hTells hZ hk
      simpa [atMost, Regex.upTo] using hk
  | succ count ih =>
      intro n Z K k hTells hZ hk
      rcases hTells with ⟨hChoice, hFirst, hRest⟩
      have hNumber :
          n + (count + 1) * (width + 1) =
            n + 1 + width + count * (width + 1) := by
        rw [Nat.succ_mul]
        omega
      have hStop := hk.mono (n := n + 1) (by omega)
      rw [hNumber] at hk
      have hLater :=
        ih (n + 1 + width) Z K k hRest hZ hk
      have hAgain := h (n + 1) _ _ _ hFirst
        (hZ.through (hStep.atMost greedy count)) hLater
      intro p v hp hv
      have hNone :=
        hZ.through (hStep.atMost greedy (count + 1)) p hp
      beta_reduce at hNone ⊢
      rw [← hChoice, findSome?_atMost] at hNone
      rw [findSome?_atMost]
      apply realises_goOn _ (fun w hw => hAgain p w hp hw)
        (fun w hw => hStop p w hp hw) hv
      rw [← hNone]
      exact goOn_eq_none_iff greedy _ _

/-
  A set leads on past the next character or nowhere. There
  all that was met lies behind.
-/
theorem realises_read
    {chars : CharSet}
    {n m : Nat}
    {K : Place → Option α}
    {k : Next α}
    {p : Place}
    (hp : p.On t)
    {v : Visits}
    (hValid : v.Valid F n p.pos)
    (hNext : ∀ q, p.read chars = some q → q.On t →
      (∀ n', v.Valid F n' q.pos) →
      (k q v).Realises F v (K q)) :
    ((set chars).run m p v k).Realises F v
      (((set chars).paths p).findSome? K) := by
  simp only [run, paths]
  cases hRead : p.read chars with
  | none => exact Outcome.realises_failed F v
  | some q =>
      have hLt : p.pos < q.pos := by
        rw [Place.pos_of_read hRead]
        exact Nat.lt_succ_self _
      rw [Option.toList_some, List.findSome?_singleton]
      exact hNext q hRead (hp.read hRead)
        fun n' => hValid.further hLt

/-
  The rounds of a loop over a set try the places they lead
  to, as each of them reads a character.
-/
theorem realises_rounds
    {chars : CharSet}
    {greedy : Bool}
    {n : Nat}
    {Z : Nat → Prop}
    (hTells : ∀ q, F n q ↔
      Through t (star (set chars).paths greedy) Z q)
    {K : Place → Option α}
    {k : Next α}
    (hZ : NoneAt t K Z)
    (hk : Continues t F (n + 1) K k)
    {ahead : Text}
    {p : Place}
    (hp : p.On t)
    (hAhead : p.rest.length = ahead.length)
    {v : Visits}
    (hValid : v.Valid F n p.pos) :
    (rounds (set chars).run n greedy ahead p v k).Realises F v
      ((star (set chars).paths greedy p).findSome? K) := by
  have hStep := alike_paths t (set chars)
  induction ahead generalizing p v with
  | nil =>
      have hNone := hZ.through (hStep.star greedy) p hp
      have hOne : star (set chars).paths greedy p = [p] := by
        rw [star, hAhead]
        rfl
      beta_reduce at hNone
      rw [← hTells, hOne, List.findSome?_singleton] at hNone
      rw [hOne, List.findSome?_singleton,
        ← Option.or_none (o := K p)]
      apply realises_choose _ (fun w hw => hk p w hp hw)
        (fun w _ => Outcome.realises_failed F w) hValid
      rw [← hNone, Option.or_none]
  | cons c ahead ih =>
      have hNone := hZ.through (hStep.star greedy) p hp
      beta_reduce at hNone
      rw [← hTells] at hNone
      simp only [star, hAhead, List.length_cons,
        findSome?_atMost] at hNone ⊢
      apply realises_goOn _ _ (fun w hw => hk p w hp hw) hValid
      · rw [← hNone]
        exact goOn_eq_none_iff greedy _ _
      · intro w hw
        apply realises_read hp hw
        intro q hRead hq hLater
        have hLength : q.rest.length = ahead.length := by
          rcases Place.reads_of_read hRead with
            ⟨d, -, hReads⟩
          rw [hReads.1] at hAhead
          simpa using hAhead
        have hNext := ih hq hLength (hLater n)
        rwa [star, hLength] at hNext

theorem runsAs_set
    (chars : CharSet)
    (tells : Nat → (Nat → Prop) → Prop) :
    RunsAs (α := α) t F 0 tells (set chars).paths
      (set chars).run := by
  intro n Z K k hTells hZ hk p v hp hv
  exact realises_read hp hv fun q _ hq hLater =>
    hk q v hq (hLater n)

------------------------------------------------------------
-- Expressions
------------------------------------------------------------

/- The run of an expression tries its paths in order. -/
def Runs
    (α : Type)
    (t : Text)
    (F : Nat → Nat → Prop)
    (a : Regex) : Prop :=
  RunsAs (α := α) t F a.choices (Tells t F a) a.paths a.run

theorem Runs.cat
    {a b : Regex}
    (ha : Runs α t F a)
    (hb : Runs α t F b) : Runs α t F (cat a b) := by
  intro n Z K k hTells hZ hk
  rcases hTells with ⟨hFirst, hSecond⟩
  rw [choices, ← Nat.add_assoc] at hk
  have hLater := hb _ Z K k hSecond hZ hk
  have hHere := ha n _ _ _ hFirst
    (hZ.through (alike_paths t b)) hLater
  simpa only [paths, run, findSome?_flatMap] using hHere

theorem Runs.alt
    {a b : Regex}
    (ha : Runs α t F a)
    (hb : Runs α t F b) : Runs α t F (alt a b) := by
  intro n Z K k hTells hZ hk p v hp hv
  rcases hTells with ⟨hChoice, hFirst, hSecond⟩
  -- what follows has no choice of either side
  rw [choices] at hk
  have hLeft := ha (n + 1) Z K k hFirst hZ
    (hk.mono (by omega))
  have hRight := hb (n + 1 + a.choices) Z K k hSecond hZ
    (hk.mono (by omega))
  have hNone := hZ.through (alike_paths t (a.alt b)) p hp
  rw [← hChoice] at hNone
  simp only [paths, List.findSome?_append] at hNone ⊢
  simp only [run]
  exact realises_choose hNone.symm
    (fun w hw => hLeft p w hp hw)
    (fun w hw => hRight p w hp (hw.mono (by omega))) hv

theorem Runs.group
    {body : Regex}
    (h : Runs α t F body)
    (index : Option Nat) :
    Runs α t F (group index body) := by
  intro n Z K k hTells hZ hk p v hp hv
  -- a group changes no position
  have hClosed : NoneAt t
      (fun q => K (q.close index p.pos)) Z := by
    intro q hq
    rw [hZ _ (hq.close index p.pos), Place.pos_close]
  have hNext : Continues t F (n + body.choices)
      (fun q => K (q.close index p.pos))
      (fun q w => k (q.close index p.pos) w) := by
    intro q w hq hw
    apply hk _ w (hq.close index p.pos)
    rw [Place.pos_close]
    exact hw
  simp only [paths, run, List.findSome?_map]
  exact h n Z _ _ hTells hClosed hNext p v hp hv

/- A number of rounds between two bounds. -/
theorem Runs.between
    {body : Regex}
    (h : Runs α t F body)
    (low high : Nat)
    (greedy : Bool) :
    Runs α t F (times low (some high) greedy body) := by
  intro n Z K k hTells hZ hk
  have hStep := alike_paths t body
  rcases hTells with ⟨hRow, hMore⟩
  rw [choices, ← Nat.add_assoc] at hk
  have hLater := RunsAs.upTo h hStep greedy (high - low) _
    Z K k hMore hZ hk
  have hHere := RunsAs.inRow h hStep low n _ _ _ hRow
    (hZ.through (hStep.atMost greedy (high - low))) hLater
  simpa only [paths, run, findSome?_flatMap] using hHere

/-
  A loop over a set tries the places it leads to, from a
  number of rounds on.
-/
theorem runs_many
    (chars : CharSet)
    (greedy : Bool)
    (low : Nat) :
    Runs α t F (times low none greedy (set chars)) := by
  intro n Z K k hTells hZ hk
  replace hk := hk.mono (n := n + 1) (by simp [choices])
  have hStep := alike_paths t (set chars)
  have hRounds : Continues t F n
      (fun p => (star (set chars).paths greedy p).findSome? K)
      (fun p v =>
        rounds (set chars).run n greedy p.rest p v k) :=
    fun p v hp hv => realises_rounds hTells hZ hk hp rfl hv
  cases low with
  | zero =>
      intro p v hp hv
      beta_reduce
      rw [paths, copies, List.flatMap_singleton]
      exact hRounds p v hp hv
  | succ low =>
      have hStar := hZ.through (hStep.star greedy)
      have hOne := runsAs_set chars (fun _ _ => True) n _ _ _
        trivial hStar hRounds
      have hRow := (runsAs_set chars fun _ _ => True).inRow
        hStep low n _ _ _
        (tellsCopies_of_forall (by simp) low n)
        (hStar.through hStep) hOne
      simp only [paths, ← copies_flatMap, findSome?_flatMap]
      exact hRow

/- A run tries the paths of its expression in order. -/
theorem run_continues
    {a : Regex}
    (hSimple : a.simple = true) : Runs α t F a := by
  induction a with
  | empty =>
      intro n Z K k hTells hZ hk p v hp hv
      simp only [paths, List.findSome?_singleton]
      exact hk p v hp hv
  | set chars => exact runsAs_set chars _
  | assert condition =>
      intro n Z K k hTells hZ hk p v hp hv
      simp only [paths, run]
      split
      · rw [List.findSome?_singleton]
        exact hk p v hp hv
      · exact Outcome.realises_failed F v
  | cat a b iha ihb =>
      rw [simple, Bool.and_eq_true] at hSimple
      exact (iha hSimple.1).cat (ihb hSimple.2)
  | alt a b iha ihb =>
      rw [simple, Bool.and_eq_true] at hSimple
      exact (iha hSimple.1).alt (ihb hSimple.2)
  | times low high greedy body ih =>
      rw [simple, Bool.and_eq_true] at hSimple
      cases high with
      | some high =>
          exact (ih hSimple.1).between low high greedy
      | none =>
          cases body with
          | set chars => exact runs_many chars greedy low
          | _ => simp [isSet] at hSimple
  | group index body ih => exact (ih hSimple).group index

end

------------------------------------------------------------
-- Searches
------------------------------------------------------------

/- An anchored search finds the first path from the start. -/
theorem find_anchored_eq
    {a : Regex}
    (hSimple : a.simple = true)
    (t : Text) :
    (anchored a).find t =
      (a.paths (Place.first t)).head?.map (Match.mk 0) := by
  rcases exists_tells t a 0 (fun _ => False) with ⟨F, hTells⟩
  have hZ : NoneAt t (fun q => some (Match.mk 0 q))
      (fun _ => False) := by
    intro p hp
    simp
  have hAccept : Continues t F (0 + a.choices)
      (fun q => some (Match.mk 0 q)) accept :=
    fun p v hp hv => rfl
  have hRun := run_continues hSimple 0 _ _ _ hTells hZ hAccept
    (Place.first t) #[] (Place.on_first t)
    (Visits.valid_empty 0 0)
  rw [find_anchored]
  cases hPaths : a.paths (Place.first t) with
  | nil =>
      simp only [hPaths, List.findSome?_nil] at hRun
      rcases hRun with ⟨w, hFailed, -⟩
      rw [hFailed]
      rfl
  | cons q qs =>
      simp only [hPaths, List.findSome?_cons] at hRun
      rw [show a.run 0 (Place.first t) #[] accept = _ from hRun]
      rfl

end Regex

end Highlighter

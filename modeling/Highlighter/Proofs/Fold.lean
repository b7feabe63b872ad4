import Highlighter.Fold
import Highlighter.Proofs.Scan.Outline
import Mathlib.Data.List.Forall2

/-
  Folds and outlines: the lines that folds reach over depend
  on the outline of a scan only, not on how far into a line
  the brackets stand.

  Key definitions include:
    * `Token.SameRank`
    * `FoldRange.Alike`
    * `FoldRange.span`

  Main statements:
    * `FoldRange.scanFrom_filter_isMark`: only marks matter.
    * `FoldRange.forall₂_scanFrom`: marks at other places
      give ranges at other places, with the same lines.
    * `FoldRange.spans_ofTokens`
-/

namespace Highlighter

------------------------------------------------------------
-- Sorting
------------------------------------------------------------

/-
  Two lists that go along with each other still do so when
  they are sorted by orders that agree on them.
-/
theorem forall₂_mergeSort
    {α β : Type}
    {R : α → β → Prop}
    {le : α → α → Bool}
    {le' : β → β → Bool}
    {xs : List α}
    {ys : List β}
    (hLe : ∀ {a b a' b'}, R a a' → R b b' →
      le a b = le' a' b')
    (h : List.Forall₂ R xs ys) :
    List.Forall₂ R (xs.mergeSort le) (ys.mergeSort le') := by
  rcases List.forall₂_iff_zip.mp h with ⟨hLength, hZip⟩
  -- both lists are sorted as the list of pairs is
  let sorted :=
    (xs.zip ys).mergeSort (fun p q => le p.1 q.1)
  have hFst : sorted.map Prod.fst = xs.mergeSort le := by
    rw [List.map_mergeSort (s := le) (fun _ _ _ _ => rfl),
      List.map_fst_zip (Nat.le_of_eq hLength)]
  have hSnd : sorted.map Prod.snd = ys.mergeSort le' := by
    rw [List.map_mergeSort (s := le')
      (fun p hp q hq => hLe (hZip hp) (hZip hq)),
      List.map_snd_zip (Nat.le_of_eq hLength.symm)]
  rw [← hFst, ← hSnd, List.forall₂_map_left_iff,
    List.forall₂_map_right_iff, List.forall₂_same]
  intro p hp
  exact hZip (List.mem_mergeSort.mp hp)

------------------------------------------------------------
-- Places that correspond
------------------------------------------------------------

namespace Token

/- Each token of a tiling ends before the next one does. -/
theorem Tiles.pairwise_stop
    {n : Nat}
    {tokens : List Token}
    {s : Text}
    (h : Tiles n tokens s) :
    tokens.Pairwise (fun t u => t.stop < u.stop) := by
  induction h with
  | nil n => exact List.Pairwise.nil
  | @cons t tokens rest hText hRest ih =>
      refine List.Pairwise.cons ?_ ih
      intro u hu
      have hStart := (hRest.bounds u hu).1
      have hLt := start_lt_stop (hRest.text_ne_nil u hu)
      omega

/-
  Two byte offsets are of the same rank when as many tokens
  of one list end before the first as of another before the
  second, and each is the end of the next.
-/
def SameRank (xs ys : List Token) (m n : Nat) : Prop :=
  ∃ i : Nat, (xs.map stop)[i]? = some m ∧
    (ys.map stop)[i]? = some n

/- The ends of tokens are in the order of the tokens. -/
theorem stop_le_iff
    {tokens : List Token}
    (h : tokens.Pairwise (fun t u => t.stop < u.stop))
    {i j m n : Nat}
    (hm : (tokens.map stop)[i]? = some m)
    (hn : (tokens.map stop)[j]? = some n) :
    m ≤ n ↔ i ≤ j := by
  have hStops : (tokens.map stop).Pairwise (· < ·) :=
    List.pairwise_map.mpr h
  rw [List.pairwise_iff_getElem] at hStops
  rcases List.getElem?_eq_some_iff.mp hm with ⟨hi, rfl⟩
  rcases List.getElem?_eq_some_iff.mp hn with ⟨hj, rfl⟩
  rcases Nat.lt_trichotomy i j with hLt | rfl | hGt
  · have hStop := hStops i j hi hj hLt
    omega
  · simp
  · have hStop := hStops j i hj hi hGt
    omega

/- Offsets of the same rank are in the same order. -/
theorem SameRank.le_iff
    {xs ys : List Token}
    (hxs : xs.Pairwise (fun t u => t.stop < u.stop))
    (hys : ys.Pairwise (fun t u => t.stop < u.stop))
    {m n m' n' : Nat}
    (hm : SameRank xs ys m m')
    (hn : SameRank xs ys n n') : m ≤ n ↔ m' ≤ n' := by
  rcases hm with ⟨i, hLeft, hRight⟩
  rcases hn with ⟨j, hLeft', hRight'⟩
  rw [stop_le_iff hxs hLeft hLeft',
    stop_le_iff hys hRight hRight']

/-
  Two tokens are alike when they are the same but for their
  places, and these go along with each other.
-/
structure Alike (R : Nat → Nat → Prop) (t u : Token) :
    Prop where
  unplaced_eq : t.unplaced = u.unplaced
  stop : R t.stop u.stop

/- Tokens with the same outline are alike one by one. -/
theorem forall₂_alike
    {xs ys : List Token}
    (h : xs.map unplaced = ys.map unplaced) :
    List.Forall₂ (Alike (SameRank xs ys)) xs ys := by
  have hLength : xs.length = ys.length := by
    simpa using congrArg List.length h
  refine List.forall₂_iff_get.mpr ⟨hLength, ?_⟩
  intro i hi hj
  constructor
  · have hAt := congrArg (fun l => l[i]?) h
    simpa [List.getElem?_eq_getElem hi,
      List.getElem?_eq_getElem hj] using hAt
  · exact ⟨i, by simp [List.getElem?_eq_getElem hi],
      by simp [List.getElem?_eq_getElem hj]⟩

end Token

------------------------------------------------------------
-- Ranges
------------------------------------------------------------

namespace FoldRange

/- Two ranges with the same lines and openers that match. -/
structure Alike (R : Nat → Nat → Prop) (r r' : FoldRange) :
    Prop where
  opener : R r.opener r'.opener
  startLine_eq : r.startLine = r'.startLine
  endLine_eq : r.endLine = r'.endLine

/- Two openings on the same line whose ends match. -/
structure Opening.Alike (R : Nat → Nat → Prop)
    (o o' : Opening) : Prop where
  stop : R o.stop o'.stop
  line_eq : o.line = o'.line

/- Openings of both kinds that match one by one. -/
def Openings.Alike (R : Nat → Nat → Prop)
    (o o' : Openings) : Prop :=
  ∀ kind, List.Forall₂ (Opening.Alike R) (o.ofKind kind)
    (o'.ofKind kind)

@[simp]
theorem Openings.ofKind_setKind
    (o : Openings)
    (stack : List Opening)
    (kind other : Bracket) :
    (o.setKind stack kind).ofKind other =
      if kind = other then stack else o.ofKind other := by
  cases kind <;> cases other <;> rfl

/- They still match when one kind of them is replaced. -/
theorem Openings.Alike.setKind
    {R : Nat → Nat → Prop}
    {o o' : Openings}
    (h : Openings.Alike R o o')
    {stack stack' : List Opening}
    (hStack : List.Forall₂ (Opening.Alike R) stack stack')
    (kind : Bracket) :
    Openings.Alike R (o.setKind stack kind)
      (o'.setKind stack' kind) := by
  intro other
  rw [ofKind_setKind, ofKind_setKind]
  split
  · exact hStack
  · exact h other

/- Where a token stands does not matter to its bracket. -/
theorem openedBy_unplaced (t : Token) :
    openedBy t.unplaced = openedBy t := rfl

theorem closedBy_unplaced (t : Token) :
    closedBy t.unplaced = closedBy t := rfl

/- A token that has no effect is passed over. -/
theorem scanFrom_cons_of_not_isMark
    {t : Token}
    (h : t.isMark = false)
    (line : Nat)
    (o : Openings)
    (tokens : List Token) :
    scanFrom line o (t :: tokens) =
      scanFrom line o tokens := by
  rw [Token.isMark, Bool.or_eq_false_iff] at h
  have hEffect : t.effect = Effect.none := by
    simpa [Token.hasEffect] using h.2
  have hOpened : openedBy t = none := by
    simp [openedBy, Bracket.opens, hEffect]
  have hClosed : closedBy t = none := by
    simp [closedBy, Bracket.closes, hEffect]
  simp only [scanFrom, h.1, hOpened, hClosed,
    Bool.false_eq_true, if_false]

/- Only marks matter to folds. -/
theorem scanFrom_filter_isMark
    (line : Nat)
    (o : Openings)
    (tokens : List Token) :
    scanFrom line o (tokens.filter Token.isMark) =
      scanFrom line o tokens := by
  induction tokens generalizing line o with
  | nil => rfl
  | cons t tokens ih =>
      cases hMark : t.isMark with
      | true =>
          rw [List.filter_cons_of_pos hMark]
          simp only [scanFrom, ih]
      | false =>
          rw [List.filter_cons_of_neg (by simp [hMark]), ih,
            scanFrom_cons_of_not_isMark hMark]

/- An opening and a token that closes it, both elsewhere. -/
theorem forall₂_between
    {R : Nat → Nat → Prop}
    {o o' : Opening}
    (h : o.Alike R o')
    (t t' : Token)
    (line : Nat) :
    List.Forall₂ (Alike R) (between o t line)
      (between o' t' line) := by
  unfold between
  rw [h.line_eq]
  split
  · exact List.Forall₂.cons ⟨h.stop, rfl, rfl⟩
      List.Forall₂.nil
  · exact List.Forall₂.nil

/-
  Tokens that are alike close ranges that are alike, one by
  one, in the order of their closing brackets.
-/
theorem forall₂_scanFrom
    {R : Nat → Nat → Prop}
    {tokens tokens' : List Token}
    (h : List.Forall₂ (Token.Alike R) tokens tokens')
    (line : Nat)
    {o o' : Openings}
    (hOpen : o.Alike R o') :
    List.Forall₂ (Alike R) (scanFrom line o tokens)
      (scanFrom line o' tokens') := by
  induction h generalizing line o o' with
  | nil => exact List.Forall₂.nil
  | @cons t t' rest rest' hAlike hRest ih =>
      have hBreak : t.isLineBreak = t'.isLineBreak := by
        rw [← t.isLineBreak_unplaced, hAlike.unplaced_eq,
          Token.isLineBreak_unplaced]
      have hOpened : openedBy t = openedBy t' := by
        rw [← openedBy_unplaced, hAlike.unplaced_eq,
          openedBy_unplaced]
      have hClosed : closedBy t = closedBy t' := by
        rw [← closedBy_unplaced, hAlike.unplaced_eq,
          closedBy_unplaced]
      simp only [scanFrom, hBreak, hOpened, hClosed]
      split
      · exact ih (line + 1) hOpen
      · split
        · -- an opening bracket goes on the stack of its kind
          rename_i kind hKind
          have hNew : Opening.Alike R ⟨t.stop, line⟩
              ⟨t'.stop, line⟩ := ⟨hAlike.stop, rfl⟩
          exact ih line (hOpen.setKind
            (List.Forall₂.cons hNew (hOpen kind)) kind)
        · split
          · exact ih line hOpen
          · -- a closing one takes an opening off, if any
            rename_i kind hKind
            have hStacks := hOpen kind
            cases hStack : o.ofKind kind with
            | nil =>
                rw [hStack] at hStacks
                rw [List.forall₂_nil_left_iff.mp hStacks]
                exact ih line hOpen
            | cons opening stack =>
                rw [hStack] at hStacks
                rcases List.forall₂_cons_left_iff.mp
                    hStacks with
                  ⟨opening', stack', hFirst, hOthers, hEq⟩
                rw [hEq]
                exact List.rel_append
                  (forall₂_between hFirst t t' line)
                  (ih line (hOpen.setKind hOthers kind))

------------------------------------------------------------
-- Spans
------------------------------------------------------------

/- The lines that a range starts and ends on. -/
def span (r : FoldRange) : Nat × Nat :=
  (r.startLine, r.endLine)

/- Ranges that are alike reach over the same lines. -/
theorem map_span_eq
    {R : Nat → Nat → Prop}
    {xs ys : List FoldRange}
    (h : List.Forall₂ (Alike R) xs ys) :
    xs.map span = ys.map span := by
  induction h with
  | nil => rfl
  | cons hAlike hRest ih =>
      rw [List.map_cons, List.map_cons, ih, span, span,
        hAlike.startLine_eq, hAlike.endLine_eq]

/-
  Two tilings with the same outline have folds that start
  and end on the same lines, in the same order.
-/
theorem spans_ofTokens
    {xs ys : List Token}
    {s t : Text}
    (hxs : Token.Tiles 0 xs s)
    (hys : Token.Tiles 0 ys t)
    (h : Token.outline xs = Token.outline ys) :
    (ofTokens xs).map span = (ofTokens ys).map span := by
  have hNone : ∀ R, Openings.Alike R ⟨[], []⟩ ⟨[], []⟩ := by
    intro R kind
    cases kind <;> exact List.Forall₂.nil
  have hScan :=
    forall₂_scanFrom (Token.forall₂_alike h) 0 (hNone _)
  rw [scanFrom_filter_isMark, scanFrom_filter_isMark] at hScan
  apply map_span_eq
  apply forall₂_mergeSort _ hScan
  intro a b a' b' hFirst hSecond
  rw [decide_eq_decide]
  exact Token.SameRank.le_iff (hxs.pairwise_stop.filter _)
    (hys.pairwise_stop.filter _) hFirst.opener
    hSecond.opener

end FoldRange

end Highlighter

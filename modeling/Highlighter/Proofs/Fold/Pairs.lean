import Highlighter.Proofs.Fold
import Highlighter.Proofs.Fold.Balance

/-
  Pairs: an opening and a closing bracket of one kind belong
  together when those of the kind between them are balanced.
  A scan for folds finds these pairs and closes the brackets
  that were open before.

  Key definitions include:
    * `BracketPair`
    * `BracketPair.Matched`
    * `FoldRange.pairs`
    * `FoldRange.openRanges`

  Main statements:
    * `FoldRange.mem_pairs_iff`: the pairs that are found are
      those that belong together.
    * `FoldRange.scanFrom_perm`: a scan gives the ranges of
      the brackets that are open before it and those of its
      own pairs.
-/

namespace Highlighter

------------------------------------------------------------
-- Line breaks
------------------------------------------------------------

namespace Token

/- The number of line breaks among some tokens. -/
def breakCount (tokens : List Token) : Nat :=
  tokens.countP isLineBreak

/- The line after a token on a line. -/
def lineAfter (line : Nat) (t : Token) : Nat :=
  if t.isLineBreak then line + 1 else line

theorem add_breakCount_cons
    (line : Nat)
    (t : Token)
    (tokens : List Token) :
    line + breakCount (t :: tokens) =
      lineAfter line t + breakCount tokens := by
  unfold breakCount lineAfter
  rw [List.countP_cons]
  split <;> omega

end Token

------------------------------------------------------------
-- Pairs
------------------------------------------------------------

/-
  An opening and a closing token, with the tokens before,
  between and after them.
-/
structure BracketPair where
  before : List Token
  opener : Token
  inside : List Token
  closer : Token
  after : List Token
deriving DecidableEq, Repr

namespace BracketPair

/- The tokens that a pair stands among. -/
def tokens (p : BracketPair) : List Token :=
  p.before ++ p.opener :: (p.inside ++ p.closer :: p.after)

/-
  The two belong together: they open and close a bracket of
  a kind, and what is between them is balanced in that kind.
-/
structure Matched (b : Bracket) (p : BracketPair) : Prop where
  opens : b.opens p.opener = true
  closes : b.closes p.closer = true
  balanced : b.Balanced p.inside

/- Is there a line break between the two? -/
def spansLines (p : BracketPair) : Bool :=
  p.inside.any Token.isLineBreak

/-
  The range from the end of the opening bracket to the start
  of the closing one, and the line breaks before each.
-/
def range (p : BracketPair) : FoldRange where
  opener := p.opener.stop
  closer := p.closer.start
  startLine := Token.breakCount p.before
  endLine := Token.breakCount (p.before ++ p.opener :: p.inside)

/- The same pair after one more token. -/
def cons (t : Token) (p : BracketPair) : BracketPair :=
  { p with before := t :: p.before }

/- A token that opens, and what closes it later. -/
def ofClosing (t : Token) (c : Bracket.Closing) :
    BracketPair :=
  ⟨[], t, c.inside, c.closer, c.after⟩

end BracketPair

namespace FoldRange

/- What holds of one kind at most is found of that kind. -/
theorem find?_kind_eq_some_iff
    {p : Bracket → Bool}
    (hOne : ∀ b c, p b = true → p c = true → b = c)
    {b : Bracket} :
    [Bracket.brace, Bracket.square].find? p = some b ↔
      p b = true := by
  constructor
  · exact List.find?_some
  · intro h
    cases hFound :
        [Bracket.brace, Bracket.square].find? p with
    | none =>
        have hNone := List.find?_eq_none.mp hFound b
          (by cases b <;> simp)
        exact absurd h hNone
    | some c => rw [hOne b c h (List.find?_some hFound)]

theorem openedBy_eq_some_iff {b : Bracket} {t : Token} :
    openedBy t = some b ↔ b.opens t = true :=
  find?_kind_eq_some_iff fun _ _ => Bracket.eq_of_opens

theorem closedBy_eq_some_iff {b : Bracket} {t : Token} :
    closedBy t = some b ↔ b.closes t = true :=
  find?_kind_eq_some_iff fun _ _ => Bracket.eq_of_closes

theorem openedBy_eq_none_iff {t : Token} :
    openedBy t = none ↔ ∀ b : Bracket, b.opens t = false := by
  rw [← Option.not_isSome_iff_eq_none,
    Option.isSome_iff_exists]
  simp only [openedBy_eq_some_iff, not_exists,
    Bool.not_eq_true]

theorem closedBy_eq_none_iff {t : Token} :
    closedBy t = none ↔ ∀ b : Bracket, b.closes t = false := by
  rw [← Option.not_isSome_iff_eq_none,
    Option.isSome_iff_exists]
  simp only [closedBy_eq_some_iff, not_exists,
    Bool.not_eq_true]

/- The pair of a token and what closes it, if there is any. -/
def pairAt? (t : Token) (tokens : List Token) :
    Option BracketPair :=
  (openedBy t).bind fun b =>
    (b.closing? 0 tokens).map (BracketPair.ofClosing t)

/- The pairs of brackets among tokens, in order. -/
def pairs : List Token → List BracketPair
  | [] => []
  | t :: tokens =>
      (pairAt? t tokens).toList ++
        (pairs tokens).map (BracketPair.cons t)

theorem pairAt?_eq_some_iff
    {t : Token}
    {tokens : List Token}
    {p : BracketPair} :
    pairAt? t tokens = some p ↔
      p.before = [] ∧ p.tokens = t :: tokens ∧
        ∃ b, p.Matched b := by
  rcases p with ⟨before, opener, inside, closer, after⟩
  simp only [pairAt?, Option.bind_eq_some_iff,
    Option.map_eq_some_iff, openedBy_eq_some_iff,
    Bracket.closing?_eq_some_iff, Bracket.unwinds_zero_iff]
  constructor
  · rintro ⟨b, hOpens, c, ⟨hTokens, hCloses, hBalanced⟩, hEq⟩
    cases hEq
    refine ⟨rfl, ?_, b, hOpens, hCloses, hBalanced⟩
    rw [hTokens]
    rfl
  · rintro ⟨hBefore, hTokens, b, hMatched⟩
    cases hBefore
    cases hTokens
    exact ⟨b, hMatched.opens, ⟨inside, closer, after⟩,
      ⟨rfl, hMatched.closes, hMatched.balanced⟩, rfl⟩

/- The pairs that are found are those that belong together. -/
theorem mem_pairs_iff
    {tokens : List Token}
    {p : BracketPair} :
    p ∈ pairs tokens ↔
      p.tokens = tokens ∧ ∃ b, p.Matched b := by
  induction tokens generalizing p with
  | nil => simp [pairs, BracketPair.tokens]
  | cons t tokens ih =>
      simp only [pairs, List.mem_append, Option.mem_toList,
        pairAt?_eq_some_iff, List.mem_map, ih]
      constructor
      · rintro (⟨-, hTokens, hMatched⟩ |
          ⟨p, ⟨hTokens, b, hMatched⟩, rfl⟩)
        · exact ⟨hTokens, hMatched⟩
        · refine ⟨?_, b, hMatched.opens, hMatched.closes,
            hMatched.balanced⟩
          rw [← hTokens]
          rfl
      · rintro ⟨hTokens, b, hMatched⟩
        rcases p with ⟨before, opener, inside, closer, after⟩
        cases before with
        | nil => exact Or.inl ⟨rfl, hTokens, b, hMatched⟩
        | cons u before =>
            cases hTokens
            exact Or.inr
              ⟨⟨before, opener, inside, closer, after⟩,
                ⟨rfl, b, hMatched.opens, hMatched.closes,
                  hMatched.balanced⟩, rfl⟩

------------------------------------------------------------
-- Ranges of pairs
------------------------------------------------------------

/-
  The range that a bracket is closed with which has a number
  of others inside of it, if it is closed on another line.
-/
def closingRange
    (b : Bracket)
    (line : Nat)
    (tokens : List Token)
    (depth : Nat)
    (o : Opening) : List FoldRange :=
  match b.closing? depth tokens with
  | none => []
  | some c =>
      between o c.closer (line + Token.breakCount c.inside)

/- The same for all open brackets of a kind. -/
def stackRanges
    (b : Bracket)
    (line : Nat)
    (tokens : List Token) : Nat → List Opening → List FoldRange
  | _, [] => []
  | depth, o :: stack =>
      closingRange b line tokens depth o ++
        stackRanges b line tokens (depth + 1) stack

/- The range of a pair, if it spans lines. -/
def pairRange (line : Nat) (p : BracketPair) :
    List FoldRange :=
  between
    ⟨p.opener.stop, line + Token.breakCount p.before⟩
    p.closer
    (line +
      Token.breakCount (p.before ++ p.opener :: p.inside))

theorem closingRange_of_pass
    {b : Bracket}
    {t : Token}
    {depth depth' : Nat}
    (h : b.pass? depth t = some depth')
    (line : Nat)
    (tokens : List Token)
    (o : Opening) :
    closingRange b line (t :: tokens) depth o =
      closingRange b (Token.lineAfter line t) tokens depth'
        o := by
  simp only [closingRange, Bracket.closing?, h]
  cases b.closing? depth' tokens with
  | none => rfl
  | some c =>
      simp only [Option.map_some, Bracket.Closing.cons,
        Token.add_breakCount_cons]

theorem stackRanges_nil
    (b : Bracket)
    (line depth : Nat)
    (stack : List Opening) :
    stackRanges b line [] depth stack = [] := by
  induction stack generalizing depth with
  | nil => rfl
  | cons o stack ih => rw [stackRanges, ih]; rfl

/- A token that is passed leaves the stack to those after. -/
theorem stackRanges_of_pass
    {b : Bracket}
    {t : Token}
    {depth depth' : Nat}
    (h : ∀ i, b.pass? (depth + i) t = some (depth' + i))
    (line : Nat)
    (tokens : List Token)
    (stack : List Opening) :
    stackRanges b line (t :: tokens) depth stack =
      stackRanges b (Token.lineAfter line t) tokens depth'
        stack := by
  induction stack generalizing depth depth' with
  | nil => rfl
  | cons o stack ih =>
      have hNext : ∀ i, b.pass? (depth + 1 + i) t =
          some (depth' + 1 + i) := by
        intro i
        rw [Nat.add_assoc, Nat.add_assoc]
        exact h (1 + i)
      have hHere : b.pass? depth t = some depth' := h 0
      rw [stackRanges, stackRanges, ih hNext,
        closingRange_of_pass hHere]

/- A token of another kind leaves the stack as it is. -/
theorem stackRanges_of_other
    {b : Bracket}
    {t : Token}
    (hOpens : b.opens t = false)
    (hCloses : b.closes t = false)
    (line : Nat)
    (tokens : List Token)
    (stack : List Opening) :
    stackRanges b line (t :: tokens) 0 stack =
      stackRanges b (Token.lineAfter line t) tokens 0
        stack := by
  apply stackRanges_of_pass
  intro i
  simp [Bracket.pass?, hOpens, hCloses]

/- An opening bracket has one more inside of the others. -/
theorem stackRanges_of_opens
    {b : Bracket}
    {t : Token}
    (h : b.opens t = true)
    (line : Nat)
    (tokens : List Token)
    (o : Opening)
    (stack : List Opening) :
    stackRanges b line tokens 0 (o :: stack) =
      closingRange b line tokens 0 o ++
        stackRanges b line (t :: tokens) 0 stack := by
  have hPass : ∀ i, b.pass? (0 + i) t = some (1 + i) := by
    intro i
    have hCloses : b.closes t = false := by
      cases hCloses : b.closes t with
      | false => rfl
      | true =>
          rw [Bracket.opens_eq_false_of_closes hCloses] at h
          cases h
    simp [Bracket.pass?, hCloses, h, Nat.add_comm]
  rw [stackRanges_of_pass hPass, Token.lineAfter,
    Bracket.not_isLineBreak_of_opens h]
  rfl

/- A closing bracket closes the innermost of them. -/
theorem stackRanges_of_closes
    {b : Bracket}
    {t : Token}
    (h : b.closes t = true)
    (line : Nat)
    (tokens : List Token)
    (o : Opening)
    (stack : List Opening) :
    stackRanges b line (t :: tokens) 0 (o :: stack) =
      between o t line ++
        stackRanges b line tokens 0 stack := by
  have hNone : b.pass? 0 t = none :=
    Bracket.pass?_eq_none_iff.mpr ⟨h, rfl⟩
  have hPass : ∀ i, b.pass? (1 + i) t = some (0 + i) := by
    intro i
    simp [Bracket.pass?, h, Nat.add_comm 1 i]
  rw [stackRanges, stackRanges_of_pass hPass,
    Token.lineAfter, Bracket.not_isLineBreak_of_closes h]
  simp only [closingRange, Bracket.closing?, hNone]
  rfl

/- The ranges that open brackets are closed with. -/
def openRanges
    (line : Nat)
    (o : Openings)
    (tokens : List Token) : List FoldRange :=
  stackRanges Bracket.brace line tokens 0
      (o.ofKind Bracket.brace) ++
    stackRanges Bracket.square line tokens 0
      (o.ofKind Bracket.square)

/- A token of no kind leaves all stacks as they are. -/
theorem openRanges_of_other
    {t : Token}
    (hOpens : ∀ b : Bracket, b.opens t = false)
    (hCloses : ∀ b : Bracket, b.closes t = false)
    (line : Nat)
    (o : Openings)
    (tokens : List Token) :
    openRanges line o (t :: tokens) =
      openRanges (Token.lineAfter line t) o tokens := by
  unfold openRanges
  rw [stackRanges_of_other (hOpens _) (hCloses _),
    stackRanges_of_other (hOpens _) (hCloses _)]

/- An opening bracket goes on the stack of its kind. -/
theorem openRanges_of_opens
    {b : Bracket}
    {t : Token}
    (h : b.opens t = true)
    (line : Nat)
    (o : Openings)
    (tokens : List Token) :
    (openRanges line
        (o.setKind (⟨t.stop, line⟩ :: o.ofKind b) b)
        tokens).Perm
      (closingRange b line tokens 0 ⟨t.stop, line⟩ ++
        openRanges line o (t :: tokens)) := by
  have hOther : ∀ other ≠ b, ∀ stack,
      stackRanges other line (t :: tokens) 0 stack =
        stackRanges other line tokens 0 stack := by
    intro other hNe stack
    have hOpens : other.opens t = false := by
      rw [← Bool.not_eq_true]
      exact fun hOpens => hNe (Bracket.eq_of_opens hOpens h)
    rw [stackRanges_of_other hOpens
      (Bracket.closes_eq_false_of_opens h), Token.lineAfter,
      Bracket.not_isLineBreak_of_opens h]
    rfl
  rw [List.perm_iff_count]
  intro r
  cases b with
  | brace =>
      simp [openRanges, stackRanges_of_opens h, hOther]
  | square =>
      simp [openRanges, stackRanges_of_opens h, hOther]
      omega

/- A closing one takes an opening off it, if there is any. -/
theorem openRanges_of_closes
    {b : Bracket}
    {t : Token}
    (h : b.closes t = true)
    (line : Nat)
    (o : Openings)
    (tokens : List Token) :
    (openRanges line o (t :: tokens)).Perm
      ((o.ofKind b).head?.toList.flatMap (between · t line) ++
        openRanges line (o.setKind (o.ofKind b).tail b)
          tokens) := by
  have hOther : ∀ other ≠ b, ∀ stack,
      stackRanges other line (t :: tokens) 0 stack =
        stackRanges other line tokens 0 stack := by
    intro other hNe stack
    have hCloses : other.closes t = false := by
      rw [← Bool.not_eq_true]
      exact fun hCloses => hNe (Bracket.eq_of_closes hCloses h)
    rw [stackRanges_of_other
      (Bracket.opens_eq_false_of_closes h) hCloses,
      Token.lineAfter, Bracket.not_isLineBreak_of_closes h]
    rfl
  have hSame : ∀ stack,
      stackRanges b line (t :: tokens) 0 stack =
        stack.head?.toList.flatMap (between · t line) ++
          stackRanges b line tokens 0 stack.tail := by
    intro stack
    cases stack with
    | nil => rfl
    | cons opening stack =>
        rw [stackRanges_of_closes h]
        simp
  rw [List.perm_iff_count]
  intro r
  cases b with
  | brace => simp [openRanges, hSame, hOther]
  | square =>
      simp [openRanges, hSame, hOther]
      omega

theorem ranges_pairs_cons
    (line : Nat)
    (t : Token)
    (tokens : List Token) :
    (pairs (t :: tokens)).flatMap (pairRange line) =
      (pairAt? t tokens).toList.flatMap (pairRange line) ++
        (pairs tokens).flatMap
          (pairRange (Token.lineAfter line t)) := by
  rw [pairs, List.flatMap_append, List.flatMap_map]
  congr 2
  funext p
  simp only [pairRange, BracketPair.cons, List.cons_append,
    Token.add_breakCount_cons]

/- A token that opens nothing begins no pair. -/
theorem pairAt?_of_not_opens
    {t : Token}
    (h : ∀ b : Bracket, b.opens t = false)
    (tokens : List Token) : pairAt? t tokens = none := by
  rw [pairAt?, openedBy_eq_none_iff.mpr h]
  rfl

/- One that opens begins a pair if it is closed. -/
theorem ranges_pairAt?
    {b : Bracket}
    {t : Token}
    (h : b.opens t = true)
    (line : Nat)
    (tokens : List Token) :
    (pairAt? t tokens).toList.flatMap (pairRange line) =
      closingRange b line tokens 0 ⟨t.stop, line⟩ := by
  have hBreak := Bracket.not_isLineBreak_of_opens h
  have hLine : ∀ us, line + Token.breakCount (t :: us) =
      line + Token.breakCount us := by
    intro us
    rw [Token.add_breakCount_cons, Token.lineAfter, hBreak]
    rfl
  rw [pairAt?, openedBy_eq_some_iff.mpr h, closingRange]
  simp only [Option.bind_some]
  cases b.closing? 0 tokens with
  | none => rfl
  | some c =>
      simp only [Option.map_some, Option.toList_some,
        List.flatMap_singleton, pairRange,
        BracketPair.ofClosing, List.nil_append, hLine]
      rfl

/-
  A scan closes the brackets that are open before it and its
  own pairs, in some order.
-/
theorem scanFrom_perm
    (line : Nat)
    (o : Openings)
    (tokens : List Token) :
    (scanFrom line o tokens).Perm
      (openRanges line o tokens ++
        (pairs tokens).flatMap (pairRange line)) := by
  induction tokens generalizing line o with
  | nil => simp [scanFrom, openRanges, stackRanges_nil, pairs]
  | cons t tokens ih =>
      rw [ranges_pairs_cons]
      cases hBreak : t.isLineBreak with
      | true =>
          have hOpens : ∀ b : Bracket, b.opens t = false := by
            intro b
            rw [← Bool.not_eq_true]
            intro hOpens
            rw [Bracket.not_isLineBreak_of_opens hOpens]
              at hBreak
            cases hBreak
          have hCloses : ∀ b : Bracket, b.closes t = false := by
            intro b
            rw [← Bool.not_eq_true]
            intro hCloses
            rw [Bracket.not_isLineBreak_of_closes hCloses]
              at hBreak
            cases hBreak
          rw [openRanges_of_other hOpens hCloses,
            pairAt?_of_not_opens hOpens]
          simp only [scanFrom, hBreak, if_true]
          have hLine : Token.lineAfter line t = line + 1 :=
            if_pos hBreak
          rw [hLine]
          exact ih (line + 1) o
      | false =>
          have hLine : Token.lineAfter line t = line := by
            simp [Token.lineAfter, hBreak]
          simp only [scanFrom, hBreak, Bool.false_eq_true,
            if_false]
          cases hOpened : openedBy t with
          | some b =>
              have hOpens := openedBy_eq_some_iff.mp hOpened
              have hPush :=
                openRanges_of_opens hOpens line o tokens
              rw [hLine, ranges_pairAt? hOpens]
              refine (ih line _).trans ?_
              refine (hPush.append_right _).trans ?_
              rw [← List.append_assoc]
              exact List.perm_append_comm.append_right _
          | none =>
              have hOpens := openedBy_eq_none_iff.mp hOpened
              rw [hLine, pairAt?_of_not_opens hOpens]
              simp only [Option.toList_none,
                List.flatMap_nil, List.nil_append]
              cases hClosed : closedBy t with
              | none =>
                  rw [openRanges_of_other hOpens
                    (closedBy_eq_none_iff.mp hClosed), hLine]
                  exact ih line o
              | some b =>
                  have hPop := openRanges_of_closes
                    (closedBy_eq_some_iff.mp hClosed) line o
                    tokens
                  refine List.Perm.trans ?_
                    (hPop.symm.append_right _)
                  cases hStack : o.ofKind b with
                  | nil =>
                      have hSame : o.setKind [] b = o := by
                        rw [← hStack]
                        cases b <;> rfl
                      simpa [hStack, hSame] using ih line o
                  | cons opening stack =>
                      simp only [hStack, List.head?_cons,
                        Option.toList_some,
                        List.flatMap_singleton, List.tail_cons,
                        List.append_assoc]
                      exact (ih line _).append_left _

end FoldRange

end Highlighter

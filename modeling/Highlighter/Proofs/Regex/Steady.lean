import Highlighter.Regex.Source

/-
  Readers of written expressions that do not notice a
  closing bracket behind their text: what they read stays,
  and the bracket is left over.

  Key definitions include:
    * `Regex.Steady`
    * `Regex.Reading.openNamed`

  Main statements:
    * `Regex.Steady.bind`: one reader after another.
    * `Regex.readClassItems_append`
    * `Regex.Reading.steady_step`: a step is steady.
-/

namespace Highlighter

------------------------------------------------------------
-- Characters up to a delimiter
------------------------------------------------------------

namespace Text

variable {t : Text}
variable {p : Char → Bool}

/- They stay when a character that ends them follows. -/
theorem takeWhile_append_singleton
    {d : Char}
    (h : p d = false)
    (t : Text) :
    (t ++ [d]).takeWhile p = t.takeWhile p := by
  rw [List.takeWhile_append]
  split
  · rename_i hLength
    rw [List.takeWhile_cons_of_neg (by simp [h]),
      List.append_nil]
    exact ((List.takeWhile_prefix p).eq_of_length hLength).symm
  · rfl

/- They stay whatever follows once they have ended. -/
theorem takeWhile_append_of_ends
    (h : t.drop (t.takeWhile p).length ≠ [])
    (more : Text) :
    (t ++ more).takeWhile p = t.takeWhile p := by
  rw [List.takeWhile_append, if_neg]
  intro hLength
  rw [hLength, List.drop_length] at h
  exact h rfl

/- If they never ended, one more of them belongs to them. -/
theorem takeWhile_append_singleton_of_not_ends
    (h : t.drop (t.takeWhile p).length = [])
    {d : Char}
    (hd : p d = true) :
    (t ++ [d]).takeWhile p = t ++ [d] := by
  have hLength : (t.takeWhile p).length = t.length :=
    Nat.le_antisymm (List.takeWhile_prefix p).length_le
      (List.drop_eq_nil_iff.mp h)
  rw [List.takeWhile_append, if_pos hLength,
    List.takeWhile_cons_of_pos hd, List.takeWhile_nil]

/- What is behind them goes on with what follows. -/
theorem drop_takeWhile_append
    (p : Char → Bool)
    (t more : Text) :
    (t ++ more).drop (t.takeWhile p).length =
      t.drop (t.takeWhile p).length ++ more :=
  List.drop_append_of_le_length
    (List.takeWhile_prefix p).length_le

/- A character in front is left out the same way. -/
theorem dropWhile_append_singleton
    {d : Char}
    (h : p d = false)
    (t : Text) :
    (t ++ [d]).dropWhile p = t.dropWhile p ++ [d] := by
  rw [List.dropWhile_append]
  split
  · rename_i hEmpty
    rw [List.isEmpty_iff.mp hEmpty, List.nil_append,
      List.dropWhile_cons_of_neg (by simp [h])]
  · rfl

/- A text begins with a mark whatever else follows it. -/
theorem beq_head?_append_singleton
    {mark d : Char}
    (h : (d == mark) = false)
    (t : Text) :
    ((t ++ [d]).head? == some mark) =
      (t.head? == some mark) := by
  cases t with
  | nil => exact h
  | cons c t => rfl

/- What is behind the mark goes on with it as well. -/
theorem drop_mark_append
    (mark : Char)
    (t more : Text) :
    (if (t.head? == some mark) = true then
      (t ++ more).drop 1
    else
      t ++ more) =
    (if (t.head? == some mark) = true then
      t.drop 1
    else
      t) ++ more := by
  cases t with
  | nil => rfl
  | cons c t => split <;> rfl

end Text

namespace Regex

------------------------------------------------------------
-- Readers
------------------------------------------------------------

/-
  What a reader reads of a text stays when a closing bracket
  follows the text.
-/
def Steady {α : Type}
    (read : Text → Option (α × Text)) : Prop :=
  ∀ t a rest, read t = some (a, rest) →
    read (t ++ [')']) = some (a, rest ++ [')'])

section

variable {α β : Type}

/- Reading nothing is steady. -/
theorem steady_some (a : α) :
    Steady fun t => some (a, t) := by
  intro t a' rest h
  cases h
  rfl

/- So is failing or not without a look at the text. -/
theorem steady_map (answer : Option α) :
    Steady fun t => answer.map fun a => (a, t) := by
  cases answer with
  | none =>
      intro t a rest h
      cases h
  | some a => exact steady_some a

theorem steady_none :
    Steady (α := α) fun _ => none := by
  intro t a rest h
  cases h

/- One of two readers is steady if both are. -/
theorem Steady.ite
    {c : Prop}
    [Decidable c]
    {first second : Text → Option (α × Text)}
    (hFirst : Steady first)
    (hSecond : Steady second) :
    Steady fun t => if c then first t else second t := by
  split
  · exact hFirst
  · exact hSecond

/- One reader after another is steady if both are. -/
theorem Steady.bind
    {read : Text → Option (α × Text)}
    {next : α → Text → Option (β × Text)}
    (hRead : Steady read)
    (hNext : ∀ a, Steady (next a)) :
    Steady fun t => (read t).bind fun x => next x.1 x.2 := by
  intro t b rest h
  rcases Option.bind_eq_some_iff.mp h with
    ⟨⟨a, behind⟩, hFirst, hThen⟩
  simp only [hRead t a behind hFirst, Option.bind_some]
  exact hNext a behind b rest hThen

end

theorem steady_readHex (width : Nat) :
    Steady (readHex width) := by
  intro t c rest h
  unfold readHex at h
  split at h
  · -- in braces
    rename_i t
    dsimp only at h
    split at h
    · cases h
    · rename_i last rest' hDrop
      have hSame := Text.takeWhile_append_of_ends
        (hDrop ▸ List.cons_ne_nil last rest') [')']
      simp only [List.cons_append, readHex, hSame,
        Text.drop_takeWhile_append, hDrop]
      split at h
      · cases h
      · rename_i hEmpty
        simp only [Option.bind_eq_bind,
          Option.bind_eq_some_iff] at h
        rcases h with ⟨n, hn, x, hx, hc⟩
        cases hc
        simp [hEmpty, hn, hx]
  · rename_i hBrace
    dsimp only at h
    split at h
    · cases h
    · rename_i hWidth
      rw [List.length_take] at hWidth
      have hLe : width ≤ t.length := by omega
      simp only [Option.bind_eq_bind,
        Option.bind_eq_some_iff] at h
      rcases h with ⟨n, hn, x, hx, hc⟩
      cases hc
      unfold readHex
      split
      · rename_i rest hEq
        cases t with
        | nil => cases hEq
        | cons d t =>
            cases hEq
            exact absurd rfl (hBrace t)
      · rw [List.take_append_of_le_length hLe,
          List.drop_append_of_le_length hLe]
        simp [hn, hx, hLe]

theorem steady_readDecimal : Steady readDecimal := by
  intro t n rest h
  unfold readDecimal at h ⊢
  have hTrim : ∀ s : Text,
      Text.trimStart (s ++ [')']) = s.trimStart ++ [')'] :=
    Text.dropWhile_append_singleton rfl
  have hDigits : ∀ s : Text,
      (s ++ [')']).takeWhile Text.isAsciiDigit =
        s.takeWhile Text.isAsciiDigit :=
    Text.takeWhile_append_singleton rfl
  simp only [hTrim, hDigits, Text.drop_takeWhile_append]
  dsimp only at h
  split at h
  · cases h
  · rename_i hValue
    cases h
    rw [if_neg hValue]

theorem steady_readEdge : Steady readEdge := by
  intro t e rest h
  unfold readEdge at h
  split at h
  · rename_i c t
    split at h
    · rename_i hc
      dsimp only at h
      split at h
      · rename_i rest' hDrop
        rw [Option.map_eq_some_iff] at h
        rcases h with ⟨edge, hEdge, hRest⟩
        cases hRest
        have hName := Text.takeWhile_append_singleton
          (p := isEdgeNameChar) (d := ')') rfl (c :: t)
        have hBehind := Text.drop_takeWhile_append
          isEdgeNameChar (c :: t) [')']
        rw [hDrop] at hBehind
        rw [List.cons_append] at hName hBehind
        simp only [List.cons_append, readEdge, hc, hName,
          hBehind, hEdge]
        rfl
      · cases h
    · rename_i hc
      cases h
      simp [readEdge, hc]
  · cases h
  · rename_i hBrace hAlone
    cases h
    cases t with
    | nil => rfl
    | cons d t =>
        unfold readEdge
        split
        · rename_i hEq
          cases t with
          | nil =>
              cases hEq
              exact absurd rfl hAlone
          | cons c t =>
              cases hEq
              exact absurd rfl (hBrace _ _)
        · rename_i hEq
          simp at hEq
        · rfl

theorem steady_readEscape (flags : Flags) :
    Steady (readEscape flags) := by
  intro t a rest h
  cases t with
  | nil => cases h
  | cons c t =>
      rw [List.cons_append]
      unfold readEscape at h ⊢
      dsimp only at h ⊢
      split at h
      case h_7 =>
        -- digits in braces may go beyond ASCII
        rw [bne] at h ⊢
        rw [Text.beq_head?_append_singleton rfl]
        generalize (t.head? == some '{') = braced at h ⊢
        have hAtom : ∀ x : Char, Steady fun t =>
            if (!flags.unicode && decide (0x80 ≤ x.toNat) &&
                !braced) = true then
              none
            else
              some (Atom.char x, t) :=
          fun x => steady_none.ite (steady_some (Atom.char x))
        exact (steady_readHex 2).bind hAtom t a rest h
      case h_22 =>
        -- a character that stands for itself
        exact (steady_some (Atom.char c)).ite steady_none
          t a rest h
      all_goals first
        | exact steady_some _ t a rest h
        | exact steady_map _ t a rest h
        | exact (steady_readHex _).bind
            (fun x => steady_some (Atom.char x)) t a rest h
        | exact steady_readEdge.bind (fun e => steady_some
            (Atom.assert (flags.wordAssertion e))) t a rest h

------------------------------------------------------------
-- Classes
------------------------------------------------------------

theorem steady_readClassAtom (flags : Flags) :
    Steady (readClassAtom flags) := by
  intro t a rest h
  unfold readClassAtom at h
  split at h
  · cases h
  · rename_i t
    exact steady_readEscape flags t a rest h
  · rename_i c t hNot
    cases h
    rw [List.cons_append]
    unfold readClassAtom
    split
    · rename_i hEq
      cases hEq
    · rename_i hEq
      cases hEq
      exact absurd rfl hNot
    · rename_i hEq
      cases hEq
      rfl

theorem steady_readRange (flags : Flags) :
    Steady (readRange flags) := by
  intro t s rest h
  unfold readRange at h ⊢
  simp only [Option.bind_eq_bind, Option.bind_eq_some_iff] at h
  rcases h with ⟨⟨first, behind⟩, hFirst, h⟩
  have hFirst' :=
    steady_readClassAtom flags t first behind hFirst
  simp only [hFirst', Option.bind_eq_bind, Option.bind_some]
  dsimp only at h
  split at h
  · cases h
  · exact steady_map _ _ s rest h
  · exact steady_map _ _ s rest h
  · -- a range has a second end
    rename_i behind hBracket hHyphen
    rcases Option.bind_eq_some_iff.mp h with
      ⟨⟨second, after⟩, hSecond, hRange⟩
    have hSecond' :=
      steady_readClassAtom flags behind second after hSecond
    rcases behind with - | ⟨d, behind⟩
    · cases hSecond
    have hd : d ≠ ']' ∧ d ≠ '-' := by
      constructor
      · rintro rfl
        exact hBracket behind rfl
      · rintro rfl
        exact hHyphen behind rfl
    rw [List.cons_append] at hSecond'
    dsimp only at hRange
    split at hRange
    · split at hRange
      · rename_i hBetween
        cases hRange
        simpa [hd, hSecond'] using hBetween
      · cases hRange
    · cases hRange
  · -- another character follows
    rename_i hNil hBracket hTwo hHyphen
    rcases behind with - | ⟨d, behind⟩
    · exact absurd rfl hNil
    have hd : d ≠ '-' := by
      rintro rfl
      exact hHyphen behind rfl
    have hAlone := steady_map (atomSet? flags first) _ s rest h
    simpa [hd] using hAlone

/- A range takes a character and sees one behind it. -/
theorem exists_cons_cons_of_readRange
    {flags : Flags}
    {t : Text}
    {x : CharSet × Text}
    (h : readRange flags t = some x) :
    ∃ a b rest, t = a :: b :: rest := by
  rcases t with - | ⟨a, - | ⟨b, rest⟩⟩
  · simp [readRange, readClassAtom] at h
  · by_cases ha : a = '\\'
    · subst ha
      simp [readRange, readClassAtom, readEscape] at h
    · simp [readRange, readClassAtom] at h
  · exact ⟨a, b, rest, rfl⟩

/- A named class stays, and so does one that is none. -/
theorem steady_readNamedClass : Steady readNamedClass := by
  intro t s rest h
  unfold readNamedClass at h
  split at h
  · rename_i t
    have hNot : (')' == '^') = false := rfl
    simp only [List.cons_append, readNamedClass,
      Text.beq_head?_append_singleton hNot,
      Text.drop_mark_append]
    dsimp only at h
    generalize (t.head? == some '^') = negated at h ⊢
    generalize (if negated = true then t.drop 1 else t) = name
      at h ⊢
    split at h
    · rename_i behind hDrop
      have hSame := Text.takeWhile_append_of_ends
        (hDrop ▸ List.cons_ne_nil _ _) [')']
      rcases Option.map_eq_some_iff.mp h with
        ⟨chars, hChars, hEq⟩
      cases hEq
      simp only [hSame, Text.drop_takeWhile_append, hDrop,
        List.cons_append, hChars, Option.map_some]
    · cases h
  · cases h

theorem readNamedClass_append_eq_none
    {t : Text}
    (h : readNamedClass t = none) :
    readNamedClass (t ++ [')']) = none := by
  cases t with
  | nil => rfl
  | cons c t =>
      by_cases hc : c = ':'
      · subst hc
        have hNot : (')' == '^') = false := rfl
        simp only [List.cons_append, readNamedClass,
          Text.beq_head?_append_singleton hNot,
          Text.drop_mark_append] at h ⊢
        generalize (t.head? == some '^') = negated at h ⊢
        generalize (if negated = true then t.drop 1 else t) =
          name at h ⊢
        by_cases hEnds : name.drop
            (name.takeWhile (· != ':')).length = []
        · rw [Text.takeWhile_append_singleton_of_not_ends hEnds
            rfl, List.drop_length]
        · rw [Text.takeWhile_append_of_ends hEnds,
            Text.drop_takeWhile_append]
          generalize name.drop
            (name.takeWhile (· != ':')).length = behind
            at h hEnds ⊢
          rcases behind with - | ⟨a, - | ⟨b, behind⟩⟩
          · exact absurd rfl hEnds
          · simp
          · by_cases hab : a = ':' ∧ b = ']'
            · rcases hab with ⟨rfl, rfl⟩
              exact Option.map_eq_none_iff.mpr
                (Option.map_eq_none_iff.mp h)
            · rw [List.cons_append, List.cons_append]
              split
              · rename_i hEq
                cases hEq
                exact absurd ⟨rfl, rfl⟩ hab
              · rfl
      · simp [readNamedClass, hc]

/- Nothing of what opens a class is a round bracket. -/
theorem openClass_append (t : Text) :
    openClass (t ++ [')']) =
      ((openClass t).1, (openClass t).2 ++ [')']) := by
  have hNot : (')' == '^') = false := rfl
  unfold openClass
  simp only [Text.beq_head?_append_singleton hNot,
    Text.drop_mark_append]
  generalize (t.head? == some '^') = negated
  generalize (if negated = true then t.drop 1 else t) = t
  rw [Text.takeWhile_append_singleton rfl,
    Text.drop_takeWhile_append]
  generalize t.drop (t.takeWhile (· == '-')).length = behind
  generalize (t.takeWhile (· == '-')).map
    (fun c => ClassPart.simple (CharSet.single c)) = items
  cases items with
  | cons item items => rfl
  | nil =>
      cases behind with
      | nil => rfl
      | cons c behind =>
          by_cases hc : c = ']'
          · subst hc
            rfl
          · simp [hc]

theorem readClassItems_append
    {flags : Flags}
    {ahead : Text}
    {o : OpenClass}
    {outer : List OpenClass}
    {t : Text}
    {part : ClassPart}
    {rest : Text}
    (h : readClassItems flags ahead o outer t =
      some (part, rest))
    (more : Text) :
    readClassItems flags (ahead ++ more) o outer
      (t ++ [')']) = some (part, rest ++ [')']) := by
  induction ahead generalizing o outer t with
  | nil => cases h
  | cons c ahead ih =>
      rw [List.cons_append]
      unfold readClassItems at h
      split at h
      · cases h
      · rename_i t
        simp only [List.cons_append, readClassItems]
        split at h
        · rename_i s behind hNamed
          simp only [steady_readNamedClass _ _ _ hNamed]
          exact ih h
        · rename_i hNamed
          simp only [readNamedClass_append_eq_none hNamed,
            openClass_append]
          exact ih h
      · rename_i t
        simp only [List.cons_append, readClassItems]
        split at h
        · split at h
          · rename_i hAllows
            cases h
            simp only [hAllows, if_true]
          · cases h
        · exact ih h
      · simp only [List.cons_append, readClassItems]
        exact ih h
      · simp only [List.cons_append, readClassItems]
        exact ih h
      · simp only [List.cons_append, readClassItems]
        exact ih h
      · split at h
        · cases h
        · rename_i s behind hRange
          have hRange' :=
            steady_readRange flags _ s behind hRange
          rename_i hOpen hClose hInter hDiff hSymm _
          rcases exists_cons_cons_of_readRange hRange with
            ⟨a, b, t, rfl⟩
          rw [List.cons_append, List.cons_append] at hRange' ⊢
          -- which part comes is told by two characters
          unfold readClassItems
          split
          · rename_i hEq
            cases hEq
          · rename_i hEq
            cases hEq
            exact absurd rfl (hOpen _)
          · rename_i hEq
            cases hEq
            exact absurd rfl (hClose _)
          · rename_i hEq
            cases hEq
            exact absurd rfl (hInter _)
          · rename_i hEq
            cases hEq
            exact absurd rfl (hDiff _)
          · rename_i hEq
            cases hEq
            exact absurd rfl (hSymm _)
          · simp only [hRange']
            exact ih h

theorem steady_readClass (flags : Flags) :
    Steady (readClass flags) := by
  intro t part rest h
  unfold readClass at h ⊢
  rw [openClass_append]
  exact readClassItems_append h [')']

------------------------------------------------------------
-- Repetitions and groups
------------------------------------------------------------

namespace Reading

theorem steady_repeatLast
    (low : Nat)
    (high : Option Nat)
    (r : Reading) : Steady (repeatLast low high r) := by
  intro t r' rest h
  have hNot : (')' == '?') = false := rfl
  unfold repeatLast at h ⊢
  simp only [Text.beq_head?_append_singleton hNot,
    Text.drop_mark_append]
  split at h
  · dsimp only at h
    split at h
    · rename_i hHeight
      cases h
      rw [if_pos hHeight]
    · cases h
  · cases h

theorem steady_readBounds : Steady readBounds := by
  intro t bounds rest h
  unfold readBounds at h ⊢
  simp only [Option.bind_eq_bind, Option.bind_eq_some_iff] at h
  rcases h with ⟨⟨low, behind⟩, hLow, h⟩
  simp only [steady_readDecimal t low behind hLow,
    Option.bind_eq_bind, Option.bind_some]
  dsimp only at h
  split at h
  · cases h
    rfl
  · cases h
    rfl
  · -- an upper bound
    rename_i behind hBrace
    rcases Option.bind_eq_some_iff.mp h with
      ⟨⟨high, after⟩, hHigh, hRange⟩
    have hHigh' := steady_readDecimal behind high after hHigh
    dsimp only at hRange
    split at hRange
    · split at hRange
      · rename_i hLe
        cases hRange
        rcases behind with - | ⟨d, behind⟩
        · simp [readDecimal, Text.trimStart] at hHigh
        · have hd : d ≠ '}' := by
            rintro rfl
            exact hBrace behind rfl
          rw [List.cons_append] at hHigh'
          simp [hd, hHigh', hLe]
      · cases hRange
    · cases hRange
  · cases h

theorem steady_readName : Steady readName := by
  intro t name rest h
  unfold readName at h
  dsimp only at h
  split at h
  · rename_i c chars d behind hName hDrop
    have hSame := Text.takeWhile_append_of_ends
      (hDrop ▸ List.cons_ne_nil d behind) [')']
    unfold readName
    simp only [hSame, Text.drop_takeWhile_append, hDrop]
    rw [hName]
    exact (steady_some (c :: chars)).ite steady_none
      behind name rest h
  · cases h

/- Open a group that captures, by the name it is given. -/
def openNamed (r : Reading) (t : Text) :
    Option (Reading × Text) :=
  (readName t).bind fun x =>
    if r.names.contains x.1 then
      none
    else
      some
        ({ r.openCapture with names := x.1 :: r.names }, x.2)

theorem steady_openNamed (r : Reading) :
    Steady r.openNamed := by
  have hOpen : ∀ name : Text, Steady fun t =>
      if r.names.contains name = true then
        none
      else
        some ({ r.openCapture with names := name :: r.names },
          t) :=
    fun name => steady_none.ite (steady_some _)
  exact steady_readName.bind hOpen

theorem steady_readGroup (r : Reading) :
    Steady (readGroup r) := by
  intro t r' rest h
  unfold readGroup at h
  split at h
  · exact steady_openNamed r _ r' rest h
  · exact steady_openNamed r _ r' rest h
  · rename_i t hName hAngle
    -- no name begins with the bracket at the end
    have hName' : ∀ more, t ++ [')'] ≠ 'P' :: '<' :: more := by
      rcases t with - | ⟨a, - | ⟨b, t⟩⟩
      · simp
      · simp
      · intro more hEq
        cases hEq
        exact hName t rfl
    have hAngle' : ∀ more, t ++ [')'] ≠ '<' :: more := by
      rcases t with - | ⟨a, t⟩
      · simp
      · intro more hEq
        cases hEq
        exact hAngle t rfl
    rw [List.cons_append]
    unfold readGroup
    split
    · rename_i hEq
      exact absurd (List.cons.inj hEq).2 (hName' _)
    · rename_i hEq
      exact absurd (List.cons.inj hEq).2 (hAngle' _)
    · rename_i hEq
      rcases (List.cons.inj hEq).2 with rfl
      rw [Text.takeWhile_append_singleton rfl]
      dsimp only at h ⊢
      rw [Text.drop_takeWhile_append]
      split at h
      · rename_i behind hDrop
        simp only [hDrop, List.cons_append]
        rcases Option.bind_eq_some_iff.mp h with
          ⟨flags, hFlags, hGroup⟩
        cases hGroup
        rw [hFlags]
        rfl
      · rename_i d behind hColon hDrop
        split at h
        · cases h
        · rename_i hLetters
          rcases Option.bind_eq_some_iff.mp h with
            ⟨flags, hFlags, hSwitch⟩
          cases hSwitch
          simp [hDrop, hLetters, hFlags]
      · cases h
    · rename_i hMark
      exact absurd rfl (hMark _)
  · rename_i hMark
    cases h
    cases t with
    | nil => rfl
    | cons a t =>
        have ha : a ≠ '?' := by
          rintro rfl
          exact hMark t rfl
        simp [readGroup, ha]

/- A step is steady, whichever character it reads. -/
theorem steady_step (r : Reading) (c : Char) :
    Steady (step r c) := by
  intro t r' rest h
  unfold step at h ⊢
  dsimp only at h ⊢
  split at h
  · exact steady_readGroup r t r' rest h
  · exact steady_map _ t r' rest h
  · exact steady_some _ t r' rest h
  · exact (steady_readClass r.flags).bind
      (fun s => steady_some (r.add (Regex.set s.chars) s.height))
      t r' rest h
  · exact steady_repeatLast 0 (some 1) r t r' rest h
  · exact steady_repeatLast 0 none r t r' rest h
  · exact steady_repeatLast 1 none r t r' rest h
  · exact steady_readBounds.bind
      (fun bounds => steady_repeatLast bounds.1 bounds.2 r)
      t r' rest h
  · exact (steady_some _).ite steady_none t r' rest h
  · exact steady_some _ t r' rest h
  · exact steady_some _ t r' rest h
  · exact (steady_readEscape r.flags).bind
      (fun a => steady_some (r.addAtom a)) t r' rest h
  · exact steady_some _ t r' rest h

end Reading

end Regex

end Highlighter

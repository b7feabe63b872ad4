import Highlighter.Proofs.Toml.Spelling

/-
  Strings and keys of TOML documents: what is written for
  them is read as what they were.

  Key definitions include:
    * `Toml.Style.Fits`

  Main statements:
    * `Toml.spells_escape`
    * `Toml.styleOf_fits`
    * `Toml.readString_writeString`
-/

namespace Highlighter

namespace Toml

------------------------------------------------------------
-- Writing
------------------------------------------------------------

/- What is no control character is plain or a line feed. -/
theorem isPlain_of_not_isControl
    {c : Char}
    (hControl : isControl c = false)
    (hFeed : c ≠ '\n') : isPlain c = true := by
  unfold isControl at hControl
  unfold isPlain
  by_cases hTab : c = '\t'
  · simp [hTab]
  · simp [hTab, hFeed] at hControl ⊢
    omega

/- An escaped text spells the text. -/
theorem spells_escape (isLong : Bool) (n : Nat) (t : Text) :
    Spells '"' isLong true n (escape isLong n t) t := by
  induction t generalizing n with
  | nil => exact Spells.nil
  | cons c t ih =>
      have hLetter : ∀ {e : Char}, escaped? e = some c →
          Spells '"' isLong true n
            ('\\' :: e :: escape isLong 0 t) (c :: t) :=
        fun h => Spells.escape rfl (isEscape_letter h) (ih 0)
      unfold escape
      split
      · rename_i hQuote
        subst hQuote
        split
        · rename_i hBoth
          exact Spells.quote hBoth.1 hBoth.2 (ih (n + 1))
        · exact hLetter rfl
      · rename_i hQuote
        split
        · rename_i hFeed
          subst hFeed
          split
          · rename_i hLong
            exact Spells.newline hLong (ih 0)
          · exact hLetter rfl
        · rename_i hFeed
          split
          · rename_i hTab
            exact hLetter (by rw [hTab]; rfl)
          split
          · rename_i hReturn
            exact hLetter (by rw [hReturn]; rfl)
          split
          · rename_i hBackslash
            exact hLetter (by rw [hBackslash]; rfl)
          rename_i hBackslash
          split
          · rename_i hCode
            exact hLetter
              (by rw [← Char.ofNat_toNat c, hCode]; rfl)
          split
          · rename_i hCode
            exact hLetter
              (by rw [← Char.ofNat_toNat c, hCode]; rfl)
          split
          · rename_i hControl
            apply Spells.escape rfl (isEscape_code _) (ih 0)
            simp [isControl] at hControl
            omega
          · rename_i hControl
            exact Spells.plain
              (isPlain_of_not_isControl
                (Bool.eq_false_iff.mpr hControl) hFeed)
              hQuote (fun _ => hBackslash) (ih 0)

/- A plain text without apostrophes spells itself. -/
theorem spells_literal
    {t : Text}
    (h : ∀ c ∈ t, isPlain c = true ∧ c ≠ '\'')
    (n : Nat) : Spells '\'' false false n t t := by
  induction t generalizing n with
  | nil => exact Spells.nil
  | cons c t ih =>
      rcases h c (List.mem_cons_self ..) with ⟨hPlain, hQuote⟩
      exact Spells.plain hPlain hQuote (fun h => nomatch h)
        (ih (fun d hd => h d (List.mem_cons_of_mem c hd)) 0)

/- Where three marks stand, they do so further on too. -/
theorem hasThree_append
    {mark : Char}
    {t : Text}
    (h : hasThree mark t = true)
    (s : Text) : hasThree mark (s ++ t) = true := by
  induction s with
  | nil => exact h
  | cons c s ih =>
      rw [List.cons_append, hasThree, ih, Bool.or_true]

theorem hasThree_replicate
    (mark : Char)
    {n : Nat}
    (hn : 3 ≤ n)
    (t : Text) :
    hasThree mark (List.replicate n mark ++ t) = true := by
  rcases Nat.exists_eq_add_of_le hn with ⟨k, rfl⟩
  rw [← List.replicate_append_replicate, List.append_assoc]
  simp [List.replicate_succ, hasThree]

/-
  A text of plain characters and line feeds spells itself in
  a long form without escapes, if no three marks are in it.
-/
theorem spells_longLiteral
    {t : Text}
    (h : ∀ c ∈ t, c = '\n' ∨ isPlain c = true)
    {n : Nat}
    (hThree :
      hasThree '\'' (List.replicate n '\'' ++ t) = false) :
    Spells '\'' true false n t t := by
  induction t generalizing n with
  | nil => exact Spells.nil
  | cons c t ih =>
      have hTail : ∀ d ∈ t, d = '\n' ∨ isPlain d = true :=
        fun d hd => h d (List.mem_cons_of_mem c hd)
      have hAfter : hasThree '\''
          (List.replicate 0 '\'' ++ t) = false := by
        apply Bool.eq_false_iff.mpr
        intro hTrue
        have hLater := hasThree_append hTrue
          (List.replicate n '\'' ++ [c])
        rw [List.append_assoc] at hLater
        rw [show [c] ++ (List.replicate 0 '\'' ++ t) = c :: t
          from rfl, hThree] at hLater
        cases hLater
      by_cases hQuote : c = '\''
      · subst hQuote
        have hText :
            List.replicate n '\'' ++ '\'' :: t =
              List.replicate (n + 1) '\'' ++ t := by
          rw [← List.replicate_append_replicate,
            List.append_assoc]
          rfl
        rw [hText] at hThree
        have hFew : n < 2 := by
          apply Nat.lt_of_not_le
          intro hMany
          rw [hasThree_replicate '\'' (by omega)] at hThree
          cases hThree
        exact Spells.quote rfl hFew (ih hTail hThree)
      · rcases h c (List.mem_cons_self ..) with rfl | hPlain
        · exact Spells.newline rfl (ih hTail hAfter)
        · exact Spells.plain hPlain hQuote
            (fun h => nomatch h) (ih hTail hAfter)

------------------------------------------------------------
-- Forms
------------------------------------------------------------

/- A form that a text can be written in. -/
def Style.Fits (t : Text) : Style → Prop
  | Style.basic => True
  | Style.literal => ∀ c ∈ t, isPlain c = true ∧ c ≠ '\''
  | Style.longBasic => True
  | Style.longLiteral =>
      (∀ c ∈ t, c = '\n' ∨ isPlain c = true) ∧
        hasThree '\'' t = false

/- The form that is chosen for a text fits it. -/
theorem styleOf_fits (t : Text) : (styleOf t).Fits t := by
  have hPlain :
      (!t.any isControl) = true →
        ∀ c ∈ t, c = '\n' ∨ isPlain c = true := by
    intro hNone c hc
    by_cases hFeed : c = '\n'
    · exact Or.inl hFeed
    · right
      apply isPlain_of_not_isControl _ hFeed
      simp only [Bool.not_eq_true', List.any_eq_false] at hNone
      exact Bool.eq_false_iff.mpr (hNone c hc)
  dsimp only [styleOf]
  split
  · trivial
  split
  · rename_i hLiteral
    simp only [Bool.and_eq_true, Bool.not_eq_true',
      List.contains_eq_mem, decide_eq_false_iff_not]
      at hLiteral
    intro c hc
    constructor
    · rcases hPlain (by simp [hLiteral.1.1]) c hc with rfl | h
      · exact absurd hc hLiteral.1.2
      · exact h
    · rintro rfl
      exact hLiteral.2 hc
  split
  · trivial
  split
  · rename_i hLong
    simp only [Bool.and_eq_true] at hLong
    exact ⟨hPlain hLong.1, by simpa using hLong.2⟩
  split <;> trivial

/- The line break after the opening marks is skipped. -/
theorem openLong_opening
    {quote : Char}
    {isLong escapes : Bool}
    {n : Nat}
    {b t : Text}
    (hQuote : IsQuote quote)
    (h : Spells quote isLong escapes n b t)
    (rest : Text) :
    openLong (opening t ++ (b ++ closing quote ++ rest)) =
      b ++ closing quote ++ rest := by
  unfold opening
  split
  · rfl
  · rename_i hNone
    have hHead :
        (b ++ closing quote ++ rest).head? ≠ some '\n' := by
      intro hFeed
      cases hText : b with
      | nil =>
          rw [hText] at hFeed
          exact hQuote.ne_newline (Option.some.inj hFeed).symm
      | cons c b =>
          rw [hText] at hFeed
          have hStart := h.head?_newline hQuote
            (by rw [hText]; exact hFeed)
          apply hNone
          rw [List.contains_eq_mem, decide_eq_true_eq]
          exact List.mem_of_head? hStart
    rw [List.nil_append]
    unfold openLong lineBreak? expect
    split
    · rename_i hNil
      rw [hNil]
      rfl
    · rename_i hText
      rw [hText] at hHead ⊢
      rw [if_neg (by simpa using hHead), Option.getD_none]

theorem writeStyled_basic (t rest : Text) :
    writeStyled t Style.basic ++ rest =
      '"' :: (escape false 0 t ++ '"' :: rest) := by
  simp [writeStyled]

theorem writeStyled_literal (t rest : Text) :
    writeStyled t Style.literal ++ rest =
      '\'' :: (t ++ '\'' :: rest) := by
  simp [writeStyled]

/- The marks of a short form are not those of a long one. -/
theorem Spells.ne_marks
    {quote : Char}
    {escapes : Bool}
    {n : Nat}
    {b t rest : Text}
    (hQuote : IsQuote quote)
    (h : Spells quote false escapes n b t)
    (hRest : rest.head? ≠ some quote)
    (more : Text) :
    b ++ quote :: rest ≠ quote :: quote :: more := by
  intro hText
  cases hInside : b with
  | nil =>
      rw [hInside] at hText
      apply hRest
      rw [(List.cons.inj hText).2]
      rfl
  | cons c b =>
      rw [hInside] at hText
      apply h.head?_ne_quote hQuote
      rw [hInside, (List.cons.inj hText).1]
      rfl

theorem readString_quote
    {t : Text}
    (h : ∀ more, t ≠ '"' :: '"' :: more) :
    readString ('"' :: t) = readBasic (t.length + 2) t := by
  unfold readString
  split
  · rename_i hText
    exact absurd (List.cons.inj hText).2 (h _)
  · rename_i hText
    rw [← (List.cons.inj hText).2]
    rfl
  · rename_i hText
    cases hText
  · rename_i hText
    cases hText
  · rename_i hNone _ _
    exact absurd rfl (hNone t)

theorem readString_mark
    {t : Text}
    (h : ∀ more, t ≠ '\'' :: '\'' :: more) :
    readString ('\'' :: t) = readLiteral t := by
  unfold readString
  split
  · rename_i hText
    cases hText
  · rename_i hText
    cases hText
  · rename_i hText
    exact absurd (List.cons.inj hText).2 (h _)
  · rename_i hText
    rw [← (List.cons.inj hText).2]
  · rename_i hNone
    exact absurd rfl (hNone t)

/- A string in a form that fits it is read as it was. -/
theorem readString_writeStyled
    {t : Text}
    {s : Style}
    (hFits : s.Fits t)
    {rest : Text}
    (hQuote : rest.head? ≠ some '"')
    (hMark : rest.head? ≠ some '\'') :
    readString (writeStyled t s ++ rest) = some (t, rest) := by
  cases s with
  | basic =>
      have hSpells := spells_escape false 0 t
      have hLength := hSpells.length_le
      rw [writeStyled_basic, readString_quote
        (hSpells.ne_marks (Or.inl rfl) hQuote)]
      apply hSpells.readBasic_eq
      simp only [List.length_append]
      omega
  | literal =>
      have hSpells := spells_literal hFits 0
      rw [writeStyled_literal, readString_mark
        (hSpells.ne_marks (Or.inr rfl) hMark)]
      exact hSpells.readLiteral_eq rest
  | longBasic =>
      have hSpells := spells_escape true 0 t
      have hLength := hSpells.length_le
      have hText :
          writeStyled t Style.longBasic ++ rest =
            '"' :: '"' :: '"' :: (opening t ++
              (escape true 0 t ++ closing '"' ++ rest)) := by
        simp [writeStyled, closing]
      rw [hText]
      simp only [readString]
      rw [openLong_opening (Or.inl rfl) hSpells]
      apply hSpells.readLong_eq (Or.inl rfl) (Nat.zero_le 2)
        hQuote
      simp only [List.length_cons, List.length_append]
      omega
  | longLiteral =>
      have hSpells :
          Spells '\'' true false 0 t t :=
        spells_longLiteral hFits.1 hFits.2
      have hText :
          writeStyled t Style.longLiteral ++ rest =
            '\'' :: '\'' :: '\'' :: (opening t ++
              (t ++ closing '\'' ++ rest)) := by
        simp [writeStyled, closing]
      rw [hText]
      simp only [readString]
      rw [openLong_opening (Or.inr rfl) hSpells]
      apply hSpells.readLong_eq (Or.inr rfl) (Nat.zero_le 2)
        hMark
      simp only [List.length_cons, List.length_append]
      omega

/- No carriage return is in a string in a form that fits. -/
theorem return_notMem_writeStyled
    {t : Text}
    {s : Style}
    (hFits : s.Fits t) : '\r' ∉ writeStyled t s := by
  have hOpening : '\r' ∉ opening t := by
    unfold opening
    split <;> simp
  cases s with
  | basic =>
      have hInside := (spells_escape false 0 t).noReturn
        (Or.inl rfl)
      simp [writeStyled, hInside]
  | literal =>
      have hInside := (spells_literal hFits 0).noReturn
        (Or.inr rfl)
      simp [writeStyled, hInside]
  | longBasic =>
      have hInside := (spells_escape true 0 t).noReturn
        (Or.inl rfl)
      simp [writeStyled, hOpening, hInside]
  | longLiteral =>
      have hInside :=
        (spells_longLiteral (n := 0) hFits.1 hFits.2).noReturn
          (Or.inr rfl)
      simp [writeStyled, hOpening, hInside]

/- A string is read as the text that it was written for. -/
theorem readString_writeString
    (t : Text)
    {rest : Text}
    (hQuote : rest.head? ≠ some '"')
    (hMark : rest.head? ≠ some '\'') :
    readString (writeString t ++ rest) = some (t, rest) :=
  readString_writeStyled (styleOf_fits t) hQuote hMark

theorem return_notMem_writeString (t : Text) :
    '\r' ∉ writeString t :=
  return_notMem_writeStyled (styleOf_fits t)

------------------------------------------------------------
-- Keys
------------------------------------------------------------

/- The characters that a written key starts with. -/
def isKeyStart (c : Char) : Bool :=
  isBareKeyChar c || c == '"' || c == '\''

/- A text that goes on with no character of a bare key. -/
def EndsKey (rest : Text) : Prop :=
  ∀ c, rest.head? = some c → isBareKeyChar c = false

/- A key is written bare, or quoted in a form that fits. -/
theorem writeKey_cases (key : String) :
    (writeKey key = key.toList ∧ key.toList ≠ [] ∧
      ∀ c ∈ key.toList, isBareKeyChar c = true) ∨
    (writeKey key = writeStyled key.toList Style.literal ∧
      Style.literal.Fits key.toList) ∨
    writeKey key = writeStyled key.toList Style.basic := by
  dsimp only [writeKey]
  split
  · rename_i hBare
    exact Or.inl ⟨rfl, hBare.1, List.all_eq_true.mp hBare.2⟩
  split
  · rename_i hLiteral
    refine Or.inr (Or.inl ⟨rfl, ?_⟩)
    rw [Bool.and_eq_true, List.all_eq_true] at hLiteral
    intro c hc
    have hChar := hLiteral.2 c hc
    simp only [isLiteralKeyChar, Bool.and_eq_true,
      Bool.not_eq_true', bne_iff_ne] at hChar
    exact ⟨isPlain_of_not_isControl hChar.1.1 hChar.1.2,
      hChar.2⟩
  · exact Or.inr (Or.inr rfl)

theorem writeKey_head (key : String) :
    ∃ c rest, writeKey key = c :: rest ∧
      isKeyStart c = true := by
  rcases writeKey_cases key with
    ⟨hText, hSome, hBare⟩ | ⟨hText, _⟩ | hText
  · rcases List.exists_cons_of_ne_nil hSome with
      ⟨c, rest, hCons⟩
    refine ⟨c, rest, by rw [hText, hCons], ?_⟩
    simp [isKeyStart, hBare c (by simp [hCons])]
  · exact ⟨'\'', _, hText, rfl⟩
  · exact ⟨'"', _, hText, rfl⟩

theorem return_notMem_writeKey (key : String) :
    '\r' ∉ writeKey key := by
  rcases writeKey_cases key with
    ⟨hText, _, hBare⟩ | ⟨hText, hFits⟩ | hText
  · rw [hText]
    intro hMem
    cases hBare _ hMem
  · rw [hText]
    exact return_notMem_writeStyled hFits
  · rw [hText]
    exact return_notMem_writeStyled trivial

/- A key in no quotes ends where no character of one is. -/
theorem readKey_bare
    {t : Text}
    (hSome : t ≠ [])
    (hBare : ∀ c ∈ t, isBareKeyChar c = true)
    {rest : Text}
    (hRest : EndsKey rest) :
    readKey (t ++ rest) = some (String.ofList t, rest) := by
  have hKey : (t ++ rest).takeWhile isBareKeyChar = t := by
    rw [List.takeWhile_append_of_pos hBare]
    cases rest with
    | nil => simp
    | cons c rest =>
        rw [List.takeWhile_cons_of_neg
          (by simp [hRest c rfl]), List.append_nil]
  unfold readKey
  split
  · rename_i hText
    rw [hText] at hKey
    rw [← hKey] at hSome
    exact absurd rfl hSome
  · rename_i hText
    rw [hText] at hKey
    rw [← hKey] at hSome
    exact absurd rfl hSome
  · simp only [hKey, List.isEmpty_iff, if_neg hSome,
      List.drop_left]

/- A key is read as what it was written for. -/
theorem readKey_writeKey
    (key : String)
    {rest : Text}
    (hRest : EndsKey rest) :
    readKey (writeKey key ++ rest) = some (key, rest) := by
  rcases writeKey_cases key with
    ⟨hText, hSome, hBare⟩ | ⟨hText, hFits⟩ | hText
  · rw [hText, readKey_bare hSome hBare hRest,
      String.ofList_toList]
  · have hSpells := spells_literal hFits 0
    rw [hText, writeStyled_literal]
    simp only [readKey, hSpells.readLiteral_eq, Option.map_some,
      String.ofList_toList]
  · have hSpells := spells_escape false 0 key.toList
    have hLength := hSpells.length_le
    rw [hText, writeStyled_basic]
    simp only [readKey]
    rw [hSpells.readBasic_eq rest (by
      simp only [List.length_cons, List.length_append]
      omega)]
    simp only [Option.map_some, String.ofList_toList]

end Toml

end Highlighter

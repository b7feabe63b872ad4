import Mathlib.Data.List.Forall2
import Highlighter.Proofs.Toml.Scalars

/-
  The sections of a TOML document: headers and the lines
  under them are read as what they were written for.

  Key definitions include:
    * `Toml.ownPairs`
    * `Toml.LinesOf`
    * `Toml.EndsLines`
    * `Toml.IsBlock`

  Main statements:
    * `Toml.readKeyPath_writePath`
    * `Toml.readPairs_writeLines`
    * `Toml.readSections_joinBlocks`
-/

namespace Highlighter

namespace Toml

------------------------------------------------------------
-- Blanks and line breaks
------------------------------------------------------------

theorem skipBlanks_of_not_isBlank
    {c : Char}
    (h : isBlank c = false)
    (t : Text) : skipBlanks (c :: t) = c :: t := by
  rw [skipBlanks, List.dropWhile_cons_of_neg (by simp [h])]

/- No key and no value starts with a blank. -/
theorem isBlank_eq_false
    {c : Char}
    (h : isKeyStart c = true ∨ isValueStart c = true) :
    isBlank c = false := by
  apply Bool.eq_false_iff.mpr
  intro hBlank
  rcases Bool.or_eq_true_iff.mp hBlank with hSpace | hTab
  · rw [beq_iff_eq.mp hSpace] at h
    rcases h with h | h <;> cases h
  · rw [beq_iff_eq.mp hTab] at h
    rcases h with h | h <;> cases h

/- Lines are skipped up to what is on one of them. -/
theorem skipLines_eq
    {c : Char}
    (hBlank : isBlank c = false)
    (hComment : c ≠ '#')
    (hFeed : c ≠ '\n')
    (fuel : Nat)
    (t : Text) :
    skipLines (fuel + 1) (c :: t) = some (c :: t) := by
  rw [skipLines, skipBlanks_of_not_isBlank hBlank]
  split
  · rename_i hEq
    cases hEq
  · rename_i hEq
    exact absurd (List.cons.inj hEq).1 hComment
  · rename_i hEq
    exact absurd (List.cons.inj hEq).1 hFeed
  · rfl

theorem skipLines_isKeyStart
    {c : Char}
    (h : isKeyStart c = true)
    (fuel : Nat)
    (t : Text) :
    skipLines (fuel + 1) (c :: t) = some (c :: t) := by
  apply skipLines_eq (isBlank_eq_false (Or.inl h))
  · rintro rfl
    cases h
  · rintro rfl
    cases h

/- A text without carriage returns keeps its line feeds. -/
theorem unifyBreaks_eq
    {t : Text}
    (h : '\r' ∉ t) : unifyBreaks t = some t := by
  induction t with
  | nil => rfl
  | cons c t ih =>
      have hFirst : c ≠ '\r' := by
        rintro rfl
        exact h (List.mem_cons_self ..)
      have hRest := ih fun hMem =>
        h (List.mem_cons_of_mem c hMem)
      rw [unifyBreaks.eq_def]
      split
      · rename_i hEq
        cases hEq
      · rename_i hEq
        exact absurd (List.cons.inj hEq).1 hFirst
      · rename_i hEq
        cases hEq
        rw [if_neg hFirst, hRest, Option.map_some]

------------------------------------------------------------
-- Paths of keys
------------------------------------------------------------

theorem writePath_cons
    {path : List String}
    (h : path ≠ [])
    (key : String) :
    writePath (key :: path) =
      writeKey key ++ '.' :: writePath path := by
  cases path with
  | nil => exact absurd rfl h
  | cons k path => rfl

theorem skipBlanks_writeKey (key : String) (rest : Text) :
    skipBlanks (writeKey key ++ rest) =
      writeKey key ++ rest := by
  rcases writeKey_head key with ⟨c, t, hText, hStart⟩
  rw [hText, List.cons_append,
    skipBlanks_of_not_isBlank (isBlank_eq_false (Or.inl hStart))]

/- Keys with dots between them are read as the keys. -/
theorem readKeyPath_writePath
    (path : List String)
    (key : String)
    {rest : Text}
    (hRest : EndsKey rest)
    (hDot : (skipBlanks rest).head? ≠ some '.')
    {fuel : Nat}
    (hFuel : path.length < fuel) :
    readKeyPath fuel (writePath (path ++ [key]) ++ rest) =
      some ((path, key), skipBlanks rest) := by
  induction path generalizing fuel with
  | nil =>
      cases fuel with
      | zero => cases hFuel
      | succ fuel =>
          rw [List.nil_append, writePath, readKeyPath,
            skipBlanks_writeKey, readKey_writeKey key hRest]
          simp only
          split
          · rename_i hEq
            rw [hEq] at hDot
            exact absurd rfl hDot
          · rfl
  | cons k path ih =>
      cases fuel with
      | zero => cases hFuel
      | succ fuel =>
          have hMore :
              EndsKey ('.' :: (writePath (path ++ [key]) ++
                rest)) := by
            intro c hc
            cases hc
            rfl
          rw [List.cons_append, writePath_cons (by simp),
            List.append_assoc, List.cons_append, readKeyPath,
            skipBlanks_writeKey, readKey_writeKey k hMore]
          simp only
          rw [skipBlanks_of_not_isBlank rfl]
          simp only
          rw [ih (Nat.lt_of_succ_lt_succ hFuel),
            Option.map_some]

theorem return_notMem_writePath (path : List String) :
    '\r' ∉ writePath path := by
  induction path with
  | nil => simp [writePath]
  | cons key path ih =>
      by_cases hLast : path = []
      · rw [hLast]
        exact return_notMem_writeKey key
      · rw [writePath_cons hLast]
        simp [return_notMem_writeKey key, ih]

------------------------------------------------------------
-- Lines
------------------------------------------------------------

/- The entries of a table that are no tables, as pairs. -/
def ownPairs : List (String × Data) → List Pair
  | [] => []
  | (_, Data.map _) :: rest => ownPairs rest
  | (key, d) :: rest => ⟨[], key, d⟩ :: ownPairs rest

/- Is a value a table? -/
def IsTable (d : Data) : Prop := ∃ entries, d = Data.map entries

theorem ownPairs_value
    {d : Data}
    (h : ¬IsTable d)
    (key : String)
    (rest : List (String × Data)) :
    ownPairs ((key, d) :: rest) =
      ⟨[], key, d⟩ :: ownPairs rest := by
  cases d with
  | map entries => exact absurd ⟨entries, rfl⟩ h
  | null | bool | int | real | text | list => rfl

/- A value that is no table makes up a line. -/
theorem writeLines_value
    {d : Data}
    (h : ¬IsTable d)
    (key : String)
    (rest : List (String × Data)) :
    writeLines ((key, d) :: rest) =
      (writeScalar d).bind fun v =>
        (writeLines rest).map fun others =>
          writeKey key ++ ([' ', '=', ' '] ++
            (v ++ '\n' :: others)) := by
  have hLine :
      writeLines ((key, d) :: rest) =
        (writeScalar d).bind fun v =>
          (writeLines rest).bind fun others =>
            some (writeKey key ++ [' ', '=', ' '] ++ v ++
              '\n' :: others) := by
    cases d with
    | map entries => exact absurd ⟨entries, rfl⟩ h
    | null | bool | int | real | text | list => rfl
  simp only [hLine, List.append_assoc, Option.map_eq_bind,
    Function.comp_def]

/- The lines of the entries of a table that are no tables. -/
inductive LinesOf : List (String × Data) → Text → Prop
  | nil : LinesOf [] []
  | table
      {key : String}
      {inner entries : List (String × Data)}
      {lines : Text}
      (hRest : LinesOf entries lines) :
      LinesOf ((key, Data.map inner) :: entries) lines
  | value
      {key : String}
      {d : Data}
      {v : Text}
      {entries : List (String × Data)}
      {lines : Text}
      (hTable : ¬IsTable d)
      (hValue : writeScalar d = some v)
      (hRest : LinesOf entries lines) :
      LinesOf ((key, d) :: entries)
        (writeKey key ++ ([' ', '=', ' '] ++
          (v ++ '\n' :: lines)))

theorem linesOf_writeLines
    {entries : List (String × Data)}
    {lines : Text}
    (h : writeLines entries = some lines) :
    LinesOf entries lines := by
  induction entries generalizing lines with
  | nil =>
      cases h
      exact LinesOf.nil
  | cons entry entries ih =>
      rcases entry with ⟨key, d⟩
      by_cases hTable : IsTable d
      · rcases hTable with ⟨inner, rfl⟩
        exact LinesOf.table (ih h)
      · rw [writeLines_value hTable, Option.bind_eq_some_iff]
          at h
        rcases h with ⟨v, hValue, hMore⟩
        rcases Option.map_eq_some_iff.mp hMore with
          ⟨others, hOthers, rfl⟩
        exact LinesOf.value hTable hValue (ih hOthers)

/-
  What may follow the lines of a table: the end of the
  document, or the next header, with an empty line before
  it unless it comes first.
-/
inductive EndsLines : Text → Text → Prop
  | stop : EndsLines [] []
  | header (more : Text) : EndsLines ('[' :: more) ('[' :: more)
  | gap (more : Text) :
      EndsLines ('\n' :: '[' :: more) ('[' :: more)

theorem EndsLines.readPairs_eq
    {tail rest : Text}
    (h : EndsLines tail rest)
    (fuel : Nat) :
    readPairs (fuel + 1) tail = some ([], rest) := by
  cases h with
  | stop => rfl
  | header more =>
      rw [readPairs, skipLines_eq rfl (by decide) (by decide)]
      rfl
  | gap more =>
      have hSkip :
          skipLines (('\n' :: '[' :: more).length + 1)
              ('\n' :: '[' :: more) = some ('[' :: more) := by
        rw [skipLines, skipBlanks_of_not_isBlank rfl]
        exact skipLines_eq rfl (by decide) (by decide) _ _
      rw [readPairs, hSkip]
      rfl

/- A key with a value is read as what they were. -/
theorem readPair_writeScalar
    (key : String)
    {d : Data}
    {v : Text}
    (h : writeScalar d = some v)
    (depth : Nat)
    (more : Text) :
    readPair (readValue depth)
        (writeKey key ++ ([' ', '=', ' '] ++
          (v ++ '\n' :: more))) =
      some (⟨[], key, d⟩, '\n' :: more) := by
  have hValue := readValue_writeScalar more h depth
  have hAfter : skipBlanks ('\n' :: more) = '\n' :: more :=
    skipBlanks_of_not_isBlank rfl more
  have hBlanks :
      skipBlanks (' ' :: (v ++ '\n' :: more)) =
        v ++ '\n' :: more := by
    rcases writeScalar_head h with ⟨c, rest, rfl, hStart⟩
    have hSpace :
        skipBlanks (' ' :: (c :: rest ++ '\n' :: more)) =
          skipBlanks (c :: (rest ++ '\n' :: more)) := rfl
    rw [hSpace, skipBlanks_of_not_isBlank
      (isBlank_eq_false (Or.inr hStart)), List.cons_append]
  have hEquals :
      skipBlanks ([' ', '=', ' '] ++ (v ++ '\n' :: more)) =
        '=' :: ' ' :: (v ++ '\n' :: more) := rfl
  have hEnds :
      EndsKey ([' ', '=', ' '] ++ (v ++ '\n' :: more)) := by
    intro c hc
    cases hc
    rfl
  have hKey := readKeyPath_writePath [] key hEnds
    (by rw [hEquals]; simp)
    (by decide : [].length < pathLimit)
  rw [List.nil_append, writePath, hEquals] at hKey
  simp only [readPair, hKey, bind, Option.bind, expect, if_true,
    hBlanks, hValue, hAfter]

theorem endLine_newline (more : Text) :
    endLine ('\n' :: more) = some more := by
  rw [endLine, skipBlanks_of_not_isBlank rfl]
  rfl

theorem readPairs_isKeyStart
    {c : Char}
    (h : isKeyStart c = true)
    (fuel : Nat)
    (t : Text) :
    readPairs (fuel + 1) (c :: t) =
      match readPair (readValue depthLimit) (c :: t) with
      | none => none
      | some (p, rest) =>
          match endLine rest with
          | none => none
          | some rest =>
              (readPairs fuel rest).map
                fun (pairs, rest) => (p :: pairs, rest) := by
  rw [readPairs, skipLines_isKeyStart h]
  split
  · rename_i hEq
    cases hEq
  · rename_i hEq
    cases hEq
  · rename_i hEq
    cases hEq
    cases h
  · rename_i hEq
    cases hEq
    rfl

section

variable
  {entries : List (String × Data)}
  {lines : Text}

/- The lines of a table are read as its pairs. -/
theorem LinesOf.readPairs_eq
    (h : LinesOf entries lines)
    {tail rest : Text}
    (hTail : EndsLines tail rest)
    {fuel : Nat}
    (hFuel : lines.length < fuel) :
    readPairs fuel (lines ++ tail) =
      some (ownPairs entries, rest) := by
  induction h generalizing fuel with
  | nil =>
      cases fuel with
      | zero => cases hFuel
      | succ fuel => exact hTail.readPairs_eq fuel
  | table hRest ih => exact ih hFuel
  | @value key d v entries lines hTable hValue hRest ih =>
      have hPair := readPair_writeScalar key hValue depthLimit
        (lines ++ tail)
      rcases writeKey_head key with ⟨c, t, hText, hStart⟩
      simp only [hText, List.cons_append, List.length_cons,
        List.length_append, List.append_assoc, List.nil_append]
        at hPair hFuel ⊢
      cases fuel with
      | zero => cases hFuel
      | succ fuel =>
          rw [readPairs_isKeyStart hStart, hPair]
          simp only
          rw [endLine_newline]
          simp only
          rw [ih (by omega), ownPairs_value hTable,
            Option.map_some]

/- They are read to the end of what is there. -/
theorem readPairs_writeLines
    (h : writeLines entries = some lines)
    {tail rest : Text}
    (hTail : EndsLines tail rest) :
    readPairs ((lines ++ tail).length + 1) (lines ++ tail) =
      some (ownPairs entries, rest) := by
  apply (linesOf_writeLines h).readPairs_eq hTail
  rw [List.length_append]
  omega

/- The lines of a table are none or start with a key. -/
theorem LinesOf.head
    (h : LinesOf entries lines) :
    (lines = [] ∧ ownPairs entries = []) ∨
      ∃ c t, lines = c :: t ∧ isKeyStart c = true := by
  induction h with
  | nil => exact Or.inl ⟨rfl, rfl⟩
  | table hRest ih => exact ih
  | @value key d v entries lines hTable hValue hRest ih =>
      rcases writeKey_head key with ⟨c, t, hText, hStart⟩
      exact Or.inr ⟨c, _, by rw [hText]; rfl, hStart⟩

theorem LinesOf.return_notMem
    (h : LinesOf entries lines) : '\r' ∉ lines := by
  induction h with
  | nil => simp
  | table hRest ih => exact ih
  | @value key d v entries lines hTable hValue hRest ih =>
      simp [return_notMem_writeKey key,
        return_notMem_writeScalar hValue, ih]

end

------------------------------------------------------------
-- Headers
------------------------------------------------------------

/-
  A block of a document for a section: the header with its
  path, and the lines of a table with its pairs.
-/
structure IsBlock (s : Section) (block : Text) : Prop where
  noElement : s.isElement = false
  shallow : s.path.length < pathLimit
  text :
    ∃ entries lines, writeLines entries = some lines ∧
      s.pairs = ownPairs entries ∧
      block = '[' :: (writePath (s.path ++ [s.key]) ++
        (']' :: '\n' :: lines))

/- A path starts like its first key. -/
theorem writePath_head
    (path : List String)
    (key : String) :
    ∃ c t, writePath (path ++ [key]) = c :: t ∧
      isKeyStart c = true := by
  cases path with
  | nil => exact writeKey_head key
  | cons k path =>
      rcases writeKey_head k with ⟨c, t, hText, hStart⟩
      rw [List.cons_append, writePath_cons (by simp), hText]
      exact ⟨c, _, rfl, hStart⟩

/- The text of a block after its first bracket. -/
theorem IsBlock.readHeader_eq
    {s : Section}
    {block : Text}
    (h : IsBlock s block)
    {tail rest : Text}
    (hTail : EndsLines tail rest) :
    ∃ c t, block ++ tail = '[' :: c :: t ∧ c ≠ '[' ∧
      readHeader false (c :: t) = some (s, rest) := by
  rcases s with ⟨isElement, path, key, pairs⟩
  rcases h with
    ⟨hElement, hShallow, entries, lines, hLines, hPairs, rfl⟩
  simp only at hElement hShallow hPairs ⊢
  subst hElement hPairs
  rcases writePath_head path key with ⟨c, t, hPath, hStart⟩
  refine ⟨c, t ++ (']' :: '\n' :: (lines ++ tail)), ?_, ?_, ?_⟩
  · rw [hPath]
    simp
  · rintro rfl
    cases hStart
  · have hBracket :
        skipBlanks (']' :: '\n' :: (lines ++ tail)) =
          ']' :: '\n' :: (lines ++ tail) :=
      skipBlanks_of_not_isBlank rfl _
    have hEnds : EndsKey (']' :: '\n' :: (lines ++ tail)) := by
      intro d hd
      cases hd
      rfl
    have hKeys := readKeyPath_writePath path key hEnds
      (by rw [hBracket]; simp) hShallow
    have hAll := readPairs_writeLines hLines hTail
    rw [hPath, List.cons_append, hBracket] at hKeys
    simp only [readHeader, hKeys, bind, Option.bind, expect,
      if_true, Bool.false_eq_true, if_false, endLine_newline,
      hAll]

theorem IsBlock.return_notMem
    {s : Section}
    {block : Text}
    (h : IsBlock s block) : '\r' ∉ block := by
  rcases h.text with ⟨entries, lines, hLines, _, rfl⟩
  simp [return_notMem_writePath,
    (linesOf_writeLines hLines).return_notMem]

------------------------------------------------------------
-- Blocks
------------------------------------------------------------

/- Blocks that come after another. -/
def moreBlocks : List Text → Text
  | [] => []
  | block :: blocks => '\n' :: joinBlocks (block :: blocks)

theorem joinBlocks_cons
    (block : Text)
    (blocks : List Text) :
    joinBlocks (block :: blocks) =
      block ++ moreBlocks blocks := by
  cases blocks with
  | nil => exact (List.append_nil block).symm
  | cons other blocks => rfl

section

variable
  {sections : List Section}
  {blocks : List Text}

/- There are no blocks, or the first has a header. -/
theorem joinBlocks_head
    (h : List.Forall₂ IsBlock sections blocks) :
    blocks = [] ∨ ∃ more, joinBlocks blocks = '[' :: more := by
  cases h with
  | nil => exact Or.inl rfl
  | cons hBlock hBlocks =>
      rcases hBlock.text with ⟨_, lines, _, _, rfl⟩
      right
      rw [joinBlocks_cons]
      exact ⟨_, rfl⟩

/- Blocks end the lines of what comes before them. -/
theorem endsLines_joinBlocks
    (h : List.Forall₂ IsBlock sections blocks) :
    EndsLines (joinBlocks blocks) (joinBlocks blocks) := by
  rcases joinBlocks_head h with rfl | ⟨more, hText⟩
  · exact EndsLines.stop
  · rw [hText]
    exact EndsLines.header more

theorem endsLines_moreBlocks
    (h : List.Forall₂ IsBlock sections blocks) :
    EndsLines (moreBlocks blocks) (joinBlocks blocks) := by
  rcases joinBlocks_head h with rfl | ⟨more, hText⟩
  · exact EndsLines.stop
  · cases blocks with
    | nil => cases hText
    | cons block blocks =>
        rw [moreBlocks, hText]
        exact EndsLines.gap more

theorem return_notMem_joinBlocks
    (h : List.Forall₂ IsBlock sections blocks) :
    '\r' ∉ joinBlocks blocks := by
  induction h with
  | nil => simp [joinBlocks]
  | @cons _ block _ blocks hBlock hBlocks ih =>
      have hMore : '\r' ∉ moreBlocks blocks := by
        cases blocks with
        | nil => simp [moreBlocks]
        | cons other blocks => simpa [moreBlocks] using ih
      rw [joinBlocks_cons]
      simp [hBlock.return_notMem, hMore]

/- Blocks are read as the sections that they are for. -/
theorem readSections_joinBlocks
    (h : List.Forall₂ IsBlock sections blocks)
    {fuel : Nat}
    (hFuel : sections.length < fuel) :
    readSections fuel (joinBlocks blocks) = some sections := by
  induction h generalizing fuel with
  | nil =>
      cases fuel with
      | zero => cases hFuel
      | succ fuel => rfl
  | cons hBlock hBlocks ih =>
      cases fuel with
      | zero => cases hFuel
      | succ fuel =>
          rcases hBlock.readHeader_eq
              (endsLines_moreBlocks hBlocks) with
            ⟨c, t, hText, hNot, hHeader⟩
          rw [joinBlocks_cons, hText, readSections.eq_def]
          simp only
          split
          · rename_i hEq
            cases hEq
          · rename_i hEq
            exact absurd
              (List.cons.inj (List.cons.inj hEq).2).1 hNot
          · rename_i hEq
            cases hEq
            rw [hHeader]
            simp only
            rw [ih (Nat.lt_of_succ_lt_succ hFuel),
              Option.map_some]
          · rename_i hNone
            exact absurd rfl (hNone _)

theorem length_le_joinBlocks
    (h : List.Forall₂ IsBlock sections blocks) :
    sections.length ≤ (joinBlocks blocks).length := by
  induction h with
  | nil => exact Nat.le_refl _
  | @cons _ block _ blocks hBlock hBlocks ih =>
      rcases hBlock.text with ⟨_, lines, _, _, rfl⟩
      have hLength :
          (joinBlocks blocks).length ≤
            (moreBlocks blocks).length := by
        cases blocks with
        | nil => exact Nat.le_refl _
        | cons other blocks => exact Nat.le_succ _
      rw [joinBlocks_cons]
      simp only [List.length_cons, List.length_append]
      omega

end

/-
  The lines of the outermost table and the blocks of the
  others are read as its pairs and their sections.
-/
theorem read_blocks
    {entries : List (String × Data)}
    {lines : Text}
    (hLines : writeLines entries = some lines)
    {sections : List Section}
    {blocks : List Text}
    (hBlocks : List.Forall₂ IsBlock sections blocks) :
    read (joinBlocks (ownBlock [] entries.isEmpty lines ++
        blocks)) =
      (insertAll (ownPairs entries) []).bind fun items =>
        (addSections sections items).map fun items =>
          Data.map (entriesData items) := by
  have hReturn := return_notMem_joinBlocks hBlocks
  obtain ⟨tail, hText, hTail, hNone, hMark⟩ :
      ∃ tail,
        joinBlocks (ownBlock [] entries.isEmpty lines ++
          blocks) = lines ++ tail ∧
        EndsLines tail (joinBlocks blocks) ∧ '\r' ∉ tail ∧
        (lines ++ tail).head? ≠ some '\uFEFF' := by
    rcases (linesOf_writeLines hLines).head with
      ⟨rfl, _⟩ | ⟨c, t, rfl, hStart⟩
    · refine ⟨joinBlocks blocks, ?_,
        endsLines_joinBlocks hBlocks, hReturn, ?_⟩
      · simp [ownBlock]
      · rcases joinBlocks_head hBlocks with rfl | ⟨more, hText⟩
        · simp [joinBlocks]
        · simp [hText]
    · refine ⟨moreBlocks blocks, ?_,
        endsLines_moreBlocks hBlocks, ?_, ?_⟩
      · simp [ownBlock, joinBlocks_cons]
      · cases blocks with
        | nil => simp [moreBlocks]
        | cons block blocks => simpa [moreBlocks] using hReturn
      · rw [List.cons_append, List.head?_cons]
        intro hEq
        cases hEq
        cases hStart
  have hUnified : unifyBreaks (lines ++ tail) =
      some (lines ++ tail) := by
    apply unifyBreaks_eq
    rw [List.mem_append, not_or]
    exact ⟨(linesOf_writeLines hLines).return_notMem, hNone⟩
  have hPairs := readPairs_writeLines hLines hTail
  have hSections := readSections_joinBlocks hBlocks
    (Nat.lt_succ_of_le (length_le_joinBlocks hBlocks))
  rw [hText, read]
  simp only [beq_iff_eq, if_neg hMark, bind, Option.bind,
    hUnified, hPairs, hSections]
  cases insertAll (ownPairs entries) [] with
  | none => rfl
  | some items =>
      simp only
      cases addSections sections items <;> rfl

end Toml

end Highlighter

import Highlighter.Proofs.Command
import Highlighter.Proofs.Text.Decimal
import Highlighter.Proofs.Text.Lines
import Highlighter.Proofs.Text.Quoted

/-
  Rows: lines of fields with tabs between them. Where the
  fields are made of characters that show, there is a line
  for each row, and its fields are found again between the
  tabs. The views of folds and of indentation are such rows,
  and what they show can be read from them.

  Key definitions include:
    * `Command.PlainFields`
    * `Command.tabsBetween`
    * `Command.splitTabs`
    * `Command.readLines`
    * `Command.readFold`
    * `Command.IndentRow`
    * `Command.readIndent`

  Main statements:
    * `Command.lines_rows`
    * `Command.splitTabs_tabsBetween`
    * `Command.readLines_rows`
    * `Command.readLines_folds`
    * `Command.readLines_indents`
-/

namespace Highlighter

/- A state is found by its name. -/
theorem State.ofName?_name (state : State) :
    ofName? state.name = some state := by
  cases state <;> decide

namespace Text

/- The characters that break lines by the Unicode standard. -/
def lineBreakers : Text :=
  ['\n', '\x0b', '\x0c', '\r', '\u0085', '\u2028', '\u2029']

/- None of them shows by itself. -/
theorem notMem_lineBreakers
    {c : Char}
    (h : isPrintable c = true) : c ∉ lineBreakers := by
  have hAll : ∀ c ∈ lineBreakers, isPrintable c = false :=
    forall_of_all (by decide +kernel)
  intro hMem
  rw [hAll c hMem] at h
  cases h

/- Digits do. -/
theorem isPrintable_of_mem_decimal
    {n : Nat}
    {c : Char}
    (hc : c ∈ decimal n) : isPrintable c = true := by
  have hAll : ∀ c ∈ asciiChars,
      isAsciiDigit c = true → isPrintable c = true :=
    forall_of_all (by decide +kernel)
  have hDigit := isAsciiDigit_of_mem_decimal hc
  have hLe : c ≤ '9' := by
    simp only [isAsciiDigit, Bool.and_eq_true,
      decide_eq_true_eq] at hDigit
    exact hDigit.2
  exact hAll c (mem_asciiChars_of_le hLe (by decide)) hDigit

end Text

namespace Command

------------------------------------------------------------
-- Fields
------------------------------------------------------------

/- Fields made of characters that show. -/
def PlainFields (fields : List Text) : Prop :=
  ∀ field ∈ fields, ∀ c ∈ field, Text.isPrintable c = true

/- Fields with tabs between them. -/
def tabsBetween (fields : List Text) : Text :=
  ['\t'].intercalate fields

theorem tabsBetween_cons_cons
    (first second : Text)
    (rest : List Text) :
    tabsBetween (first :: second :: rest) =
      first ++ '\t' :: tabsBetween (second :: rest) := by
  simp [tabsBetween, List.intercalate]

theorem tabbed_eq
    {fields : List Text}
    (h : fields ≠ []) :
    tabbed fields = tabsBetween fields ++ ['\n'] := by
  induction fields with
  | nil => exact absurd rfl h
  | cons first rest ih =>
      cases rest with
      | nil => simp [tabbed, tabsBetween, List.intercalate]
      | cons second rest =>
          rw [tabbed, ih (List.cons_ne_nil second rest),
            tabsBetween_cons_cons, List.append_assoc]
          · rfl
          · exact List.cons_ne_nil second rest

namespace PlainFields

variable {fields : List Text}

/- No tab is in them. -/
theorem tab_notMem
    (h : PlainFields fields)
    {field : Text}
    (hField : field ∈ fields) : '\t' ∉ field := by
  intro hTab
  cases h field hField _ hTab

/- Between them are tabs, and nothing that breaks lines. -/
theorem notMem_lineBreakers
    (h : PlainFields fields)
    {c : Char}
    (hc : c ∈ tabsBetween fields) :
    c ∉ Text.lineBreakers := by
  induction fields with
  | nil => cases hc
  | cons first rest ih =>
      have hFirst : c ∈ first → c ∉ Text.lineBreakers :=
        fun hMem => Text.notMem_lineBreakers
          (h first (List.mem_cons_self ..) c hMem)
      cases rest with
      | nil =>
          apply hFirst
          simpa [tabsBetween, List.intercalate] using hc
      | cons second rest =>
          rw [tabsBetween_cons_cons, List.mem_append,
            List.mem_cons] at hc
          rcases hc with hMem | rfl | hRest
          · exact hFirst hMem
          · decide
          · exact ih (fun field hField =>
              h field (List.mem_cons_of_mem _ hField)) hRest

theorem breakFree
    (h : PlainFields fields) :
    (tabsBetween fields).BreakFree := by
  intro c hc
  have hNot := h.notMem_lineBreakers hc
  rw [Text.isBreakChar, Bool.or_eq_false_iff]
  constructor
  · refine beq_false_of_ne ?_
    rintro rfl
    exact hNot (by decide)
  · refine beq_false_of_ne ?_
    rintro rfl
    exact hNot (by decide)

end PlainFields

------------------------------------------------------------
-- Lines
------------------------------------------------------------

section

variable {α : Type}
variable {fields : α → List Text}
variable (hPlain : ∀ x, PlainFields (fields x))
variable {row : α → Text}
variable (hRow : ∀ x,
  row x = tabsBetween (fields x) ++ ['\n'])
include hPlain hRow

/- A line for each row, and nothing after the last. -/
theorem lines_rows (xs : List α) :
    Text.lines (xs.flatMap row) =
      xs.map (fun x => ⟨tabsBetween (fields x), ['\n']⟩) ++
        [⟨[], []⟩] := by
  induction xs with
  | nil => rfl
  | cons x xs ih =>
      have hBreak := Text.lines_of_break
        (t := '\n' :: xs.flatMap row)
        ((Text.breakLength_pos_iff _ _).mpr rfl)
      have hLines :=
        Text.lines_append (hPlain x).breakFree hBreak
      rw [List.flatMap_cons, hRow, List.append_assoc]
      refine hLines.trans ?_
      rw [List.append_nil]
      exact congrArg _ ih

end

/- The parts of a text between its first `n` tabs. -/
def splitTabs : Nat → Text → List Text
  | 0, t => [t]
  | n + 1, t =>
      match t.dropWhile (· != '\t') with
      | [] => [t]
      | _ :: rest =>
          t.takeWhile (· != '\t') :: splitTabs n rest

/- What is in front of the first tab comes off. -/
theorem splitTabs_append
    {field : Text}
    (h : '\t' ∉ field)
    (n : Nat)
    (rest : Text) :
    splitTabs (n + 1) (field ++ '\t' :: rest) =
      field :: splitTabs n rest := by
  have hField : ∀ c ∈ field, (c != '\t') = true := by
    intro c hc
    rw [bne_iff_ne]
    rintro rfl
    exact h hc
  rw [splitTabs, List.dropWhile_append_of_pos hField,
    List.takeWhile_append_of_pos hField]
  simp

/- Fields are found between the tabs after them. -/
theorem splitTabs_tabsBetween
    {first : Text}
    {rest : List Text}
    (h : PlainFields (first :: rest)) :
    splitTabs rest.length (tabsBetween (first :: rest)) =
      first :: rest := by
  induction rest generalizing first with
  | nil => simp [splitTabs, tabsBetween, List.intercalate]
  | cons second rest ih =>
      have hTab := h.tab_notMem (List.mem_cons_self ..)
      have hRest := ih fun field hField =>
        h field (List.mem_cons_of_mem _ hField)
      rw [tabsBetween_cons_cons, List.length_cons,
        splitTabs_append hTab, hRest]

------------------------------------------------------------
-- Lines read back
------------------------------------------------------------

section

variable {α β : Type}

/- Read all lines, after the last of which nothing comes. -/
def readLines (read : Text → Option β) (out : Text) :
    Option (List β) :=
  out.lines.dropLast.mapM fun line => read line.body

/- What is read from each row is read from all of them. -/
theorem readLines_rows
    {fields : α → List Text}
    (hPlain : ∀ x, PlainFields (fields x))
    {row : α → Text}
    (hRow : ∀ x, row x = tabsBetween (fields x) ++ ['\n'])
    {read : Text → Option β}
    {shown : α → β}
    (hRead : ∀ x,
      read (tabsBetween (fields x)) = some (shown x))
    (xs : List α) :
    readLines read (xs.flatMap row) =
      some (xs.map shown) := by
  rw [readLines, lines_rows hPlain hRow, List.dropLast_concat]
  induction xs with
  | nil => rfl
  | cons x xs ih =>
      rw [List.map_cons, List.mapM_cons, hRead, ih]
      rfl

end

/- A number from its digits. -/
def number? (digits : Text) : Option Nat :=
  if digits ≠ [] ∧ digits.all Text.isAsciiDigit then
    some (Nat.ofDigitChars 10 digits 0)
  else
    none

theorem number?_decimal (n : Nat) :
    number? (Text.decimal n) = some n := by
  have hDigits :
      (Text.decimal n).all Text.isAsciiDigit = true :=
    List.all_eq_true.mpr fun c =>
      Text.isAsciiDigit_of_mem_decimal
  rw [number?, if_pos ⟨Text.decimal_ne_nil n, hDigits⟩,
    Text.ofDigitChars_decimal]

/- The number of a line from its digits, counted from one. -/
def lineNumber? (digits : Text) : Option Nat :=
  match number? digits with
  | some (n + 1) => some n
  | _ => none

theorem lineNumber?_decimal (n : Nat) :
    lineNumber? (Text.decimal (n + 1)) = some n := by
  rw [lineNumber?, number?_decimal]

/- Only digits stand in a number. -/
theorem notMem_decimal
    {c : Char}
    (hc : Text.isAsciiDigit c = false)
    (n : Nat) : c ∉ Text.decimal n := by
  intro hMem
  rw [Text.isAsciiDigit_of_mem_decimal hMem] at hc
  cases hc

/- Two numbers with two points between them. -/
def range? (t : Text) : Option (Nat × Nat) :=
  match t.splitOn '.' with
  | [low, [], high] => do
      let low ← number? low
      let high ← number? high
      some (low, high)
  | _ => none

theorem range?_range (low high : Nat) :
    range? (range low high) = some (low, high) := by
  have hSplit : (range low high).splitOn '.' =
      [Text.decimal low, [], Text.decimal high] := by
    have hText : range low high =
        ['.'].intercalate
          [Text.decimal low, [], Text.decimal high] := by
      simp [range, List.intercalate]
    rw [hText]
    apply List.splitOn_intercalate
    · intro part hPart
      simp only [List.mem_cons, List.not_mem_nil,
        or_false] at hPart
      rcases hPart with rfl | rfl | rfl
      · exact notMem_decimal rfl low
      · exact List.not_mem_nil
      · exact notMem_decimal rfl high
    · exact List.cons_ne_nil _ _
  rw [range?, hSplit]
  simp only [number?_decimal]
  rfl

theorem isPrintable_of_mem_range
    {low high : Nat}
    {c : Char}
    (hc : c ∈ range low high) :
    Text.isPrintable c = true := by
  have hPoint : Text.isPrintable '.' = true := by decide
  simp only [range, List.mem_append, List.mem_cons] at hc
  rcases hc with hLow | rfl | rfl | hHigh
  · exact Text.isPrintable_of_mem_decimal hLow
  · exact hPoint
  · exact hPoint
  · exact Text.isPrintable_of_mem_decimal hHigh

/- The name of a state is made of characters that show. -/
theorem isPrintable_of_mem_stateName
    {state : State}
    {c : Char}
    (hc : c ∈ state.name.toList) :
    Text.isPrintable c = true := by
  have hAll : ∀ state : State, ∀ c ∈ state.name.toList,
      Text.isPrintable c = true := by
    intro state
    apply Text.forall_of_all
    cases state <;> decide
  exact hAll state c hc

------------------------------------------------------------
-- Rows of folds
------------------------------------------------------------

/- The lines of a fold, counted from one. -/
def lineSpan (f : FoldRange) : Text :=
  Text.decimal (f.startLine + 1) ++
    '-' :: Text.decimal (f.endLine + 1)

/- Two numbers of lines with a hyphen between them. -/
def lineSpan? (t : Text) : Option (Nat × Nat) :=
  match t.splitOn '-' with
  | [first, last] => do
      let first ← lineNumber? first
      let last ← lineNumber? last
      some (first, last)
  | _ => none

theorem lineSpan?_lineSpan (f : FoldRange) :
    lineSpan? (lineSpan f) = some (f.startLine, f.endLine) := by
  have hSplit : (lineSpan f).splitOn '-' =
      [Text.decimal (f.startLine + 1),
       Text.decimal (f.endLine + 1)] := by
    have hText : lineSpan f =
        ['-'].intercalate
          [Text.decimal (f.startLine + 1),
           Text.decimal (f.endLine + 1)] := by
      simp [lineSpan, List.intercalate]
    rw [hText]
    apply List.splitOn_intercalate
    · intro part hPart
      simp only [List.mem_cons, List.not_mem_nil,
        or_false] at hPart
      rcases hPart with rfl | rfl
      · exact notMem_decimal rfl _
      · exact notMem_decimal rfl _
    · exact List.cons_ne_nil _ _
  rw [lineSpan?, hSplit]
  simp only [lineNumber?_decimal]
  rfl

/- The fields of the row of a fold. -/
def foldFields (f : FoldRange) : List Text :=
  [lineSpan f, range f.opener f.closer]

theorem foldLine_eq (f : FoldRange) :
    foldLine f = tabsBetween (foldFields f) ++ ['\n'] := by
  rw [← tabbed_eq (by simp [foldFields])]
  rfl

theorem plainFields_foldFields (f : FoldRange) :
    PlainFields (foldFields f) := by
  intro field hField c hc
  simp only [foldFields, List.mem_cons, List.not_mem_nil,
    or_false] at hField
  rcases hField with rfl | rfl
  · simp only [lineSpan, List.mem_append, List.mem_cons] at hc
    rcases hc with hFirst | rfl | hLast
    · exact Text.isPrintable_of_mem_decimal hFirst
    · decide
    · exact Text.isPrintable_of_mem_decimal hLast
  · exact isPrintable_of_mem_range hc

/- Read the row of a fold. -/
def readFold (line : Text) : Option FoldRange :=
  match splitTabs 1 line with
  | [lines, place] => do
      let (startLine, endLine) ← lineSpan? lines
      let (opener, closer) ← range? place
      some ⟨opener, closer, startLine, endLine⟩
  | _ => none

theorem readFold_foldFields (f : FoldRange) :
    readFold (tabsBetween (foldFields f)) = some f := by
  have hSplit :
      splitTabs 1 (tabsBetween (foldFields f)) =
        foldFields f :=
    splitTabs_tabsBetween (plainFields_foldFields f)
  rw [readFold, hSplit, foldFields]
  simp only [lineSpan?_lineSpan, range?_range]
  rfl

/- The view of folds shows all there is to each of them. -/
theorem readLines_folds (d : Document) (theme : Theme) :
    readLines readFold (View.folds.ofDocument d theme) =
      some d.folds := by
  have hRows := readLines_rows plainFields_foldFields
    foldLine_eq readFold_foldFields d.folds
  rwa [List.map_id'] at hRows

------------------------------------------------------------
-- Rows of indentation
------------------------------------------------------------

/- The field for a column. -/
def columnField : Option Nat → Text
  | none => ['-']
  | some column => Text.decimal column

/- A column, or none at all. -/
def column? (t : Text) : Option (Option Nat) :=
  if t = ['-'] then
    some none
  else
    (number? t).map some

theorem column?_columnField (column : Option Nat) :
    column? (columnField column) = some column := by
  cases column with
  | none => rfl
  | some column =>
      have hNot : Text.decimal column ≠ ['-'] := by
        intro hIs
        apply notMem_decimal (c := '-') rfl column
        rw [hIs]
        exact List.mem_cons_self ..
      rw [column?, columnField, if_neg hNot, number?_decimal]
      rfl

/- The fields of the row of a line. -/
def indentFields (i : LineIndent) : List Text :=
  [Text.decimal (i.line + 1), i.startState.name.toList,
   Text.decimal i.depth, columnField i.indent]

theorem indentLine_eq (i : LineIndent) :
    indentLine i =
      tabsBetween (indentFields i) ++ ['\n'] := by
  rw [← tabbed_eq (by simp [indentFields]), indentLine,
    indentFields]
  cases i.indent <;> rfl

theorem plainFields_indentFields (i : LineIndent) :
    PlainFields (indentFields i) := by
  intro field hField c hc
  simp only [indentFields, List.mem_cons, List.not_mem_nil,
    or_false] at hField
  rcases hField with rfl | rfl | rfl | rfl
  · exact Text.isPrintable_of_mem_decimal hc
  · exact isPrintable_of_mem_stateName hc
  · exact Text.isPrintable_of_mem_decimal hc
  · cases hColumn : i.indent with
    | none =>
        rw [hColumn] at hc
        cases List.mem_singleton.mp hc
        decide
    | some column =>
        rw [hColumn] at hc
        exact Text.isPrintable_of_mem_decimal hc

/- What the row of a line says. -/
structure IndentRow where
  line : Nat
  startState : State
  depth : Nat
  indent : Option Nat
deriving DecidableEq, Repr

/- What it has to say: all but the change of the depth. -/
def indentRow (i : LineIndent) : IndentRow :=
  ⟨i.line, i.startState, i.depth, i.indent⟩

/- Read the row of a line. -/
def readIndent (line : Text) : Option IndentRow :=
  match splitTabs 3 line with
  | [line, state, depth, column] => do
      let line ← lineNumber? line
      let state ← State.ofName? (String.ofList state)
      let depth ← number? depth
      let column ← column? column
      some ⟨line, state, depth, column⟩
  | _ => none

theorem readIndent_indentFields (i : LineIndent) :
    readIndent (tabsBetween (indentFields i)) =
      some (indentRow i) := by
  have hSplit :
      splitTabs 3 (tabsBetween (indentFields i)) =
        indentFields i :=
    splitTabs_tabsBetween (plainFields_indentFields i)
  rw [readIndent, hSplit, indentFields]
  simp only [lineNumber?_decimal, number?_decimal,
    column?_columnField, String.ofList_toList,
    State.ofName?_name]
  rfl

/- The view of indentation shows a row for each line. -/
theorem readLines_indents (d : Document) (theme : Theme) :
    readLines readIndent (View.indent.ofDocument d theme) =
      some (d.indents.map indentRow) :=
  readLines_rows plainFields_indentFields indentLine_eq
    readIndent_indentFields d.indents

end Command

end Highlighter

import Highlighter.Proofs.Text.Blanks

/-
  Written indentation read back. A column is written with as
  many tabs as fit and spaces after them, and measured by
  going from tab stop to tab stop. The two agree whatever
  the tab stops are, and no sum on the way goes past the
  last column.

  Key definitions include:
    * `Column.sum?`
    * `Text.columnAfter?`
    * `Text.indentation?`

  Main statements:
    * `Text.indentation_of_indentation?`: what is measured
      with no sum past the last column is the indentation.
    * `Text.indentation?_reindent`: a line that was moved to
      a column is measured so.
    * `Text.reindent_reads_back`
-/

namespace Highlighter

------------------------------------------------------------
-- Sums
------------------------------------------------------------

namespace Column

/- A sum that may not go past the last column. -/
def sum? (n : Nat) : Option Nat :=
  if n ≤ last then some n else none

theorem sum?_eq_some_iff {n column : Nat} :
    sum? n = some column ↔ n ≤ last ∧ n = column := by
  rw [sum?, Option.ite_none_right_eq_some, Option.some_inj]

theorem sum?_of_le
    {n : Nat}
    (h : n ≤ last) : sum? n = some n :=
  sum?_eq_some_iff.mpr ⟨h, rfl⟩

/- Up to the last column no sum starts over. -/
theorem wrap_of_le
    {n : Nat}
    (h : n ≤ last) : wrap n = n :=
  Nat.mod_eq_of_lt (Nat.lt_succ_of_le h)

theorem wrap_le (n : Nat) : wrap n ≤ last :=
  Nat.le_of_lt_succ (Nat.mod_lt n (Nat.succ_pos last))

/- The same number added to two columns tells them apart. -/
theorem wrap_add_right_inj
    {m n : Nat}
    (hm : m ≤ last)
    (hn : n ≤ last)
    (k : Nat) : wrap (m + k) = wrap (n + k) ↔ m = n := by
  unfold wrap last at *
  omega

end Column

namespace Text

------------------------------------------------------------
-- Columns measured
------------------------------------------------------------

/-
  The column after a blank if no sum goes past the last one.
  A tab adds its full width first and then takes off what is
  past the stop, so the sum may go past the last column
  although the column after the tab would not.
-/
def columnAfter? (tabSize column : Nat) (c : Char) :
    Option Nat :=
  if c = '\t' then
    (Column.sum? (column + tabSize)).map
      (· - column % tabSize)
  else
    Column.sum? (column + 1)

/- The width of leading blanks if no sum goes past that. -/
def indentation? (line : Text) (tabSize : Nat) : Option Nat :=
  line.leadingBlanks.foldlM (columnAfter? (max tabSize 1)) 0

/- Then it is the column. -/
theorem columnAfter_of_columnAfter?
    {tabSize column next : Nat}
    {c : Char}
    (h : columnAfter? tabSize column c = some next) :
    columnAfter tabSize column c = next := by
  unfold columnAfter? at h
  unfold columnAfter
  by_cases hTab : c = '\t'
  · rw [if_pos hTab, Option.map_eq_some_iff] at h
    rcases h with ⟨sum, hSum, rfl⟩
    rcases Column.sum?_eq_some_iff.mp hSum with ⟨hLe, rfl⟩
    rw [if_pos hTab]
    exact Column.wrap_of_le (Nat.le_trans (Nat.sub_le ..) hLe)
  · rw [if_neg hTab] at h ⊢
    rcases Column.sum?_eq_some_iff.mp h with ⟨hLe, rfl⟩
    exact Column.wrap_of_le hLe

/- So is every column that is come to. -/
theorem foldl_of_foldlM
    {tabSize column last : Nat}
    {blanks : Text}
    (h : blanks.foldlM (columnAfter? tabSize) column =
      some last) :
    blanks.foldl (columnAfter tabSize) column = last := by
  induction blanks generalizing column with
  | nil => exact Option.some.inj h
  | cons c blanks ih =>
      rw [List.foldlM_cons] at h
      rcases Option.bind_eq_some_iff.mp h with
        ⟨next, hNext, hRest⟩
      rw [List.foldl_cons, columnAfter_of_columnAfter? hNext]
      exact ih hRest

/- What is measured so is the indentation. -/
theorem indentation_of_indentation?
    {tabSize width : Nat}
    {line : Text}
    (h : line.indentation? tabSize = some width) :
    line.indentation tabSize = width :=
  foldl_of_foldlM h

theorem columnAfter_le
    (tabSize column : Nat)
    (c : Char) :
    columnAfter tabSize column c ≤ Column.last := by
  unfold columnAfter
  split <;> exact Column.wrap_le _

/- No line stands past the last column. -/
theorem indentation_le (line : Text) (tabSize : Nat) :
    line.indentation tabSize ≤ Column.last := by
  unfold indentation
  generalize line.leadingBlanks = blanks
  rcases List.eq_nil_or_concat blanks with rfl | ⟨_, _, rfl⟩
  · exact Nat.zero_le _
  · rw [List.concat_eq_append, List.foldl_append]
    exact columnAfter_le ..

/-
  A level is one unit more than the width of the line, where
  that is measured and added with no sum past the last
  column.
-/
theorem level_of_indentation?
    {line : Text}
    {options : IndentOptions}
    {width : Nat}
    (h : line.indentation? options.tabSize = some width)
    (hUnit : width + options.indentUnit ≤ Column.last) :
    line.level options = width + options.indentUnit := by
  rw [level, indentation_of_indentation? h,
    Column.wrap_of_le hUnit]

/- Past the last column a level starts over. -/
example : level [' ', '{'] ⟨Column.last, 2, true⟩ = 0 := by
  decide

------------------------------------------------------------
-- Blanks up to a column
------------------------------------------------------------

/- Each space takes up one column. -/
theorem foldlM_spaces
    {column n : Nat}
    (h : column + n ≤ Column.last)
    (tabSize : Nat) :
    (List.replicate n ' ').foldlM (columnAfter? tabSize)
        column =
      some (column + n) := by
  induction n generalizing column with
  | zero => rfl
  | succ n ih =>
      have hStep : columnAfter? tabSize column ' ' =
          some (column + 1) :=
        Column.sum?_of_le (by omega)
      rw [List.replicate_succ, List.foldlM_cons, hStep,
        Option.bind_eq_bind, Option.bind_some, ih (by omega)]
      congr 1
      omega

/-
  From a tab stop each tab goes to the next. Nothing is
  taken off there, so no sum is more than the last column
  that is come to.
-/
theorem foldlM_tabs
    {tabSize k n : Nat}
    (h : tabSize * (k + n) ≤ Column.last) :
    (List.replicate n '\t').foldlM (columnAfter? tabSize)
        (tabSize * k) =
      some (tabSize * (k + n)) := by
  induction n generalizing k with
  | zero => rfl
  | succ n ih =>
      have hNext : k + 1 + n = k + (n + 1) := by omega
      have hSum : tabSize * (k + 1) ≤ Column.last :=
        Nat.le_trans
          (Nat.mul_le_mul_left tabSize (by omega)) h
      have hStep :
          columnAfter? tabSize (tabSize * k) '\t' =
            some (tabSize * (k + 1)) := by
        rw [columnAfter?, if_pos rfl, ← Nat.mul_succ,
          Column.sum?_of_le hSum, Option.map_some,
          Nat.mul_mod_right, Nat.sub_zero]
      rw [List.replicate_succ, List.foldlM_cons, hStep,
        Option.bind_eq_bind, Option.bind_some,
        ih (hNext ▸ h), hNext]

/- Blanks up to a column are that wide. -/
theorem foldlM_blanksTo
    {column : Nat}
    (h : column ≤ Column.last)
    (options : IndentOptions) :
    (blanksTo options column).foldlM
        (columnAfter? (max options.tabSize 1)) 0 =
      some column := by
  unfold blanksTo
  split
  · rename_i hTabs
    have hSize : max options.tabSize 1 = options.tabSize := by
      omega
    have hColumn := Nat.div_add_mod column options.tabSize
    have hStops : options.tabSize *
        (0 + column / options.tabSize) ≤ Column.last := by
      rw [Nat.zero_add]
      omega
    have hFirst := foldlM_tabs hStops
    rw [Nat.mul_zero, Nat.zero_add] at hFirst
    rw [hSize, List.foldlM_append, hFirst,
      Option.bind_eq_bind, Option.bind_some,
      foldlM_spaces (by omega), hColumn]
  · rw [foldlM_spaces (by omega), Nat.zero_add]

------------------------------------------------------------
-- Moved lines
------------------------------------------------------------

section

variable {column : Nat}
variable (h : column ≤ Column.last)
variable (line : Text)
variable (options : IndentOptions)
include h

/- A line that was moved to a column stands there. -/
theorem indentation?_reindent :
    (line.reindent column options).indentation?
        options.tabSize =
      some column := by
  unfold indentation? reindent
  rw [leadingBlanks_append (allBlank_blanksTo options column)]
  exact foldlM_blanksTo h options

theorem indentation_reindent :
    (line.reindent column options).indentation
        options.tabSize =
      column :=
  indentation_of_indentation?
    (indentation?_reindent h line options)

end

/- Lines moved to different columns are different. -/
theorem reindent_inj
    {line : Text}
    {m n : Nat}
    (hm : m ≤ Column.last)
    (hn : n ≤ Column.last)
    {options : IndentOptions}
    (h : line.reindent m options =
      line.reindent n options) : m = n := by
  have hWidth :=
    congrArg (fun t => indentation t options.tabSize) h
  simpa only [indentation_reindent hm,
    indentation_reindent hn] using hWidth

------------------------------------------------------------
-- Lines moved where there is room
------------------------------------------------------------

/- At the last column the sum starts over. -/
example :
    let line : Text := ['x']
    line.reindent? Column.last ⟨2, Column.last, true⟩ =
        some ['\t', 'x'] ∧
      line.reindent? Column.last ⟨2, 2, false⟩ = none := by
  decide

end Text

end Highlighter

import Highlighter.Proofs.Command.Rows
import Highlighter.Proofs.Scan.Step
import Highlighter.Proofs.Theme.Overrides

/-
  Tokens on lines can be read back: a row for each token,
  and in its fields all of the token but its effect. So the
  lines tell the text.

  Key definitions include:
    * `Command.tokenFields`
    * `Command.TokenRow`
    * `Command.readRow`
    * `Command.readRows`

  Main statements:
    * `Command.plainFields_tokenFields`
    * `Command.readRow_tokenFields`
    * `Command.token_lines_lossless`
-/

namespace Highlighter

namespace Command

------------------------------------------------------------
-- Fields
------------------------------------------------------------

/- The field for a label. -/
def labelField : Option Label → Text
  | none => ['-']
  | some label => label.name.toList

/- The fields of the line of a token. -/
def tokenFields (t : Token) : List Text :=
  [range t.start t.stop, labelField t.label,
   t.stateAfter.name.toList, t.text.quoted]

/- The line of a token is that of its fields. -/
theorem tokenLine_eq (t : Token) :
    tokenLine t = tabsBetween (tokenFields t) ++ ['\n'] := by
  rw [← tabbed_eq (by simp [tokenFields]), tokenLine,
    tokenFields]
  cases t.label <;> rfl

theorem isPrintable_of_mem_labelField
    {label : Option Label}
    {c : Char}
    (hc : c ∈ labelField label) :
    Text.isPrintable c = true := by
  have hNone : ∀ c ∈ labelField none,
      Text.isPrintable c = true :=
    Text.forall_of_all (by decide)
  have hSome : ∀ label : Label,
      ∀ c ∈ labelField (some label),
        Text.isPrintable c = true := by
    intro label
    apply Text.forall_of_all
    cases label <;> decide
  cases label with
  | none => exact hNone c hc
  | some label => exact hSome label c hc

/- Each field is made of characters that show. -/
theorem plainFields_tokenFields (t : Token) :
    PlainFields (tokenFields t) := by
  intro field hField c hc
  simp only [tokenFields, List.mem_cons, List.not_mem_nil,
    or_false] at hField
  rcases hField with rfl | rfl | rfl | rfl
  · exact isPrintable_of_mem_range hc
  · exact isPrintable_of_mem_labelField hc
  · exact isPrintable_of_mem_stateName hc
  · exact Text.isPrintable_of_mem_quoted hc

/- The fields of a token lie between the first three tabs. -/
theorem splitTabs_tokenFields (t : Token) :
    splitTabs 3 (tabsBetween (tokenFields t)) =
      tokenFields t :=
  splitTabs_tabsBetween (plainFields_tokenFields t)

------------------------------------------------------------
-- Lines read back
------------------------------------------------------------

/- A label by its name, or none at all. -/
def label? (t : Text) : Option (Option Label) :=
  if t = ['-'] then
    some none
  else
    (Label.ofName? (String.ofList t)).map some

theorem label?_labelField (label : Option Label) :
    label? (labelField label) = some label := by
  cases label with
  | none => rfl
  | some label =>
      have hNot : labelField (some label) ≠ ['-'] := by
        cases label <;> decide
      rw [label?, if_neg hNot, labelField, String.ofList_toList,
        Label.ofName?_name]
      rfl

/- What the line of a token says. -/
structure TokenRow where
  start : Nat
  stop : Nat
  label : Option Label
  stateAfter : State
  text : Text
deriving DecidableEq, Repr

/- What it has to say. -/
def tokenRow (t : Token) : TokenRow :=
  ⟨t.start, t.stop, t.label, t.stateAfter, t.text⟩

/- Read a line. -/
def readRow (line : Text) : Option TokenRow :=
  match splitTabs 3 line with
  | [place, label, state, text] => do
      let (start, stop) ← range? place
      let label ← label? label
      let state ← State.ofName? (String.ofList state)
      let text ← text.unquoted?
      some ⟨start, stop, label, state, text⟩
  | _ => none

/- Read all lines, after the last of which nothing comes. -/
def readRows (out : Text) : Option (List TokenRow) :=
  out.lines.dropLast.mapM fun line => readRow line.body

/- A token is read from its line. -/
theorem readRow_tokenFields (t : Token) :
    readRow (tabsBetween (tokenFields t)) =
      some (tokenRow t) := by
  rw [readRow, splitTabs_tokenFields, tokenFields]
  simp only [range?_range, label?_labelField,
    String.ofList_toList, State.ofName?_name,
    Text.unquoted?_quoted]
  rfl

/- All tokens are read from their lines. -/
theorem readRows_tokenLines (tokens : List Token) :
    readRows (tokens.flatMap tokenLine) =
      some (tokens.map tokenRow) :=
  readLines_rows plainFields_tokenFields tokenLine_eq
    readRow_tokenFields tokens

/-
  The view of tokens keeps all of them. It has a line for
  each token, and no character in it but the line feeds at
  the ends of the lines breaks lines. The first three tabs
  of a line are between its fields, and what is read from
  these is where the token starts and stops, its label, the
  state after it, and its text. The texts make up the text
  of the document. So documents with different texts never
  have the same view, whatever their modes and states are.
-/
theorem token_lines_lossless
    (b : Buffer)
    (theme : Theme) :
    let tokens := b.document.tokens
    let out := display b theme View.tokens
    let body := fun t => tabsBetween (tokenFields t)
    Text.lines out =
      tokens.map (fun t => ⟨body t, ['\n']⟩) ++ [⟨[], []⟩] ∧
    (∀ t ∈ tokens, ∀ c ∈ body t, c ∉ Text.lineBreakers) ∧
    (∀ t ∈ tokens, splitTabs 3 (body t) = tokenFields t) ∧
    readRows out = some (tokens.map tokenRow) ∧
    (tokens.map tokenRow).flatMap TokenRow.text =
      b.document.text ∧
    (∀ (b' : Buffer) (theme' : Theme),
      display b' theme' View.tokens = out →
        b'.document.text = b.document.text) := by
  have hTexts : ∀ b : Buffer,
      (b.document.tokens.map tokenRow).flatMap TokenRow.text =
        b.document.text := by
    intro b
    rw [List.flatMap_map]
    exact (b.document.mode.rules.scanFrom_tiles
      ⟨0, b.document.startState⟩ b.document.text).flatMap_text
  intro tokens out body
  have hRows : readRows out = some (tokens.map tokenRow) :=
    readRows_tokenLines tokens
  refine ⟨lines_rows plainFields_tokenFields tokenLine_eq
      tokens,
    fun t _ c =>
      (plainFields_tokenFields t).notMem_lineBreakers,
    fun t _ => splitTabs_tokenFields t, hRows, hTexts b, ?_⟩
  intro b' theme' hSame
  have hRows' : readRows out =
      some (b'.document.tokens.map tokenRow) := by
    rw [← hSame]
    exact readRows_tokenLines b'.document.tokens
  have hEq : b'.document.tokens.map tokenRow =
      tokens.map tokenRow :=
    Option.some.inj (hRows'.symm.trans hRows)
  rw [← hTexts b', hEq, hTexts b]

end Command

end Highlighter

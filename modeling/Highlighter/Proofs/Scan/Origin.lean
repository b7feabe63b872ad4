import Highlighter.Proofs.Scan.Concatenation

/-
  Where the tokens of a scan come from: each is one of the
  tokens of a step, and the tokens before it tell the state
  that the step is made in.

  Key definitions include:
    * `RuleTable.Origin`

  Main statements:
    * `RuleTable.exists_origin`
-/

namespace Highlighter

namespace RuleTable

/-
  A step of a scan makes a token: the scan has come to it
  past some text and with some tokens, and it makes other
  tokens before this one.
-/
structure Origin
    (table : RuleTable)
    (cursor : Cursor)
    (text : Text)
    (front : List Token)
    (t : Token)
    (passed rest : Text)
    (s : Step) : Prop where
  text_eq : text = passed ++ rest
  made : ∃ earlier inner later,
    front = earlier ++ inner ∧
      s.tokens = inner ++ t :: later ∧
      table.stepOn
          ⟨cursor.offset + passed.size,
            Token.endState cursor.state earlier⟩ rest =
        some s

/- Every token of a scan has one. -/
theorem exists_origin
    {table : RuleTable}
    {cursor : Cursor}
    {text : Text}
    {front back : List Token}
    {t : Token}
    (hScan :
      table.scanFrom cursor text = front ++ t :: back) :
    ∃ passed rest s,
      table.Origin cursor text front t passed rest s := by
  induction cursor, text using scan_induction table
    generalizing front with
  | hEnd cursor =>
      rw [scanFrom_nil] at hScan
      exact absurd hScan.symm (by simp)
  | hStep cursor text s consumed hStep hConsumes ih =>
      -- what comes after the step, with the step before it
      have hLater : ∀ front',
          table.scanFrom s.cursor s.rest =
            front' ++ t :: back →
          ∃ passed rest s', table.Origin cursor text
            (s.tokens ++ front') t passed rest s' := by
        intro front' hScan'
        rcases ih hScan' with ⟨passed, rest, s', hRest,
          earlier, inner, later, rfl, hTokens, hMade⟩
        refine ⟨consumed ++ passed, rest, s', ?_,
          s.tokens ++ earlier, inner, later, ?_, hTokens, ?_⟩
        · rw [List.append_assoc, ← hRest]
          exact hConsumes.text_eq
        · rw [List.append_assoc]
        · rw [Token.endState_append, Text.size_append,
            ← Nat.add_assoc, ← hConsumes.offset_eq,
            hConsumes.endState_eq]
          exact hMade
      rw [scanFrom_of_stepOn hStep] at hScan
      rcases List.append_eq_append_iff.mp hScan with
        ⟨front', rfl, hRest⟩ | ⟨later, hTokens, hBack⟩
      · exact hLater front' hRest
      · cases later with
        | nil =>
            rw [List.append_nil] at hTokens
            have hFirst := hLater [] hBack.symm
            rw [List.append_nil, hTokens] at hFirst
            exact hFirst
        | cons u later =>
            -- it is one of the step
            cases hBack
            exact ⟨[], text, s, rfl, [], front, later, rfl,
              hTokens, hStep⟩

/- If the step makes no other token, the state is told. -/
theorem Origin.stepOn_eq
    {table : RuleTable}
    {cursor : Cursor}
    {text passed rest : Text}
    {front : List Token}
    {t : Token}
    {s : Step}
    (h : table.Origin cursor text front t passed rest s)
    (hLone : s.tokens = [t]) :
    table.stepOn
        ⟨cursor.offset + passed.size,
          Token.endState cursor.state front⟩ rest =
      some s := by
  rcases h.made with
    ⟨earlier, inner, later, rfl, hTokens, hMade⟩
  rw [hLone] at hTokens
  cases inner with
  | nil =>
      rw [List.append_nil]
      exact hMade
  | cons u inner => simp at hTokens

end RuleTable

end Highlighter

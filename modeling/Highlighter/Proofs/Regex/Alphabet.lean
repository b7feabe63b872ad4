import Highlighter.Proofs.Regex.Openings
import Highlighter.Proofs.Rule

/-
  Which characters a match may have in it. A rule takes no
  other ones into its tokens.

  Key definitions include:
    * `Regex.mayRead`
    * `Pattern.mayRead`

  Main statements:
    * `Regex.Matches.mayRead`: what a match reads are such
      characters.
    * `Rule.mayRead_of_mem`
-/

namespace Highlighter

namespace Regex

/-
  May a match of the expression read a character? This may
  answer yes when the truth is no.
-/
def mayRead (c : Char) : Regex → Bool
  | empty => false
  | set chars => chars.contains c
  | assert _ => false
  | cat a b => a.mayRead c || b.mayRead c
  | alt a b => a.mayRead c || b.mayRead c
  | times _ _ _ body => body.mayRead c
  | group _ body => body.mayRead c

/- A place is reached from another by reading some text. -/
def ReadsBy (P : Char → Prop) (p q : Place) : Prop :=
  ∃ t, p.Reads t q ∧ ∀ c ∈ t, P c

theorem readsBy_refl (P : Char → Prop) (p : Place) :
    ReadsBy P p p := by
  refine ⟨[], Place.reads_nil p, ?_⟩
  intro c hc
  cases hc

theorem ReadsBy.trans
    {P : Char → Prop}
    {p q r : Place}
    (hp : ReadsBy P p q)
    (hq : ReadsBy P q r) : ReadsBy P p r := by
  rcases hp with ⟨s, hs, hFirst⟩
  rcases hq with ⟨t, ht, hThen⟩
  refine ⟨s ++ t, hs.trans ht, ?_⟩
  intro c hc
  rcases List.mem_append.mp hc with hc | hc
  · exact hFirst c hc
  · exact hThen c hc

theorem ReadsBy.mono
    {P Q : Char → Prop}
    {p q : Place}
    (h : ReadsBy P p q)
    (hImp : ∀ c, P c → Q c) : ReadsBy Q p q := by
  rcases h with ⟨t, ht, hAll⟩
  exact ⟨t, ht, fun c hc => hImp c (hAll c hc)⟩

/- What a match reads are characters that it may read. -/
theorem Matches.mayRead
    {a : Regex}
    {p q : Place}
    (h : a.Matches p q) :
    ReadsBy (fun c => a.mayRead c = true) p q := by
  induction a generalizing p q with
  | empty =>
      cases h
      exact readsBy_refl _ _
  | set chars =>
      rcases Place.reads_of_read h with ⟨c, hc, hReads⟩
      refine ⟨[c], hReads, ?_⟩
      intro d hd
      cases List.mem_singleton.mp hd
      exact hc
  | assert condition =>
      cases h.2
      exact readsBy_refl _ _
  | cat a b iha ihb =>
      rcases h with ⟨r, ha, hb⟩
      have hFirst := (iha ha).mono
        (Q := fun c => (cat a b).mayRead c = true)
        fun c hc => Bool.or_eq_true_iff.mpr (Or.inl hc)
      exact hFirst.trans ((ihb hb).mono
        fun c hc => Bool.or_eq_true_iff.mpr (Or.inr hc))
  | alt a b iha ihb =>
      rcases h with ha | hb
      · exact (iha ha).mono
          fun c hc => Bool.or_eq_true_iff.mpr (Or.inl hc)
      · exact (ihb hb).mono
          fun c hc => Bool.or_eq_true_iff.mpr (Or.inr hc)
  | times low high greedy body ih =>
      rcases h with ⟨count, -, -, hRounds⟩
      induction count generalizing p with
      | zero =>
          cases hRounds
          exact readsBy_refl _ _
      | succ count ihCount =>
          rcases hRounds with ⟨r, hStep, hRest⟩
          exact (ih hStep).trans (ihCount hRest)
  | group index body ih =>
      rcases h with ⟨r, hBody, rfl⟩
      rcases ih hBody with ⟨t, ht, hAll⟩
      exact ⟨t, Place.reads_close index p.pos ht, hAll⟩

end Regex

namespace Pattern

/-
  May a match of the pattern at the start of a line have a
  character in it?
-/
def mayRead (c : Char) : Pattern → Bool
  | regex a =>
      !a.opensWith Assertion.textStart || a.mayRead c
  | upTo _ => true

theorem mayRead_of_mem
    {pattern : Pattern}
    {line : Text}
    {n : Nat}
    (h : pattern.matchLength line = some n)
    {c : Char}
    (hc : c ∈ line.take n) : pattern.mayRead c = true := by
  cases pattern with
  | upTo literal => rfl
  | regex a =>
      rw [mayRead, Bool.or_eq_true, Bool.not_eq_true']
      cases hStart : a.opensWith Assertion.textStart with
      | false => exact Or.inl rfl
      | true =>
          right
          rcases Option.map_eq_some_iff.mp h with
            ⟨m, hFind, rfl⟩
          rcases (Regex.find_first hStart hFind).mayRead with
            ⟨t, ⟨hLine, hStop⟩, hAll⟩
          have hRead : line.take m.stop = t := by
            rw [Nat.zero_add] at hStop
            rw [Regex.Match.stop, hStop,
              show line = t ++ m.place.rest from hLine,
              List.take_left]
          rw [hRead] at hc
          exact hAll c hc

end Pattern

namespace Rule

/- A rule that fires consumes what its pattern matches. -/
theorem matchLength_of_apply
    {r : Rule Pattern}
    {line : Text}
    {hit : Hit}
    (h : r.apply line = some hit) :
    r.pattern.matchLength line = some hit.length := by
  unfold apply at h
  split at h
  · rename_i hPattern hLabelling
    split at h
    · cases h
    · rename_i m hFind
      split at h
      · cases h
      · cases h
        rw [hPattern, Pattern.matchLength, hFind]
        rfl
  · split at h
    · cases h
    · rename_i n hMatch
      split at h
      · cases h
      · cases h
        exact hMatch

/- Its pieces have only characters that it may read. -/
theorem mayRead_of_mem
    {r : Rule Pattern}
    {line : Text}
    {hit : Hit}
    (h : r.apply line = some hit)
    {piece : Piece}
    (hPiece : piece ∈ hit.pieces)
    {c : Char}
    (hc : c ∈ piece.text) : r.pattern.mayRead c = true := by
  apply Pattern.mayRead_of_mem (matchLength_of_apply h)
  rw [← (apply_covers h).join_pieces]
  exact List.mem_flatMap.mpr ⟨piece, hPiece, hc⟩

end Rule

end Highlighter

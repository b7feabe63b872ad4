import Highlighter.Regex.Matches

/-
  A match reads a part of the text in front of it and goes
  no further. Main statements:
    * `Regex.Matches.reads`: a place that is matched up to
      is reached by reading.
    * `Regex.find_stop_le`: a match ends inside the text.
-/

namespace Highlighter

namespace Regex

namespace Place

/- A text was read on the way from one place to another. -/
def Reads (p : Place) (t : Text) (q : Place) : Prop :=
  p.rest = t ++ q.rest ∧ q.pos = p.pos + t.length

/- Nothing is read where a place stays. -/
theorem reads_nil (p : Place) : p.Reads [] p := by
  constructor
  · simp
  · simp

/- Reading twice reads both texts. -/
theorem Reads.trans
    {p q r : Place}
    {s t : Text}
    (hp : p.Reads s q)
    (hq : q.Reads t r) : p.Reads (s ++ t) r := by
  constructor
  · rw [hp.1, hq.1, List.append_assoc]
  · rw [hq.2, hp.2, List.length_append]
    omega

/- Reading uses up what the text has. -/
theorem Reads.length_eq
    {p q : Place}
    {t : Text}
    (h : p.Reads t q) :
    q.pos + q.rest.length = p.pos + p.rest.length := by
  rw [h.1, h.2, List.length_append]
  omega

/- The next character is read when it is in the set. -/
theorem reads_of_read
    {chars : CharSet}
    {p q : Place}
    (h : p.read chars = some q) :
    ∃ c, chars.contains c = true ∧ p.Reads [c] q := by
  unfold read at h
  split at h
  · cases h
  · rename_i c rest hrest
    split at h
    · rename_i hc
      cases h
      exact ⟨c, hc, by simp [hrest], rfl⟩
    · cases h

/- To close a group reads nothing. -/
theorem reads_close
    {p q : Place}
    {t : Text}
    (index : Option Nat)
    (start : Nat)
    (h : p.Reads t q) : p.Reads t (q.close index start) := by
  cases index with
  | none => exact h
  | some i => exact h

end Place

/- A place that is matched up to is reached by reading. -/
theorem Matches.reads
    {a : Regex}
    {p q : Place}
    (h : a.Matches p q) : ∃ t, p.Reads t q := by
  let R : Place → Place → Prop := fun p q => ∃ t, p.Reads t q
  refine Matches.of_steps (R := R) ?_ ?_ ?_ ?_ h
  · intro p
    exact ⟨[], Place.reads_nil p⟩
  · rintro p q r ⟨s, hs⟩ ⟨t, ht⟩
    exact ⟨s ++ t, hs.trans ht⟩
  · intro chars p q hRead
    rcases Place.reads_of_read hRead with ⟨c, -, hc⟩
    exact ⟨[c], hc⟩
  · rintro index p q ⟨t, ht⟩
    exact ⟨t, Place.reads_close index p.pos ht⟩

/- A match found in a text ends inside it. -/
theorem find_stop_le
    {a : Regex}
    {t : Text}
    {m : Match}
    (h : a.find t = some m) : m.stop ≤ t.length := by
  rcases find_matches h with ⟨skipped, after, rfl, hStart, hm⟩
  rcases hm.reads with ⟨s, hs⟩
  have hLength := hs.length_eq
  simp only [Match.stop, List.length_append]
  simp only at hLength
  omega

end Regex

end Highlighter

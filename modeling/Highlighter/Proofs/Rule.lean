import Highlighter.Proofs.Regex.Groups
import Highlighter.Rule

/-
  What a rule that fires consumes: its pieces are not empty
  and make up the part of the line up to the end of the
  match, however the match was split.

  Key definitions include:
    * `Piece.join`
    * `Hit.Covers`
    * `Rule.labels`

  Main statements:
    * `Hit.join_cut`: the pieces of a split match fill it.
    * `Rule.apply_covers`: a hit covers what it consumes.
-/

namespace Highlighter

------------------------------------------------------------
-- Slices
------------------------------------------------------------

namespace Text

theorem slice_zero (t : Text) (n : Nat) :
    t.slice 0 n = t.take n := by
  simp [slice]

theorem slice_self (t : Text) (n : Nat) :
    t.slice n n = [] := by
  simp [slice]

/- A slice and the one after it are one slice. -/
theorem slice_append
    (t : Text)
    {i j k : Nat}
    (hij : i ≤ j)
    (hjk : j ≤ k) :
    t.slice i j ++ t.slice j k = t.slice i k := by
  have hTake :
      (t.drop i).take (k - i) =
        (t.drop i).take (j - i + (k - j)) := by
    congr 1
    omega
  have hDrop : t.drop j = (t.drop i).drop (j - i) := by
    rw [List.drop_drop]
    congr 1
    omega
  unfold slice
  rw [hTake, List.take_add, hDrop]

/- A slice inside a text has something in it. -/
theorem slice_ne_nil
    {t : Text}
    {i j : Nat}
    (hij : i < j)
    (hj : j ≤ t.length) : t.slice i j ≠ [] := by
  apply List.ne_nil_of_length_pos
  simp only [slice, List.length_take, List.length_drop]
  omega

end Text

------------------------------------------------------------
-- Pieces
------------------------------------------------------------

namespace Piece

/- The text that pieces make up. -/
def join (pieces : List Piece) : Text :=
  pieces.flatMap Piece.text

@[simp]
theorem join_nil : join [] = [] := rfl

@[simp]
theorem join_cons (piece : Piece) (pieces : List Piece) :
    join (piece :: pieces) = piece.text ++ join pieces := rfl

@[simp]
theorem join_append (a b : List Piece) :
    join (a ++ b) = join a ++ join b := by
  simp [join]

end Piece

namespace Hit

/-
  A hit consumes some of a line and no more than there is,
  and its pieces, none of them empty, make that up.
-/
structure Covers (line : Text) (hit : Hit) : Prop where
  length_pos : 0 < hit.length
  length_le : hit.length ≤ line.length
  join_pieces : Piece.join hit.pieces = line.take hit.length
  filled : ∀ piece ∈ hit.pieces, piece.text ≠ []

/- There is something in a hit, so it has a piece. -/
theorem Covers.pieces_ne_nil
    {line : Text}
    {hit : Hit}
    (h : hit.Covers line) : hit.pieces ≠ [] := by
  intro hNil
  have hJoin := h.join_pieces
  rw [hNil, Piece.join_nil] at hJoin
  have hLength := congrArg List.length hJoin
  rw [List.length_nil, List.length_take,
    Nat.min_eq_left h.length_le] at hLength
  exact Nat.ne_of_lt h.length_pos hLength

/- The piece between two positions fills the gap. -/
theorem join_gap
    (line : Text)
    {i j : Nat}
    (hij : i ≤ j) :
    Piece.join (gap line i j) = line.slice i j := by
  unfold gap
  split
  · simp
  · have hEq : i = j := by omega
    subst hEq
    simp [Text.slice_self]

/- A gap inside the line has no empty piece. -/
theorem filled_gap
    {line : Text}
    {i j : Nat}
    (hj : j ≤ line.length) :
    ∀ piece ∈ gap line i j, piece.text ≠ [] := by
  intro piece hPiece
  unfold gap at hPiece
  split at hPiece
  · rename_i hij
    rcases List.mem_singleton.mp hPiece with rfl
    exact Text.slice_ne_nil hij hj
  · cases hPiece

/-
  The pieces of a split match, cut from a position on, fill
  the match from there to its end.
-/
theorem join_cut
    {line : Text}
    {m : Regex.Match}
    (hGroups : ∀ index start stop,
      m.group? index = some (start, stop) → stop ≤ m.stop)
    (groups : List (Nat × Option Label))
    {i : Nat}
    (hi : i ≤ m.stop) :
    Piece.join (cut line m i groups) =
      line.slice i m.stop := by
  induction groups generalizing i with
  | nil => exact join_gap line hi
  | cons group groups ih =>
      rcases group with ⟨index, label⟩
      unfold cut
      split
      · exact ih hi
      · rename_i start stop hGroup
        have hStop : stop ≤ m.stop :=
          hGroups index start stop hGroup
        split
        · rename_i hTaken
          have hOrder : start ≤ stop := Nat.le_of_lt hTaken.1
          rw [Piece.join_append, Piece.join_cons,
            join_gap line hTaken.2, ih hStop,
            Text.slice_append line hOrder hStop,
            Text.slice_append line hTaken.2
              (Nat.le_trans hOrder hStop)]
        · exact ih hi

/- None of these pieces is empty. -/
theorem filled_cut
    {line : Text}
    {m : Regex.Match}
    (hGroups : ∀ index start stop,
      m.group? index = some (start, stop) → stop ≤ m.stop)
    (hLine : m.stop ≤ line.length)
    (groups : List (Nat × Option Label))
    (i : Nat) :
    ∀ piece ∈ cut line m i groups, piece.text ≠ [] := by
  induction groups generalizing i with
  | nil => exact filled_gap hLine
  | cons group groups ih =>
      rcases group with ⟨index, label⟩
      unfold cut
      split
      · exact ih i
      · rename_i start stop hGroup
        have hStop : stop ≤ line.length :=
          Nat.le_trans (hGroups index start stop hGroup) hLine
        split
        · rename_i hTaken
          intro piece hPiece
          rcases List.mem_append.mp hPiece with hGap | hRest
          · have hStart : start ≤ line.length :=
              Nat.le_trans (Nat.le_of_lt hTaken.1) hStop
            exact filled_gap hStart piece hGap
          · rcases List.mem_cons.mp hRest with rfl | hRest
            · exact Text.slice_ne_nil hTaken.1 hStop
            · exact ih stop piece hRest
        · exact ih i

/- Their labels are those of the groups, or there is none. -/
theorem label_of_mem_cut
    {line : Text}
    {m : Regex.Match}
    {groups : List (Nat × Option Label)}
    {i : Nat}
    {piece : Piece}
    (h : piece ∈ cut line m i groups) :
    piece.label = none ∨
      piece.label ∈ groups.map Prod.snd := by
  have hGap : ∀ j k, piece ∈ gap line j k →
      piece.label = none := by
    intro j k hMem
    unfold gap at hMem
    split at hMem
    · rw [List.mem_singleton.mp hMem]
    · cases hMem
  induction groups generalizing i with
  | nil => exact Or.inl (hGap _ _ h)
  | cons group groups ih =>
      have hLater : ∀ j, piece ∈ cut line m j groups →
          piece.label = none ∨
            piece.label ∈ (group :: groups).map Prod.snd :=
        fun j hMem =>
          (ih hMem).imp_right (List.mem_cons_of_mem _)
      rcases group with ⟨index, label⟩
      unfold cut at h
      split at h
      · exact hLater _ h
      · split at h
        · rcases List.mem_append.mp h with hMem | hMem
          · exact Or.inl (hGap _ _ hMem)
          · rcases List.mem_cons.mp hMem with rfl | hMem
            · exact Or.inr (List.mem_cons_self ..)
            · exact hLater _ hMem
        · exact hLater _ h

end Hit

------------------------------------------------------------
-- Rules
------------------------------------------------------------

namespace Rule

/- The labels that the pieces of a hit may have. -/
def labels (r : Rule Pattern) : List (Option Label) :=
  match r.labelling with
  | Labelling.whole label => [none, label]
  | Labelling.captures groups => none :: groups.map Prod.snd

theorem label_of_apply
    {r : Rule Pattern}
    {line : Text}
    {hit : Hit}
    (h : r.apply line = some hit)
    {piece : Piece}
    (hPiece : piece ∈ hit.pieces) :
    piece.label ∈ r.labels := by
  unfold apply at h
  split at h
  · -- a match split by its groups
    rename_i hPattern hLabelling
    split at h
    · cases h
    · split at h
      · cases h
      · cases h
        rw [labels, hLabelling, List.mem_cons]
        exact Hit.label_of_mem_cut hPiece
  · -- one piece
    rename_i hOther
    split at h
    · cases h
    · split at h
      · cases h
      · cases h
        cases List.mem_singleton.mp hPiece
        rw [labels]
        cases r.labelling with
        | whole label => exact List.mem_cons_of_mem _ (by simp)
        | captures groups => exact List.mem_cons_self ..

/- A hit covers what it consumes. -/
theorem apply_covers
    {r : Rule Pattern}
    {line : Text}
    {hit : Hit}
    (h : r.apply line = some hit) : hit.Covers line := by
  have hPos := apply_length_pos h
  have hLe := apply_length_le h
  unfold apply at h
  split at h
  · -- a match split by its groups
    split at h
    · cases h
    · rename_i m hFind
      split at h
      · cases h
      · cases h
        have hGroups : ∀ index start stop,
            m.group? index = some (start, stop) →
              stop ≤ m.stop :=
          fun index start stop hGroup =>
            (Regex.find_group_within hFind hGroup).2.2
        refine ⟨hPos, hLe, ?_, ?_⟩
        · rw [Hit.join_cut hGroups _ (Nat.zero_le _),
            Text.slice_zero]
        · exact Hit.filled_cut hGroups hLe _ 0
  · -- one piece
    split at h
    · cases h
    · split at h
      · cases h
      · rename_i n hMatch hn
        cases h
        refine ⟨hPos, hLe, by simp, ?_⟩
        intro piece hPiece
        rcases List.mem_singleton.mp hPiece with rfl
        rw [← Text.slice_zero]
        exact Text.slice_ne_nil hPos hLe

end Rule

end Highlighter

import Highlighter.Indent
import Highlighter.Proofs.Scan.Outline

/-
  Matches that are split by their groups, told by positions
  in the line. The parts of a match lie end to end from the
  start of the line to the end of the match. A part is the
  range of a group, with the label listed for it, or a gap
  without a label. Groups may be listed more than once and
  in any order, may lie within each other and may be missing;
  which of them are taken is told by where they start and by
  the groups taken before them in the list.

  Key definitions include:
    * `Hit.Part`
    * `Hit.parts`
    * `Hit.EndToEnd`
    * `Hit.lastStop`
    * `Hit.Partitions`
    * `Effect.onLevels`

  Main statements:
    * `Hit.Partitions.skip` and `Hit.Partitions.take`: one
      more group at the front of the list.
    * `Hit.partitions_parts`
    * `RuleTable.foldl_applyEffect_stepOver`: a step changes
      the levels once at most.
    * `RuleTable.split_by_groups`
-/

namespace Highlighter

------------------------------------------------------------
-- Parts
------------------------------------------------------------

namespace Hit

/-
  A part of a match: its label, the positions that it lies
  between, and the place in the list of groups of the group
  that it is the range of, if it is not a gap.
-/
structure Part where
  label : Option Label
  start : Nat
  stop : Nat
  place : Option Nat
deriving DecidableEq, Repr

namespace Part

/- A part cut out of the line. -/
def piece (line : Text) (p : Part) : Piece :=
  ⟨p.label, line.slice p.start p.stop⟩

/- Does a part come from before a place in the list? -/
def isBefore (k : Nat) (p : Part) : Bool :=
  p.place.any (· < k)

/-
  A part stands in a line between two boundaries: from the
  byte where it starts the line goes on with the text of the
  part, and with what is after it from where it stops.
-/
def StandsIn (line : Text) (p : Part) : Prop :=
  ∃ rest,
    line.suffixAt (Text.size (line.take p.start)) =
        some (line.slice p.start p.stop ++ rest) ∧
      line.suffixAt (Text.size (line.take p.stop)) = some rest

/- The token of a part on a line that begins at an offset. -/
def token
    (line : Text)
    (offset : Nat)
    (stateAfter : State)
    (effect : Effect)
    (p : Part) : Token :=
  ⟨p.label, line.slice p.start p.stop,
    offset + Text.size (line.take p.start), stateAfter,
    effect⟩

end Part

/- Between any two positions in order there is a part. -/
theorem Part.standsIn
    (line : Text)
    {p : Part}
    (h : p.start ≤ p.stop) : p.StandsIn line := by
  have hDrop : line.drop p.stop =
      (line.drop p.start).drop (p.stop - p.start) := by
    rw [List.drop_drop]
    congr 1
    omega
  refine ⟨line.drop p.stop, ?_,
    Text.suffixAt_take line p.stop⟩
  rw [Text.suffixAt_take, Text.slice, hDrop,
    List.take_append_drop]

/- The gap between two positions. -/
def gapParts (i j : Nat) : List Part :=
  if i < j then [⟨none, i, j, none⟩] else []

/-
  The parts of a match from position `i` on, given the
  groups from place `k` of the list on.
-/
def partsFrom (m : Regex.Match) :
    Nat → Nat → List (Nat × Option Label) → List Part
  | i, _, [] => gapParts i m.stop
  | i, k, (index, label) :: groups =>
      match m.group? index with
      | none => partsFrom m i (k + 1) groups
      | some (start, stop) =>
          if start < stop ∧ i ≤ start then
            gapParts i start ++
              ⟨label, start, stop, some k⟩ ::
                partsFrom m stop (k + 1) groups
          else
            partsFrom m i (k + 1) groups

/- The parts of a match split by a list of groups. -/
def parts
    (m : Regex.Match)
    (groups : List (Nat × Option Label)) : List Part :=
  partsFrom m 0 0 groups

theorem gap_eq_map (line : Text) (i j : Nat) :
    gap line i j = (gapParts i j).map (Part.piece line) := by
  unfold gap gapParts
  split <;> rfl

/- The pieces of a split match are its parts, cut out. -/
theorem cut_eq_map
    (line : Text)
    (m : Regex.Match)
    (i k : Nat)
    (groups : List (Nat × Option Label)) :
    cut line m i groups =
      (partsFrom m i k groups).map (Part.piece line) := by
  induction groups generalizing i k with
  | nil => exact gap_eq_map line i m.stop
  | cons group groups ih =>
      rcases group with ⟨index, label⟩
      cases hGroup : m.group? index with
      | none =>
          simp only [cut, partsFrom, hGroup]
          exact ih i (k + 1)
      | some range =>
          rcases range with ⟨start, stop⟩
          simp only [cut, partsFrom, hGroup]
          by_cases hTaken : start < stop ∧ i ≤ start
          · rw [if_pos hTaken, if_pos hTaken,
              List.map_append, List.map_cons, ← gap_eq_map,
              ← ih stop (k + 1)]
            rfl
          · rw [if_neg hTaken, if_neg hTaken]
            exact ih i (k + 1)

------------------------------------------------------------
-- Partitions
------------------------------------------------------------

/-
  Parts lie end to end between two positions when each of
  them starts where the one before it stops. None is empty.
-/
inductive EndToEnd : Nat → Nat → List Part → Prop
  | nil (n : Nat) : EndToEnd n n []
  | cons
      {p : Part}
      {parts : List Part}
      {n : Nat}
      (hFilled : p.start < p.stop)
      (hRest : EndToEnd p.stop n parts) :
      EndToEnd p.start n (p :: parts)

theorem EndToEnd.append
    {i j n : Nat}
    {ps qs : List Part}
    (hps : EndToEnd i j ps)
    (hqs : EndToEnd j n qs) : EndToEnd i n (ps ++ qs) := by
  induction hps with
  | nil n => exact hqs
  | cons hFilled hRest ih => exact EndToEnd.cons hFilled (ih hqs)

/- The first of them starts where all of them do. -/
theorem EndToEnd.of_cons
    {i n : Nat}
    {p : Part}
    {ps : List Part}
    (h : EndToEnd i n (p :: ps)) :
    p.start = i ∧ p.start < p.stop ∧ EndToEnd p.stop n ps := by
  cases h with
  | cons hFilled hRest => exact ⟨rfl, hFilled, hRest⟩

/- There are some if there is something between the two. -/
theorem EndToEnd.ne_nil
    {i n : Nat}
    {ps : List Part}
    (h : EndToEnd i n ps)
    (hin : i < n) : ps ≠ [] := by
  rintro rfl
  cases h
  exact Nat.lt_irrefl _ hin

/- They lie between the two positions, and none is empty. -/
theorem EndToEnd.bounds
    {i n : Nat}
    {ps : List Part}
    (h : EndToEnd i n ps) :
    i ≤ n ∧ ∀ p ∈ ps, p.start < p.stop ∧ p.stop ≤ n := by
  induction h with
  | nil n =>
      refine ⟨Nat.le_refl n, ?_⟩
      intro p hp
      cases hp
  | @cons q ps n hFilled hRest ih =>
      refine ⟨Nat.le_trans (Nat.le_of_lt hFilled) ih.1, ?_⟩
      intro p hp
      rcases List.mem_cons.mp hp with rfl | hLater
      · exact ⟨hFilled, ih.1⟩
      · exact ih.2 p hLater

theorem endToEnd_gapParts
    {i j : Nat}
    (hij : i ≤ j) : EndToEnd i j (gapParts i j) := by
  unfold gapParts
  split
  · rename_i hLt
    exact EndToEnd.cons
      (p := ⟨none, i, j, none⟩) hLt (EndToEnd.nil j)
  · have hEq : i = j := by omega
    rw [hEq]
    exact EndToEnd.nil j

/- The places in the list that parts come from, in order. -/
def places (parts : List Part) : List Nat :=
  parts.filterMap Part.place

/-
  Where the last of the parts stops that come from before a
  place in the list, or `i` if there is none.
-/
def lastStop (i : Nat) (parts : List Part) (k : Nat) : Nat :=
  ((parts.filter (Part.isBefore k)).getLast?.map
    Part.stop).getD i

/-
  Parts are the partition of a match from a position on by
  some groups, listed each with its place. Parts that come
  from no group have no label. The others have the label and
  the range of the group at their place, and come in the
  order of the list. A group is taken just if it took part
  in the match, is not empty and starts where the last one
  stops that was taken before it, or further on.
-/
structure Partitions
    (m : Regex.Match)
    (i : Nat)
    (listed : List ((Nat × Option Label) × Nat))
    (parts : List Part) : Prop where
  endToEnd : EndToEnd i m.stop parts
  unlabelled : ∀ p ∈ parts, p.place = none → p.label = none
  from_list : ∀ p ∈ parts, ∀ k, p.place = some k →
    ∃ index, ((index, p.label), k) ∈ listed ∧
      m.group? index = some (p.start, p.stop)
  ordered : (places parts).Pairwise (· < ·)
  taken_iff : ∀ index label k, ((index, label), k) ∈ listed →
    (k ∈ places parts ↔
      ∃ start stop, m.group? index = some (start, stop) ∧
        start < stop ∧ lastStop i parts k ≤ start)

theorem places_cons_of_place
    {p : Part}
    {k : Nat}
    (h : p.place = some k)
    (parts : List Part) :
    places (p :: parts) = k :: places parts := by
  rw [places, List.filterMap_cons, h]
  rfl

theorem place_of_mem_gapParts
    {i j : Nat}
    {p : Part}
    (h : p ∈ gapParts i j) :
    p.place = none ∧ p.label = none := by
  unfold gapParts at h
  split at h
  · rw [List.mem_singleton.mp h]
    exact ⟨rfl, rfl⟩
  · cases h

/- Gaps come from no place. -/
theorem places_gapParts_append
    (i j : Nat)
    (parts : List Part) :
    places (gapParts i j ++ parts) = places parts := by
  have hNone : places (gapParts i j) = [] := by
    unfold gapParts
    split <;> rfl
  rw [places, List.filterMap_append]
  exact congrArg (· ++ places parts) hNone

/- Nothing stops before the first place. -/
theorem lastStop_eq_self
    {parts : List Part}
    {k : Nat}
    (h : ∀ n ∈ places parts, k ≤ n)
    (i : Nat) : lastStop i parts k = i := by
  have hNone : parts.filter (Part.isBefore k) = [] := by
    rw [List.filter_eq_nil_iff]
    intro p hp hBefore
    rcases (Option.any_eq_true _ _).mp hBefore with
      ⟨n, hPlace, hLt⟩
    have hLe :=
      h n (List.mem_filterMap.mpr ⟨p, hp, hPlace⟩)
    exact Nat.not_lt_of_le hLe (of_decide_eq_true hLt)
  rw [lastStop, hNone]
  rfl

/- After a place the group taken there counts. -/
theorem lastStop_take
    {p : Part}
    {k n : Nat}
    (hPlace : p.place = some k)
    (hkn : k < n)
    (i j stop : Nat)
    (parts : List Part) :
    lastStop i (gapParts j stop ++ p :: parts) n =
      lastStop p.stop parts n := by
  have hGap :
      (gapParts j stop).filter (Part.isBefore n) = [] := by
    unfold gapParts
    split <;> rfl
  have hBefore : p.isBefore n = true := by
    rw [Part.isBefore, hPlace]
    exact decide_eq_true hkn
  unfold lastStop
  rw [List.filter_append, hGap, List.nil_append,
    List.filter_cons_of_pos hBefore, List.getLast?_cons]
  cases (parts.filter (Part.isBefore n)).getLast? <;> rfl

variable {m : Regex.Match}
variable {groups : List (Nat × Option Label)}

/- Parts by groups from a place on come from no other. -/
theorem Partitions.le_of_mem_places
    {i k : Nat}
    {parts : List Part}
    (h : Partitions m i (groups.zipIdx k) parts) :
    ∀ n ∈ places parts, k ≤ n := by
  intro n hn
  rcases List.mem_filterMap.mp hn with ⟨p, hp, hPlace⟩
  rcases h.from_list p hp n hPlace with ⟨index, hListed, -⟩
  exact List.le_snd_of_mem_zipIdx hListed

/- Without groups there is one gap. -/
theorem partitions_gapParts
    {i : Nat}
    (hi : i ≤ m.stop) :
    Partitions m i [] (gapParts i m.stop) where
  endToEnd := endToEnd_gapParts hi
  unlabelled := fun _ hp _ => (place_of_mem_gapParts hp).2
  from_list := by
    intro p hp k hPlace
    rw [(place_of_mem_gapParts hp).1] at hPlace
    cases hPlace
  ordered := by
    rw [← List.append_nil (gapParts i m.stop),
      places_gapParts_append]
    exact List.Pairwise.nil
  taken_iff := by
    intro index label k hListed
    cases hListed

/-
  A group that is missing, empty or starts too early makes
  no difference.
-/
theorem Partitions.skip
    {i k : Nat}
    {parts : List Part}
    (h : Partitions m i (groups.zipIdx (k + 1)) parts)
    {group : Nat × Option Label}
    (hSkip : ∀ start stop,
      m.group? group.1 = some (start, stop) →
        ¬ (start < stop ∧ i ≤ start)) :
    Partitions m i ((group :: groups).zipIdx k) parts where
  endToEnd := h.endToEnd
  unlabelled := h.unlabelled
  from_list := by
    intro p hp n hPlace
    rcases h.from_list p hp n hPlace with
      ⟨index, hListed, hGroup⟩
    rw [List.zipIdx_cons]
    exact ⟨index, List.mem_cons_of_mem _ hListed, hGroup⟩
  ordered := h.ordered
  taken_iff := by
    intro index label n hListed
    rw [List.zipIdx_cons] at hListed
    rcases List.mem_cons.mp hListed with hHere | hLater
    · cases hHere
      have hFree : ∀ n ∈ places parts, k ≤ n := fun n hn =>
        Nat.le_of_succ_le (h.le_of_mem_places n hn)
      rw [lastStop_eq_self hFree]
      apply iff_of_false
      · intro hMem
        exact Nat.not_succ_le_self k
          (h.le_of_mem_places k hMem)
      · rintro ⟨start, stop, hGroup, hTaken⟩
        exact hSkip start stop hGroup hTaken
    · exact h.taken_iff index label n hLater

/-
  Any other group is taken, with the gap in front of it, and
  the parts go on where it stops.
-/
theorem Partitions.take
    {k index start stop : Nat}
    {label : Option Label}
    {parts : List Part}
    (h : Partitions m stop (groups.zipIdx (k + 1)) parts)
    (hGroup : m.group? index = some (start, stop))
    (hFilled : start < stop)
    {i : Nat}
    (hStart : i ≤ start) :
    Partitions m i (((index, label) :: groups).zipIdx k)
      (gapParts i start ++
        ⟨label, start, stop, some k⟩ :: parts) := by
  have hPlaces :
      places (gapParts i start ++
          ⟨label, start, stop, some k⟩ :: parts) =
        k :: places parts := by
    rw [places_gapParts_append, places_cons_of_place rfl]
  constructor
  · exact (endToEnd_gapParts hStart).append
      (EndToEnd.cons (p := ⟨label, start, stop, some k⟩)
        hFilled h.endToEnd)
  · intro p hp hPlace
    rcases List.mem_append.mp hp with hGap | hLater
    · exact (place_of_mem_gapParts hGap).2
    · rcases List.mem_cons.mp hLater with rfl | hLater
      · cases hPlace
      · exact h.unlabelled p hLater hPlace
  · intro p hp n hPlace
    rw [List.zipIdx_cons]
    rcases List.mem_append.mp hp with hGap | hLater
    · rw [(place_of_mem_gapParts hGap).1] at hPlace
      cases hPlace
    · rcases List.mem_cons.mp hLater with rfl | hLater
      · cases hPlace
        exact ⟨index, List.mem_cons_self .., hGroup⟩
      · rcases h.from_list p hLater n hPlace with
          ⟨other, hListed, hOther⟩
        exact ⟨other, List.mem_cons_of_mem _ hListed, hOther⟩
  · rw [hPlaces]
    exact List.pairwise_cons.mpr
      ⟨h.le_of_mem_places, h.ordered⟩
  · intro other label' n hListed
    rw [List.zipIdx_cons] at hListed
    rw [hPlaces]
    rcases List.mem_cons.mp hListed with hHere | hLater
    · -- the group itself, which nothing was taken before
      cases hHere
      have hFree : ∀ n ∈ places (gapParts i start ++
          ⟨label, start, stop, some k⟩ :: parts), k ≤ n := by
        rw [hPlaces]
        intro n hn
        rcases List.mem_cons.mp hn with rfl | hn
        · exact Nat.le_refl n
        · exact Nat.le_of_succ_le (h.le_of_mem_places n hn)
      rw [lastStop_eq_self hFree]
      exact iff_of_true (List.mem_cons_self ..)
        ⟨start, stop, hGroup, hFilled, hStart⟩
    · have hkn : k < n := List.le_snd_of_mem_zipIdx hLater
      have hNot : n ≠ k := Nat.ne_of_gt hkn
      rw [lastStop_take rfl hkn, List.mem_cons,
        or_iff_right hNot]
      exact h.taken_iff other label' n hLater

/- The parts from a position on partition what is left. -/
theorem partitions_partsFrom
    (hWithin : ∀ index start stop,
      m.group? index = some (start, stop) → stop ≤ m.stop)
    (k : Nat)
    {i : Nat}
    (hi : i ≤ m.stop) :
    Partitions m i (groups.zipIdx k)
      (partsFrom m i k groups) := by
  induction groups generalizing i k with
  | nil => exact partitions_gapParts hi
  | cons group groups ih =>
      rcases group with ⟨index, label⟩
      unfold partsFrom
      split
      · rename_i hNone
        refine (ih (k + 1) hi).skip ?_
        intro start stop hGroup
        cases hNone.symm.trans hGroup
      · rename_i start stop hGroup
        split
        · rename_i hTaken
          exact (ih (k + 1)
            (hWithin index start stop hGroup)).take hGroup
              hTaken.1 hTaken.2
        · rename_i hLeft
          refine (ih (k + 1) hi).skip ?_
          intro start' stop' hGroup'
          cases hGroup.symm.trans hGroup'
          exact hLeft

/- The parts of a match are a partition of it. -/
theorem partitions_parts
    {a : Regex}
    {line : Text}
    (hFind : a.find line = some m)
    (groups : List (Nat × Option Label)) :
    Partitions m 0 groups.zipIdx (parts m groups) :=
  partitions_partsFrom
    (fun _ _ _ hGroup =>
      (Regex.find_group_within hFind hGroup).2.2)
    0 (Nat.zero_le m.stop)

end Hit

------------------------------------------------------------
-- Hits
------------------------------------------------------------

/- A rule with groups cuts the parts out of the line. -/
theorem Rule.apply_parts
    {r : Rule Pattern}
    {a : Regex}
    {groups : List (Nat × Option Label)}
    (hPattern : r.pattern = Pattern.regex a)
    (hLabelling : r.labelling = Labelling.captures groups)
    {line : Text}
    {m : Regex.Match}
    (hFind : a.find line = some m)
    (hPos : 0 < m.stop) :
    r.apply line =
      some ⟨m.stop,
        (Hit.parts m groups).map (Hit.Part.piece line)⟩ := by
  have hCut := Hit.cut_eq_map line m 0 0 groups
  rcases r with ⟨pattern, labelling, next, indents, dedents⟩
  cases hPattern
  cases hLabelling
  simp only [apply, hFind, Nat.ne_of_gt hPos, if_false, hCut,
    Hit.parts]

------------------------------------------------------------
-- Tokens
------------------------------------------------------------

/- What an effect does to the levels on a stack. -/
def Effect.onLevels
    (level : Nat)
    (levels : List Nat) : Effect → List Nat
  | Effect.indent => level :: levels
  | Effect.dedent => levels.tail
  | Effect.none => levels

namespace Token

/- Tokens without effect leave the levels as they are. -/
theorem foldl_applyEffect_of_none
    {tokens : List Token}
    (h : ∀ t ∈ tokens, t.effect = Effect.none)
    (level : Nat)
    (levels : List Nat) :
    tokens.foldl (applyEffect level) levels = levels := by
  induction tokens with
  | nil => rfl
  | cons t tokens ih =>
      rw [List.forall_mem_cons] at h
      have hOne : applyEffect level levels t = levels := by
        simp only [applyEffect, h.1]
      rw [List.foldl_cons, hOne]
      exact ih h.2

/-
  Tokens that are laid out, at least one, change the levels
  once, by the effect they are laid out with.
-/
theorem foldl_applyEffect_layOut
    {pieces : List Piece}
    (h : pieces ≠ [])
    (stateAfter : State)
    (effect : Effect)
    (n level : Nat)
    (levels : List Nat) :
    (layOut stateAfter effect n pieces).foldl
        (applyEffect level) levels =
      effect.onLevels level levels := by
  cases pieces with
  | nil => exact absurd rfl h
  | cons piece pieces =>
      rw [layOut, List.foldl_cons, foldl_applyEffect_of_none
        fun _ ht => effect_of_mem_layOut ht]
      cases effect <;> rfl

/- A part and the text before it make up the text by its end. -/
theorem size_take_stop
    (line : Text)
    {p : Hit.Part}
    (h : p.start < p.stop) :
    Text.size (line.take p.start) +
        (line.slice p.start p.stop).size =
      Text.size (line.take p.stop) := by
  rw [← Text.size_append, ← Text.slice_zero,
    Text.slice_append line (Nat.zero_le _) (Nat.le_of_lt h),
    Text.slice_zero]

/- Parts end to end are laid out where they say. -/
theorem layOut_parts
    {line : Text}
    {i n : Nat}
    {parts : List Hit.Part}
    (h : Hit.EndToEnd i n parts)
    (offset : Nat)
    (stateAfter : State) :
    layOut stateAfter Effect.none
        (offset + Text.size (line.take i))
        (parts.map (Hit.Part.piece line)) =
      parts.map (Hit.Part.token line offset stateAfter
        Effect.none) := by
  induction h with
  | nil n => rfl
  | @cons p parts n hFilled hRest ih =>
      rw [List.map_cons, List.map_cons, layOut, ← ih,
        ← size_take_stop line hFilled, Nat.add_assoc]
      rfl

/- The effect that they are laid out with is the first one's. -/
theorem layOut_parts_cons
    {line : Text}
    {n : Nat}
    {p : Hit.Part}
    {parts : List Hit.Part}
    (h : Hit.EndToEnd 0 n (p :: parts))
    (offset : Nat)
    (stateAfter : State)
    (effect : Effect) :
    layOut stateAfter effect offset
        ((p :: parts).map (Hit.Part.piece line)) =
      p.token line offset stateAfter effect ::
        parts.map (Hit.Part.token line offset stateAfter
          Effect.none) := by
  rcases h.of_cons with ⟨hStart, hFilled, hRest⟩
  have hOffset :
      offset + Text.size (line.take p.start) = offset := by
    rw [hStart]
    rfl
  rw [List.map_cons, layOut, ← layOut_parts hRest,
    ← size_take_stop line hFilled, ← Nat.add_assoc, hOffset,
    Hit.Part.token, hOffset]
  rfl

end Token

------------------------------------------------------------
-- Steps
------------------------------------------------------------

namespace RuleTable

/- The tokens of a step stand where they say. -/
theorem standsIn_of_stepOn
    {table : RuleTable}
    {cursor : Cursor}
    {text rest : Text}
    {s : Step}
    (hSuffix : text.suffixAt cursor.offset = some rest)
    (h : table.stepOn cursor rest = some s) :
    ∀ t ∈ s.tokens, t.StandsIn text := by
  rcases Text.suffixAt_eq_some_iff.mp hSuffix with
    ⟨before, rfl, hBefore⟩
  have hTiles := table.scanFrom_tiles cursor rest
  rw [← hBefore, scanFrom_of_stepOn h] at hTiles
  intro t ht
  exact hTiles.standsIn before t
    (List.mem_append_left _ ht)

/-
  The step of a rule that fires changes the levels once at
  most, as the rule says.
-/
theorem foldl_applyEffect_stepOver
    {line : Text}
    {hit : Hit}
    (hCovers : hit.Covers line)
    (cursor : Cursor)
    (text : Text)
    (stateAfter : State)
    (effect : Effect)
    (level : Nat)
    (levels : List Nat) :
    (stepOver cursor text hit.length hit.pieces stateAfter
        effect).tokens.foldl
        (Token.applyEffect level) levels =
      effect.onLevels level levels :=
  Token.foldl_applyEffect_layOut hCovers.pieces_ne_nil
    stateAfter effect cursor.offset level levels

/-
  A match split by listed groups, whatever the expression,
  the groups and the line, if it ends after the start of the
  line. The rule consumes the line up to the end of the
  match, cut into the parts of it, which are a partition by
  the groups as they are listed. Where the rule is the first
  to fire, the step makes one token of each part, at its
  bytes in the text. All of them have the state after the
  rule; the first has the effect of the rule and no other
  has one, so the levels change once at most.
-/
theorem split_by_groups
    {r : Rule Pattern}
    {a : Regex}
    {groups : List (Nat × Option Label)}
    (hPattern : r.pattern = Pattern.regex a)
    (hLabelling : r.labelling = Labelling.captures groups)
    {line : Text}
    {m : Regex.Match}
    (hFind : a.find line = some m)
    (hPos : 0 < m.stop) :
    let parts := Hit.parts m groups
    let hit : Hit :=
      ⟨m.stop, parts.map (Hit.Part.piece line)⟩
    r.apply line = some hit ∧
    Hit.Partitions m 0 groups.zipIdx parts ∧
    (∀ p ∈ parts, p.stop ≤ line.length ∧ p.StandsIn line) ∧
    ∀ (table : RuleTable) (text : Text) (cursor : Cursor)
        (rest : Text),
      text.suffixAt cursor.offset = some rest →
      rest.currentLine = line →
      firstHit line (table.rules cursor.state) =
        some (r, hit) →
      let token := Hit.Part.token line cursor.offset
        (r.stateAfter cursor.state)
      ∃ s first others,
        table.step text cursor = some s ∧
          parts = first :: others ∧
          s.tokens = token r.effect first ::
            others.map (token Effect.none) ∧
          (∀ t ∈ s.tokens, t.StandsIn text) ∧
          s.cursor =
            ⟨cursor.offset + Text.size (line.take m.stop),
              r.stateAfter cursor.state⟩ ∧
          ∀ level levels,
            s.tokens.foldl (Token.applyEffect level) levels =
              r.effect.onLevels level levels := by
  intro parts hit
  have hApply : r.apply line = some hit :=
    Rule.apply_parts hPattern hLabelling hFind hPos
  have hCovers := Rule.apply_covers hApply
  have hPartitions := Hit.partitions_parts hFind groups
  have hEnds : Hit.EndToEnd 0 m.stop parts :=
    hPartitions.endToEnd
  refine ⟨hApply, hPartitions, ?_, ?_⟩
  · intro p hp
    rcases hEnds.bounds.2 p hp with ⟨hFilled, hStop⟩
    exact ⟨Nat.le_trans hStop hCovers.length_le,
      Hit.Part.standsIn line (Nat.le_of_lt hFilled)⟩
  intro table text cursor rest hSuffix hLine hFirst token
  have hPlace : rest ≠ [] ∧ Text.breakLength rest = 0 := by
    rw [← hLine] at hApply
    exact breakLength_of_apply hApply
  rw [← hLine] at hFirst
  have hStep :=
    stepOn_of_firstHit hPlace.1 hPlace.2 hFirst
  cases hParts : parts with
  | nil => exact absurd hParts (hEnds.ne_nil hPos)
  | cons first others =>
      rw [hParts] at hEnds
      have hTake : rest.take m.stop = line.take m.stop := by
        rw [← hLine] at hCovers ⊢
        exact (Text.take_currentLine hCovers.length_le).symm
      refine ⟨_, first, others, ?_, rfl, ?_,
        standsIn_of_stepOn hSuffix hStep, ?_, ?_⟩
      · rw [step, hSuffix]
        exact hStep
      · change Token.layOut _ _ _ (parts.map _) = _
        rw [hParts]
        exact Token.layOut_parts_cons hEnds cursor.offset
          (r.stateAfter cursor.state) r.effect
      · rw [← hTake]
        rfl
      · exact foldl_applyEffect_stepOver hCovers cursor rest
          (r.stateAfter cursor.state) r.effect

/-
  A choice whose second branch may match further on, with
  groups around each other, one after the other, and one
  that may be missing.
-/
def branching : Regex :=
  Regex.alt
    (Regex.cat (Regex.assert Assertion.textStart)
      (Regex.group none (Regex.char 'a')))
    (Regex.group (some 1)
      (Regex.concat
        [Regex.group (some 2) (Regex.char 'b'),
         Regex.group (some 3) (Regex.char 'c'),
         Regex.char 'd',
         Regex.times 0 (some 1) true
           (Regex.group (some 4) (Regex.char 'e'))]))

/- Its groups in no order, some twice and some not there. -/
def branchingGroups : List (Nat × Option Label) :=
  [(3, some Label.definition), (9, some Label.keyword),
   (2, some Label.keyword), (0, none),
   (3, some Label.keyword), (4, some Label.atom)]

/-
  The group listed first stands late in the match, so those
  around it and before it are left out.
-/
theorem split_by_groups_branching :
    let r : Rule Pattern :=
      { pattern := Pattern.regex branching
        labelling := Labelling.captures branchingGroups
        indents := true }
    let table := RuleTable.empty.insert State.start [r]
    Pattern.compile?
        (Pattern.Source.regex "a)|((b)(c)d(e)?".toList) =
      some (Pattern.regex branching) ∧
    ∃ m s,
      branching.find "xbcde".toList = some m ∧
      Hit.parts m branchingGroups =
        [⟨none, 0, 2, none⟩,
         ⟨some Label.definition, 2, 3, some 0⟩,
         ⟨none, 3, 4, none⟩,
         ⟨some Label.atom, 4, 5, some 5⟩] ∧
      table.step "é\nxbcde\n".toList ⟨3, State.start⟩ =
        some s ∧
      s.tokens.map (fun t => (t.start, t.effect)) =
        [(3, Effect.indent), (5, Effect.none),
         (6, Effect.none), (7, Effect.none)] := by
  intro r table
  have hFind : branching.find "xbcde".toList =
      some ⟨1, ⟨some 'e', [], 5,
        [⟨1, 1, 5⟩, ⟨4, 4, 5⟩, ⟨3, 2, 3⟩, ⟨2, 1, 2⟩]⟩⟩ := by
    decide +kernel
  rcases split_by_groups (r := r) rfl rfl hFind (by decide)
    with ⟨-, -, -, hSteps⟩
  rcases hSteps table "é\nxbcde\n".toList ⟨3, State.start⟩
      "xbcde\n".toList (by decide) (by decide)
      (by decide +kernel) with
    ⟨s, first, others, hStep, hParts, hTokens, -⟩
  refine ⟨by decide, _, s, hFind, by decide, hStep, ?_⟩
  cases hParts
  rw [hTokens]
  decide

end RuleTable

end Highlighter

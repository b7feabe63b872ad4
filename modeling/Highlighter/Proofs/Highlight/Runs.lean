import Highlighter.Proofs.Highlight
import Highlighter.Proofs.Scan.Step
import Mathlib.Data.List.SplitBy

/-
  The runs of a highlighted text are its tokens with those
  that may share a run merged, as far as that goes: they
  cover the text, keep the label of every byte, leave each
  line break to itself, and no two neighbours could be
  merged further.

  Key definitions include:
    * `Token.merge`
    * `Run.merged`
    * `Run.Covers`
    * `Run.Over`
    * `Run.IsBreakOf`
    * `Run.WithinLine`

  Main statements:
    * `Run.ofTokens_eq_map_merged`: runs are the largest
      groups of neighbours that may share one.
    * `Run.exists_merged_around`: each token lies in a group
      with its label.
    * `Run.isChain_merged`: neighbouring groups differ in
      label or are parted by a line break.
    * `Highlight.runs_coarsest`
-/

namespace Highlighter

------------------------------------------------------------
-- Merged tokens
------------------------------------------------------------

namespace Token

/-
  Tokens that lie end to end as one token, labelled as the
  first of them.
-/
def merge : List Token → Token
  | [] => ⟨none, [], 0, State.start, Effect.none⟩
  | t :: rest => { t with text := (t :: rest).flatMap text }

@[simp]
theorem merge_singleton (t : Token) : merge [t] = t := by
  simp [merge]

/- The merged token tiles what the tokens tile. -/
theorem Tiles.merge
    {n : Nat}
    {block : List Token}
    {s : Text}
    (h : Tiles n block s)
    (hSome : block ≠ []) : Tiles n [Token.merge block] s := by
  have hText := h.flatMap_text
  cases h with
  | nil n => exact absurd rfl hSome
  | @cons t block rest hFirst hRest =>
      have hMerged := Tiles.cons
        (t := Token.merge (t :: block))
        (by
          intro hNil
          exact hFirst (List.append_eq_nil_iff.mp hNil).1)
        (Tiles.nil _)
      rw [List.append_nil] at hMerged
      rw [← hText]
      exact hMerged

/- It is around each of them. -/
theorem Tiles.merge_bounds
    {n : Nat}
    {block : List Token}
    {s : Text}
    (h : Tiles n block s)
    {t : Token}
    (ht : t ∈ block) :
    (Token.merge block).start ≤ t.start ∧
      t.stop ≤ (Token.merge block).stop := by
  have hMerged := h.merge (List.ne_nil_of_mem ht)
  have hStart := hMerged.start_head _ rfl
  have hStop : (Token.merge block).stop = n + s.size :=
    hMerged.stop_getLast
  rw [hStart, hStop]
  exact h.bounds t ht

/- Groups of a tiling that are merged are a tiling. -/
theorem Tiles.map_merge
    {n : Nat}
    {blocks : List (List Token)}
    {s : Text}
    (h : Tiles n blocks.flatten s)
    (hSome : ∀ block ∈ blocks, block ≠ []) :
    Tiles n (blocks.map Token.merge) s := by
  induction blocks generalizing n s with
  | nil => exact h
  | cons block blocks ih =>
      rw [List.forall_mem_cons] at hSome
      rw [List.flatten_cons] at h
      rcases h.of_append with ⟨a, b, rfl, hBlock, hBlocks⟩
      exact (hBlock.merge hSome.1).append
        (ih hBlocks hSome.2)

/- Each group tiles a part of the text. -/
theorem Tiles.of_mem_flatten
    {n : Nat}
    {blocks : List (List Token)}
    {s : Text}
    (h : Tiles n blocks.flatten s)
    {block : List Token}
    (hBlock : block ∈ blocks) : ∃ m u, Tiles m block u := by
  rcases List.append_of_mem hBlock with
    ⟨before, after, rfl⟩
  rw [List.flatten_append, List.flatten_cons] at h
  rcases h.of_append with ⟨a, b, -, -, hRest⟩
  rcases hRest.of_append with ⟨c, d, -, hHere, -⟩
  exact ⟨n + a.size, c, hHere⟩

end Token

namespace Run

------------------------------------------------------------
-- Groups
------------------------------------------------------------

theorem joins_iff {t u : Token} :
    joins t u = true ↔
      (t.isLineBreak = false ∧ u.isLineBreak = false) ∧
        t.label = u.label := by
  simp [joins]

/- Two tokens that do not share a run part the groups. -/
theorem splitBy_of_not_joins
    {t u : Token}
    (h : joins t u = false)
    (rest : List Token) :
    (t :: u :: rest).splitBy joins =
      [t] :: (u :: rest).splitBy joins := by
  have hSplit := List.splitBy_append_cons (r := joins)
    (l := [t]) (a := u) rest (by simp [h])
  rw [List.splitBy_of_isChain (List.cons_ne_nil t [])
    (List.isChain_singleton t)] at hSplit
  exact hSplit

/- Two that do are in one group. -/
theorem splitBy_of_joins
    {t u : Token}
    (h : joins t u = true)
    (rest : List Token) :
    ∃ block blocks,
      (u :: rest).splitBy joins = (u :: block) :: blocks ∧
        (t :: u :: rest).splitBy joins =
          (t :: u :: block) :: blocks := by
  have hFlatten := List.flatten_splitBy joins (u :: rest)
  have hSome := List.nil_notMem_splitBy joins (u :: rest)
  have hChain := fun block =>
    List.isChain_of_mem_splitBy (m := block) (r := joins)
      (l := u :: rest)
  have hParted :=
    List.isChain_getLast_head_splitBy joins (u :: rest)
  cases hSplit : (u :: rest).splitBy joins with
  | nil => simp at hSplit
  | cons first blocks =>
      rw [hSplit] at hFlatten hSome hChain hParted
      cases first with
      | nil => simp at hSome
      | cons v block =>
          have hFirst : v = u := by
            simpa using congrArg List.head? hFlatten
          subst hFirst
          refine ⟨block, blocks, rfl, ?_⟩
          rw [List.splitBy_eq_iff]
          refine ⟨?_, ?_, ?_, ?_⟩
          · rw [← hFlatten]
            rfl
          · simpa using hSome
          · intro other hOther
            rcases List.mem_cons.mp hOther with rfl | hLater
            · exact List.isChain_cons_cons.mpr
                ⟨h, hChain _ (List.mem_cons_self ..)⟩
            · exact hChain other
                (List.mem_cons_of_mem _ hLater)
          · -- the group ends as before
            rw [List.isChain_cons] at hParted ⊢
            refine ⟨?_, hParted.2⟩
            intro next hNext
            rcases hParted.1 next hNext with
              ⟨hHere, hThere, hNot⟩
            refine ⟨List.cons_ne_nil _ _, hThere, ?_⟩
            rw [List.getLast_cons hHere]
            exact hNot

/- The tokens of a group share the label of the first. -/
theorem label_eq_of_isChain
    {t : Token}
    {rest : List Token}
    (h : (t :: rest).IsChain fun a b => joins a b = true) :
    ∀ u ∈ t :: rest, u.label = t.label := by
  induction rest generalizing t with
  | nil =>
      intro u hu
      rw [List.mem_singleton.mp hu]
  | cons v rest ih =>
      rw [List.isChain_cons_cons] at h
      intro u hu
      rcases List.mem_cons.mp hu with rfl | hLater
      · rfl
      · rw [ih h.2 u hLater]
        exact (joins_iff.mp h.1).2.symm

/- No line break is in a group with another token. -/
theorem not_isLineBreak_of_isChain
    {t v : Token}
    {rest : List Token}
    (h : (t :: v :: rest).IsChain
      fun a b => joins a b = true) :
    ∀ u ∈ t :: v :: rest, u.isLineBreak = false := by
  rw [List.isChain_cons_cons] at h
  have hBreaks := (joins_iff.mp h.1).1
  intro u hu
  rcases List.mem_cons.mp hu with rfl | hLater
  · exact hBreaks.1
  · cases rest with
    | nil =>
        rw [List.mem_singleton.mp hLater]
        exact hBreaks.2
    | cons w rest =>
        exact not_isLineBreak_of_isChain h.2 u hLater

/- So a line break in a group is all of it. -/
theorem eq_singleton_of_isLineBreak
    {block : List Token}
    (h : block.IsChain fun a b => joins a b = true)
    {t : Token}
    (ht : t ∈ block)
    (hBreak : t.isLineBreak = true) : block = [t] := by
  cases block with
  | nil => cases ht
  | cons first others =>
      cases others with
      | nil => rw [List.mem_singleton.mp ht]
      | cons v rest =>
          have hNot := not_isLineBreak_of_isChain h t ht
          rw [hBreak] at hNot
          cases hNot

------------------------------------------------------------
-- Runs as merged groups
------------------------------------------------------------

/-
  Tokens with each largest group of neighbours that may
  share a run merged into one.
-/
def merged (tokens : List Token) : List Token :=
  (tokens.splitBy joins).map Token.merge

theorem push_of_not_joins
    {t u : Token}
    (h : joins t u = false)
    (runs : List Run) :
    push t (some u) runs = ofToken t :: runs := by
  cases runs with
  | nil => rfl
  | cons run runs => simp [push, h]

/- The runs of a tiling are those of its merged tokens. -/
theorem ofTokens_eq_map_merged
    {n : Nat}
    {tokens : List Token}
    {s : Text}
    (h : Token.Tiles n tokens s) :
    ofTokens tokens = (merged tokens).map ofToken := by
  induction h with
  | nil n => rfl
  | @cons t tokens rest hText hRest ih =>
      cases tokens with
      | nil =>
          rw [merged, List.splitBy_of_isChain
            (List.cons_ne_nil t [])
            (List.isChain_singleton t)]
          simp [ofTokens, push]
      | cons u more =>
          rw [ofTokens, ih, List.head?_cons]
          cases hJoins : joins t u with
          | false =>
              rw [push_of_not_joins hJoins, merged, merged,
                splitBy_of_not_joins hJoins]
              simp
          | true =>
              rcases splitBy_of_joins hJoins more with
                ⟨block, blocks, hSplit, hJoined⟩
              -- the token lies right before the group
              have hStart : u.start = t.stop :=
                hRest.start_head u rfl
              rw [merged, merged, hSplit, hJoined]
              simp only [List.map_cons, push, Option.any_some,
                hJoins, if_true]
              congr 1
              simp only [ofToken, Token.merge, Token.stop,
                List.flatMap_cons, Text.size_append] at hStart ⊢
              rw [hStart]
              simp only [Run.mk.injEq, true_and]
              omega

/- And these tile the same text. -/
theorem tiles_merged
    {n : Nat}
    {tokens : List Token}
    {s : Text}
    (h : Token.Tiles n tokens s) :
    Token.Tiles n (merged tokens) s := by
  rw [← List.flatten_splitBy joins tokens] at h
  exact h.map_merge fun block hBlock =>
    List.ne_nil_of_mem_splitBy hBlock

/-
  Each token lies in a merged one that has its label, and is
  all of it if it is a line break.
-/
theorem exists_merged_around
    {n : Nat}
    {tokens : List Token}
    {s : Text}
    (h : Token.Tiles n tokens s)
    {t : Token}
    (ht : t ∈ tokens) :
    ∃ m ∈ merged tokens,
      m.label = t.label ∧
      (m.start ≤ t.start ∧ t.stop ≤ m.stop) ∧
      (t.isLineBreak = true → m = t) := by
  rw [← List.flatten_splitBy joins tokens] at h ht
  rcases List.mem_flatten.mp ht with ⟨block, hBlock, hMem⟩
  have hChain := List.isChain_of_mem_splitBy hBlock
  rcases h.of_mem_flatten hBlock with ⟨k, u, hTiles⟩
  refine ⟨Token.merge block, List.mem_map_of_mem hBlock, ?_,
    hTiles.merge_bounds hMem, ?_⟩
  · cases block with
    | nil => cases hMem
    | cons first others =>
        exact (label_eq_of_isChain hChain t hMem).symm
  · intro hBreak
    rw [eq_singleton_of_isLineBreak hChain hMem hBreak,
      Token.merge_singleton]

/- A merged token is a line break or lies within a line. -/
theorem merged_kind
    {tokens : List Token}
    (h : ∀ t ∈ tokens,
      t.isLineBreak = true ∨ t.text.BreakFree)
    {m : Token}
    (hm : m ∈ merged tokens) :
    (m ∈ tokens ∧ m.isLineBreak = true) ∨
      m.text.BreakFree := by
  rcases List.mem_map.mp hm with ⟨block, hBlock, rfl⟩
  have hChain := List.isChain_of_mem_splitBy hBlock
  have hTokens : ∀ t ∈ block, t ∈ tokens := by
    intro t ht
    rw [← List.flatten_splitBy joins tokens]
    exact List.mem_flatten_of_mem hBlock ht
  cases block with
  | nil => exact absurd rfl (List.ne_nil_of_mem_splitBy hBlock)
  | cons t others =>
      by_cases hBreak : ∃ u ∈ t :: others, u.isLineBreak = true
      · rcases hBreak with ⟨u, hu, hIs⟩
        rw [eq_singleton_of_isLineBreak hChain hu hIs,
          Token.merge_singleton]
        exact Or.inl ⟨hTokens u hu, hIs⟩
      · right
        intro c hc
        rcases List.mem_flatMap.mp hc with ⟨u, hu, hMem⟩
        rcases h u (hTokens u hu) with hIs | hFree
        · exact absurd ⟨u, hu, hIs⟩ hBreak
        · exact hFree c hMem

/-
  Where one merged token follows another of its label, one
  of the two is a line break.
-/
theorem isChain_merged (tokens : List Token) :
    (merged tokens).IsChain fun m next =>
      m.label = next.label →
        m.isLineBreak = true ∨ next.isLineBreak = true := by
  rw [merged, List.isChain_map]
  refine (List.isChain_getLast_head_splitBy joins
    tokens).imp_of_mem_imp ?_
  rintro a b ha hb ⟨hLast, hHead, hNot⟩ hLabel
  have hChainA := List.isChain_of_mem_splitBy ha
  have hChainB := List.isChain_of_mem_splitBy hb
  have hLastMem := List.getLast_mem hLast
  have hHeadMem := List.head_mem hHead
  by_cases hBreakA : (a.getLast hLast).isLineBreak = true
  · left
    rw [eq_singleton_of_isLineBreak hChainA hLastMem hBreakA,
      Token.merge_singleton]
    exact hBreakA
  · by_cases hBreakB : (b.head hHead).isLineBreak = true
    · right
      rw [eq_singleton_of_isLineBreak hChainB hHeadMem
        hBreakB, Token.merge_singleton]
      exact hBreakB
    · -- then they would share a run
      have hLabelA : (a.getLast hLast).label =
          (Token.merge a).label := by
        cases a with
        | nil => exact absurd rfl hLast
        | cons first others =>
            exact label_eq_of_isChain hChainA _ hLastMem
      have hLabelB : (b.head hHead).label =
          (Token.merge b).label := by
        cases b with
        | nil => exact absurd rfl hHead
        | cons first others => rfl
      have hJoins :
          joins (a.getLast hLast) (b.head hHead) = true := by
        rw [joins_iff, hLabelA, hLabelB]
        simp [hBreakA, hBreakB, hLabel]
      rw [hJoins] at hNot
      cases hNot

------------------------------------------------------------
-- Runs of a text
------------------------------------------------------------

/-
  Runs cover a text when the first starts at zero, each
  starts where the one before it ended, the last ends at the
  end of the text, and none is empty.
-/
structure Covers (text : Text) (runs : List Run) : Prop where
  start_head : ∀ r, runs.head? = some r → r.start = 0
  isChain : runs.IsChain fun r next => next.start = r.stop
  stop_last : (runs.getLast?.map stop).getD 0 = text.size
  start_lt_stop : ∀ r ∈ runs, r.start < r.stop

/- A run stands over a byte offset. -/
def Over (n : Nat) (r : Run) : Prop :=
  r.start ≤ n ∧ n < r.stop

/- A run is that of a token that is a line break. -/
def IsBreakOf (tokens : List Token) (r : Run) : Prop :=
  ∃ t ∈ tokens, t.isLineBreak = true ∧ r = ofToken t

/- A run is one over a part of a text without breaks. -/
def WithinLine (text : Text) (r : Run) : Prop :=
  ∃ before body after, text = before ++ body ++ after ∧
    r.start = Text.size before ∧
    r.stop = r.start + Text.size body ∧ body.BreakFree

/- The runs of a tiling cover its text. -/
theorem covers_ofTokens
    {tokens : List Token}
    {text : Text}
    (h : Token.Tiles 0 tokens text) :
    Covers text (ofTokens tokens) := by
  have hMerged := tiles_merged h
  rw [ofTokens_eq_map_merged h]
  constructor
  · intro r hr
    rw [List.head?_map, Option.map_eq_some_iff] at hr
    rcases hr with ⟨m, hm, rfl⟩
    exact hMerged.start_head m hm
  · rw [List.isChain_map]
    exact hMerged.isChain
  · have hStop := hMerged.stop_getLast
    rw [Nat.zero_add] at hStop
    rw [List.getLast?_map, Option.map_map]
    exact hStop
  · intro r hr
    rcases List.mem_map.mp hr with ⟨m, hm, rfl⟩
    exact Token.start_lt_stop (hMerged.text_ne_nil m hm)

/-
  Each byte has one token and one run over it, and these
  have the same label.
-/
theorem exists_over_ofTokens
    {tokens : List Token}
    {text : Text}
    (h : Token.Tiles 0 tokens text)
    {i : Nat}
    (hi : i < text.size) :
    ∃ r ∈ ofTokens tokens, ∃ t ∈ tokens,
      (r.Over i ∧ t.Over i) ∧ r.label = t.label ∧
        (∀ r' ∈ ofTokens tokens, r'.Over i → r' = r) ∧
        ∀ t' ∈ tokens, t'.Over i → t' = t := by
  have hMerged := tiles_merged h
  rcases h.exists_over_of_lt (Nat.zero_le i) (by omega) with
    ⟨t, ht, hOver⟩
  rcases exists_merged_around h ht with
    ⟨m, hm, hLabel, ⟨hStart, hStop⟩, -⟩
  have hAround : m.Over i :=
    ⟨Nat.le_trans hStart hOver.1,
      Nat.lt_of_lt_of_le hOver.2 hStop⟩
  rw [ofTokens_eq_map_merged h]
  refine ⟨ofToken m, List.mem_map_of_mem hm, t, ht,
    ⟨hAround, hOver⟩, hLabel, ?_, ?_⟩
  · intro r hr hOther
    rcases List.mem_map.mp hr with ⟨m', hm', rfl⟩
    rw [hMerged.over_unique hm' hm hOther hAround]
  · intro t' ht' hOther
    exact h.over_unique ht' ht hOther hOver

/- The run of a token that tiles a line is within it. -/
theorem withinLine_of_standsIn
    {text : Text}
    {t : Token}
    (h : t.StandsIn text)
    (hFree : t.text.BreakFree) :
    (ofToken t).WithinLine text := by
  rcases h with ⟨after, hStart, -⟩
  rcases Text.suffixAt_eq_some_iff.mp hStart with
    ⟨before, hText, hSize⟩
  refine ⟨before, t.text, after, ?_, hSize.symm, rfl, hFree⟩
  rw [hText, List.append_assoc]

end Run

/-
  For every table, text and state: the runs of the
  highlighted text cover it; each byte has the same label in
  its run as in its token; each line break is a run by
  itself, and every other run lies within a line; and
  neighbours have the same label only if one of them is a
  line break.
-/
theorem Highlight.runs_coarsest
    (table : RuleTable)
    (text : Text)
    (state : State) :
    let h := table.highlight text state
    Run.Covers text h.runs ∧
    (∀ i, i < text.size →
      ∃ r ∈ h.runs, ∃ t ∈ h.tokens,
        (r.Over i ∧ t.Over i) ∧ r.label = t.label ∧
          (∀ r' ∈ h.runs, r'.Over i → r' = r) ∧
          ∀ t' ∈ h.tokens, t'.Over i → t' = t) ∧
    (∀ t ∈ h.tokens, t.isLineBreak = true →
      Run.ofToken t ∈ h.runs) ∧
    (∀ r ∈ h.runs,
      r.IsBreakOf h.tokens ∨ r.WithinLine text) ∧
    h.runs.IsChain fun r next =>
      r.label = next.label →
        r.IsBreakOf h.tokens ∨ next.IsBreakOf h.tokens := by
  intro h
  have hTiles : Token.Tiles 0 h.tokens text :=
    table.scanFrom_tiles ⟨0, state⟩ text
  have hKind : ∀ t ∈ h.tokens,
      t.isLineBreak = true ∨ t.text.BreakFree :=
    table.scanFrom_kind ⟨0, state⟩ text
  have hMerged := Run.tiles_merged hTiles
  have hRuns : h.runs = (Run.merged h.tokens).map
      Run.ofToken := Run.ofTokens_eq_map_merged hTiles
  refine ⟨Run.covers_ofTokens hTiles,
    fun i hi => Run.exists_over_ofTokens hTiles hi,
    ?_, ?_, ?_⟩
  · intro t ht hBreak
    rcases Run.exists_merged_around hTiles ht with
      ⟨m, hm, -, -, hSelf⟩
    rw [hRuns, ← hSelf hBreak]
    exact List.mem_map_of_mem hm
  · intro r hr
    rw [hRuns] at hr
    rcases List.mem_map.mp hr with ⟨m, hm, rfl⟩
    refine (Run.merged_kind hKind hm).imp ?_ ?_
    · rintro ⟨hToken, hBreak⟩
      exact ⟨m, hToken, hBreak, rfl⟩
    · exact Run.withinLine_of_standsIn
        (Token.Tiles.standsIn [] hMerged m hm)
  · -- a merged token that is a line break is one of the scan
    have hBreakOf : ∀ m ∈ Run.merged h.tokens,
        m.isLineBreak = true →
          (Run.ofToken m).IsBreakOf h.tokens := by
      intro m hm hBreak
      rcases Run.merged_kind hKind hm with ⟨hToken, -⟩ | hFree
      · exact ⟨m, hToken, hBreak, rfl⟩
      · exact absurd hFree
          (Text.not_breakFree_of_isLineBreak hBreak)
    rw [hRuns, List.isChain_map]
    refine (Run.isChain_merged h.tokens).imp_of_mem_imp ?_
    intro m next hm hNext hParted hLabel
    exact (hParted hLabel).imp (hBreakOf m hm)
      (hBreakOf next hNext)

end Highlighter

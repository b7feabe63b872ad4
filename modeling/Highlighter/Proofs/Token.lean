import Highlighter.Proofs.Rule
import Highlighter.Proofs.Text.Offsets
import Highlighter.Token
import Mathlib.Data.List.Chain

/-
  Tokens that lie end to end and make up a text.

  Key definitions include:
    * `Token.Tiles`
    * `Token.StandsIn`
    * `Token.Over`

  Main statements:
    * `Token.tiles_layOut`: pieces that are laid out tile
      the text they make up.
    * `Token.Tiles.standsIn`: tokens that tile a text stand
      in it where they say.
    * `Token.Tiles.filter_stop_le`: the tokens that end by
      the end of a first part are those of that part.
    * `Token.Tiles.exists_over_of_lt` and
      `Token.Tiles.over_unique`: over each byte of a text
      there is one token of a tiling.
-/

namespace Highlighter

namespace Token

------------------------------------------------------------
-- Tilings
------------------------------------------------------------

/-
  Tokens tile a text from a byte offset on when each of them
  starts where the one before ended, none is empty, and
  their texts make up the text.
-/
inductive Tiles : Nat → List Token → Text → Prop
  | nil (n : Nat) : Tiles n [] []
  | cons
      {t : Token}
      {tokens : List Token}
      {rest : Text}
      (hText : t.text ≠ [])
      (hRest : Tiles t.stop tokens rest) :
      Tiles t.start (t :: tokens) (t.text ++ rest)

/- One tiling after another is a tiling. -/
theorem Tiles.append
    {n : Nat}
    {xs ys : List Token}
    {s t : Text}
    (hxs : Tiles n xs s)
    (hys : Tiles (n + s.size) ys t) :
    Tiles n (xs ++ ys) (s ++ t) := by
  induction hxs with
  | nil n => simpa using hys
  | @cons x xs rest hText hRest ih =>
      rw [List.cons_append, List.append_assoc]
      apply Tiles.cons hText
      apply ih
      rw [stop, Nat.add_assoc, ← Text.size_append]
      exact hys

/- Pieces that are laid out tile the text they make up. -/
theorem tiles_layOut
    {pieces : List Piece}
    (hFilled : ∀ piece ∈ pieces, piece.text ≠ [])
    (stateAfter : State)
    (effect : Effect)
    (n : Nat) :
    Tiles n (layOut stateAfter effect n pieces)
      (Piece.join pieces) := by
  induction pieces generalizing effect n with
  | nil => exact Tiles.nil n
  | cons piece pieces ih =>
      have hHead : piece.text ≠ [] :=
        hFilled piece (List.mem_cons_self ..)
      have hTail : ∀ piece ∈ pieces, piece.text ≠ [] :=
        fun p hp => hFilled p (List.mem_cons_of_mem piece hp)
      exact Tiles.cons
        (t := ⟨piece.label, piece.text, n, stateAfter, effect⟩)
        hHead (ih hTail Effect.none (n + piece.text.size))

/- The texts of a tiling make up the text. -/
theorem Tiles.flatMap_text
    {n : Nat}
    {tokens : List Token}
    {s : Text}
    (h : Tiles n tokens s) : tokens.flatMap Token.text = s := by
  induction h with
  | nil n => rfl
  | cons hText hRest ih => rw [List.flatMap_cons, ih]

/- Each character of a token is one of the text. -/
theorem Tiles.mem_of_mem_text
    {n : Nat}
    {tokens : List Token}
    {s : Text}
    (h : Tiles n tokens s)
    {t : Token}
    (ht : t ∈ tokens)
    {c : Char}
    (hc : c ∈ t.text) : c ∈ s := by
  rw [← h.flatMap_text]
  exact List.mem_flatMap.mpr ⟨t, ht, hc⟩

/- A tiling by two lists of tokens is two tilings. -/
theorem Tiles.of_append
    {n : Nat}
    {xs ys : List Token}
    {s : Text}
    (h : Tiles n (xs ++ ys) s) :
    ∃ a b, s = a ++ b ∧ Tiles n xs a ∧
      Tiles (n + a.size) ys b := by
  induction xs generalizing n s with
  | nil => exact ⟨[], s, rfl, Tiles.nil n, h⟩
  | cons x xs ih =>
      cases h with
      | cons hText hRest =>
          rcases ih hRest with ⟨a, b, rfl, hxs, hys⟩
          refine ⟨x.text ++ a, b, ?_, Tiles.cons hText hxs, ?_⟩
          · rw [List.append_assoc]
          · rw [Text.size_append, ← Nat.add_assoc]
            exact hys

/- Only the empty text is tiled by no token. -/
theorem Tiles.ne_nil
    {n : Nat}
    {tokens : List Token}
    {s : Text}
    (h : Tiles n tokens s)
    (hs : s ≠ []) : tokens ≠ [] := by
  rintro rfl
  cases h
  exact hs rfl

------------------------------------------------------------
-- Places of tokens
------------------------------------------------------------

/-
  A token stands in a text where it says: the text goes on
  with it at the start of the token, and with what is after
  it at the end. Both are boundaries of the text.
-/
def StandsIn (text : Text) (t : Token) : Prop :=
  ∃ rest, text.suffixAt t.start = some (t.text ++ rest) ∧
    text.suffixAt t.stop = some rest

/- No token of a tiling is empty. -/
theorem Tiles.text_ne_nil
    {n : Nat}
    {tokens : List Token}
    {s : Text}
    (h : Tiles n tokens s) :
    ∀ t ∈ tokens, t.text ≠ [] := by
  induction h with
  | nil n =>
      intro t ht
      cases ht
  | cons hText hRest ih =>
      intro t ht
      rcases List.mem_cons.mp ht with rfl | ht
      · exact hText
      · exact ih t ht

/- A token that is not empty ends after its start. -/
theorem start_lt_stop
    {t : Token}
    (h : t.text ≠ []) : t.start < t.stop := by
  have hPos := Text.size_pos h
  unfold stop
  omega

/- The tokens of a tiling lie between its two ends. -/
theorem Tiles.bounds
    {n : Nat}
    {tokens : List Token}
    {s : Text}
    (h : Tiles n tokens s) :
    ∀ t ∈ tokens, n ≤ t.start ∧ t.stop ≤ n + s.size := by
  induction h with
  | nil n =>
      intro t ht
      cases ht
  | @cons x tokens rest hText hRest ih =>
      intro t ht
      rcases List.mem_cons.mp ht with rfl | ht
      · refine ⟨Nat.le_refl _, ?_⟩
        rw [stop, Text.size_append]
        omega
      · have hBounds := ih t ht
        have hLt := start_lt_stop hText
        simp only [stop, Text.size_append] at hBounds hLt ⊢
        omega

/- The tokens of a tiling stand where they say. -/
theorem Tiles.standsIn
    {tokens : List Token}
    (before : Text)
    {s : Text}
    (h : Tiles before.size tokens s) :
    ∀ t ∈ tokens, t.StandsIn (before ++ s) := by
  generalize hn : before.size = n at h
  induction h generalizing before with
  | nil n =>
      intro t ht
      cases ht
  | @cons x tokens rest hText hRest ih =>
      intro t ht
      have hStop : (before ++ x.text).size = x.stop := by
        rw [Text.size_append, hn, stop]
      rcases List.mem_cons.mp ht with rfl | ht
      · refine ⟨rest, ?_, ?_⟩
        · rw [← hn, Text.suffixAt_append]
        · rw [← hStop, ← List.append_assoc,
            Text.suffixAt_append]
      · rw [← List.append_assoc]
        exact ih _ hStop t ht

/- The first token of a tiling starts it. -/
theorem Tiles.start_head
    {n : Nat}
    {tokens : List Token}
    {s : Text}
    (h : Tiles n tokens s) :
    ∀ t, tokens.head? = some t → t.start = n := by
  intro t ht
  cases h with
  | nil n => cases ht
  | cons hText hRest =>
      cases ht
      rfl

/- Each token of a tiling starts where the last one ended. -/
theorem Tiles.isChain
    {n : Nat}
    {tokens : List Token}
    {s : Text}
    (h : Tiles n tokens s) :
    tokens.IsChain (fun t next => next.start = t.stop) := by
  induction h with
  | nil n => exact List.isChain_nil
  | @cons x tokens rest hText hRest ih =>
      cases tokens with
      | nil => exact List.isChain_singleton x
      | cons y tokens =>
          exact List.isChain_cons_cons.mpr
            ⟨hRest.start_head y rfl, ih⟩

/- The last token of a tiling ends it. -/
theorem Tiles.stop_getLast
    {n : Nat}
    {tokens : List Token}
    {s : Text}
    (h : Tiles n tokens s) :
    (tokens.getLast?.map stop).getD n = n + s.size := by
  induction h with
  | nil n => simp
  | @cons x tokens rest hText hRest ih =>
      have hStop : x.stop + rest.size =
          x.start + (x.text ++ rest).size := by
        rw [Text.size_append, stop]
        omega
      rw [← hStop, ← ih, List.getLast?_cons]
      cases tokens.getLast? <;> rfl

/-
  The tokens of a first part all end before any place in
  the part after it.
-/
theorem Tiles.filter_stop_le_after
    {n : Nat}
    {xs : List Token}
    {s : Text}
    (hxs : Tiles n xs s)
    (ys : List Token)
    (k : Nat) :
    (xs ++ ys).filter (fun u => u.stop ≤ n + s.size + k) =
      xs ++ ys.filter (fun u => u.stop ≤ n + s.size + k) := by
  have hFirst :
      xs.filter (fun u => u.stop ≤ n + s.size + k) = xs := by
    apply List.filter_eq_self.mpr
    intro u hu
    have hLe := (hxs.bounds u hu).2
    simp only [decide_eq_true_eq]
    omega
  rw [List.filter_append, hFirst]

/-
  Of the tokens of two parts, those that end by the end of
  the first part are the tokens of the first part.
-/
theorem Tiles.filter_stop_le
    {n : Nat}
    {xs ys : List Token}
    {s t : Text}
    (hxs : Tiles n xs s)
    (hys : Tiles (n + s.size) ys t) :
    (xs ++ ys).filter (fun u => u.stop ≤ n + s.size) =
      xs := by
  have hSecond :
      ys.filter (fun u => u.stop ≤ n + s.size) = [] := by
    apply List.filter_eq_nil_iff.mpr
    intro u hu
    have hStart := (hys.bounds u hu).1
    have hLt := start_lt_stop (hys.text_ne_nil u hu)
    simp only [decide_eq_true_eq]
    omega
  have hAfter := hxs.filter_stop_le_after ys 0
  rw [Nat.add_zero, hSecond, List.append_nil] at hAfter
  exact hAfter

/- No token of a tiling ends by where it starts. -/
theorem Tiles.filter_stop_le_start
    {n : Nat}
    {tokens : List Token}
    {s : Text}
    (h : Tiles n tokens s) :
    tokens.filter (fun u => u.stop ≤ n) = [] := by
  have hNil := (Tiles.nil n).filter_stop_le h
  rw [List.nil_append, Text.size_nil, Nat.add_zero] at hNil
  exact hNil

/- All tokens of a tiling end by its end. -/
theorem Tiles.filter_stop_le_end
    {n : Nat}
    {tokens : List Token}
    {s : Text}
    (h : Tiles n tokens s) :
    tokens.filter (fun u => u.stop ≤ n + s.size) =
      tokens := by
  have hAll := h.filter_stop_le (Tiles.nil _)
  rwa [List.append_nil] at hAll

------------------------------------------------------------
-- Characters
------------------------------------------------------------

/- A token stands over a byte offset. -/
def Over (n : Nat) (t : Token) : Prop :=
  t.start ≤ n ∧ n < t.stop

/- Each character of a text has a token over it. -/
theorem Tiles.exists_over
    {n : Nat}
    {tokens : List Token}
    {s before after : Text}
    {c : Char}
    (h : Tiles n tokens s)
    (hs : s = before ++ c :: after) :
    ∃ t ∈ tokens, ∃ u v, t.text = u ++ c :: v ∧
      t.start + u.size = n + before.size := by
  induction h generalizing before with
  | nil n => simp at hs
  | @cons t tokens rest hText hRest ih =>
      rcases List.append_eq_append_iff.mp hs with
        ⟨us, hBefore, hAfter⟩ | ⟨us, hIs, hAfter⟩
      · rcases ih hAfter with
          ⟨u, hu, v, w, hSplit, hStart⟩
        refine ⟨u, List.mem_cons_of_mem t hu, v, w, hSplit, ?_⟩
        rw [hStart, hBefore, Text.size_append, stop]
        omega
      · cases us with
        | nil =>
            have hLater : rest = [] ++ c :: after :=
              hAfter.symm
            rcases ih hLater with
              ⟨u, hu, v, w, hSplit, hStart⟩
            refine ⟨u, List.mem_cons_of_mem t hu, v, w,
              hSplit, ?_⟩
            rw [hStart, stop, hIs, List.append_nil]
            rfl
        | cons d us =>
            cases hAfter
            exact ⟨t, List.mem_cons_self .., before, us, hIs,
              rfl⟩

/- So each offset inside of a text has one. -/
theorem Tiles.exists_over_of_lt
    {n : Nat}
    {tokens : List Token}
    {s : Text}
    (h : Tiles n tokens s)
    {i : Nat}
    (hLe : n ≤ i)
    (hLt : i < n + s.size) : ∃ t ∈ tokens, t.Over i := by
  induction h with
  | nil n =>
      rw [Text.size_nil] at hLt
      omega
  | @cons t tokens rest hText hRest ih =>
      by_cases hHere : i < t.stop
      · exact ⟨t, List.mem_cons_self .., hLe, hHere⟩
      · rw [Text.size_append, ← Nat.add_assoc] at hLt
        rcases ih (Nat.le_of_not_lt hHere) hLt with
          ⟨u, hu, hOver⟩
        exact ⟨u, List.mem_cons_of_mem t hu, hOver⟩

/- There is no other token over the same offset. -/
theorem Tiles.over_unique
    {n : Nat}
    {tokens : List Token}
    {s : Text}
    (h : Tiles n tokens s)
    {i : Nat}
    {t u : Token}
    (ht : t ∈ tokens)
    (hu : u ∈ tokens)
    (hOver : t.Over i)
    (hOver' : u.Over i) : t = u := by
  induction h with
  | nil n => cases ht
  | @cons x tokens rest hText hRest ih =>
      have hLater : ∀ y ∈ tokens, x.Over i → ¬ y.Over i := by
        intro y hy hx hOver
        have hStart := (hRest.bounds y hy).1
        have hLt := hx.2
        have hLe := hOver.1
        omega
      rcases List.mem_cons.mp ht with rfl | htLater
      · rcases List.mem_cons.mp hu with rfl | huLater
        · rfl
        · exact absurd hOver' (hLater u huLater hOver)
      · rcases List.mem_cons.mp hu with rfl | huLater
        · exact absurd hOver (hLater t htLater hOver')
        · exact ih htLater huLater

end Token

end Highlighter

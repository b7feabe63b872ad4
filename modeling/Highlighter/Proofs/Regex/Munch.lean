import Highlighter.Proofs.Regex.Spelling
import Highlighter.Proofs.Text.HexDigits
import Mathlib.Computability.Language

/-
  Expressions that munch: their first path is the longest.
  A search prefers the first branch of a choice and the most
  rounds of a loop. This need not be the longest match, but
  it is if the parts of the expression keep apart.

  Key definitions include:
    * `Text.charOf` and `Text.runOf`
    * `Regex.Longest`
    * `Regex.Munches`
    * `Regex.Apart`
    * `Regex.Covers`

  Main statements:
    * `Regex.Munches.cat` and `Regex.Munches.alt`
    * `Regex.Munches.exists_longest`
-/

namespace Highlighter

namespace Text

------------------------------------------------------------
-- Languages
------------------------------------------------------------

/- One of some characters. -/
def charOf (chars : String) : Language Char :=
  {s | ∃ c ∈ chars.toList, s = [c]}

/- Any number of some characters. -/
def runOf (chars : String) : Language Char :=
  {s | ∀ c ∈ s, c ∈ chars.toList}

/- At least one of some characters. -/
def someOf (chars : String) : Language Char :=
  charOf chars * runOf chars

/- One of some words. -/
def wordOf (words : List String) : Language Char :=
  {s | s ∈ words.map String.toList}

theorem nil_mem_runOf (chars : String) :
    [] ∈ runOf chars := by
  intro c hc
  cases hc

/- Have two texts no character in common? -/
def disjoint (a b : String) : Bool :=
  a.toList.all fun c => !b.toList.contains c

theorem notMem_of_disjoint
    {a b : String}
    (h : disjoint a b = true)
    {c : Char}
    (hc : c ∈ a.toList) : c ∉ b.toList := by
  have hNot := List.all_eq_true.mp h c hc
  simpa using hNot

end Text

/- A set that has ASCII characters only has no others. -/
theorem CharSet.mem_asciiChars
    {chars : CharSet}
    (hAscii : chars.isAscii = true)
    {c : Char}
    (hc : chars.contains c = true) : c ∈ Text.asciiChars := by
  induction chars with
  | range low high =>
      rw [contains, Bool.and_eq_true, decide_eq_true_eq,
        decide_eq_true_eq] at hc
      rw [isAscii, decide_eq_true_eq] at hAscii
      exact Text.mem_asciiChars_of_le hc.2 hAscii
  | digit => cases hAscii
  | blank => cases hAscii
  | word => cases hAscii
  | union a b iha ihb =>
      rw [isAscii, Bool.and_eq_true] at hAscii
      rw [contains, Bool.or_eq_true] at hc
      rcases hc with hc | hc
      · exact iha hAscii.1 hc
      · exact ihb hAscii.2 hc
  | inter a b iha ihb =>
      rw [isAscii, Bool.or_eq_true] at hAscii
      rw [contains, Bool.and_eq_true] at hc
      rcases hAscii with hAscii | hAscii
      · exact iha hAscii hc.1
      · exact ihb hAscii hc.2
  | compl a ih => cases hAscii

namespace Regex

open Text

/- A text is the longest word that another one begins with. -/
structure Longest (L : Language Char) (t s : Text) : Prop where
  mem : s ∈ L
  begins : s <+: t
  length_le : ∀ u ∈ L, u <+: t → u.length ≤ s.length

------------------------------------------------------------
-- Munching
------------------------------------------------------------

/-
  The paths of an expression are over words of a language.
  If the text ahead begins with one, there is a first path,
  and it goes at least as far.
-/
structure Munches (a : Regex) (L : Language Char) : Prop where
  sound : ∀ p, ∀ q ∈ a.paths p,
    ∃ s ∈ L, s <+: p.rest ∧ q = p.beyond s
  first : ∀ p, ∀ s ∈ L, s <+: p.rest →
    ∃ q, (a.paths p).head? = some q ∧
      p.pos + s.length ≤ q.pos

/- The first path is over the longest word. -/
theorem Munches.exists_longest
    {a : Regex}
    {L : Language Char}
    (h : Munches a L)
    {p : Place}
    {u : Text}
    (hu : u ∈ L)
    (hBegins : u <+: p.rest) :
    ∃ s, Longest L p.rest s ∧
      (a.paths p).head? = some (p.beyond s) := by
  rcases h.first p u hu hBegins with ⟨q, hHead, -⟩
  rcases h.sound p q (List.mem_of_mem_head? hHead) with
    ⟨s, hs, hPrefix, rfl⟩
  refine ⟨s, ⟨hs, hPrefix, fun m hm hmPrefix => ?_⟩, hHead⟩
  rcases h.first p m hm hmPrefix with ⟨r, hHead', hLe⟩
  rw [hHead] at hHead'
  cases hHead'
  rw [Place.pos_beyond] at hLe
  omega

/- Only the paths of the expression matter. -/
theorem Munches.of_paths
    {a b : Regex}
    {L : Language Char}
    (h : Munches a L)
    (hPaths : b.paths = a.paths) : Munches b L := by
  constructor
  · rw [hPaths]
    exact h.sound
  · rw [hPaths]
    exact h.first

/- A group without a number changes nothing. -/
theorem Munches.group
    {a : Regex}
    {L : Language Char}
    (h : Munches a L) : Munches (Regex.group none a) L := by
  apply h.of_paths
  funext p
  exact List.map_id' _

/- To read nothing leads to the place itself. -/
theorem Munches.empty : Munches Regex.empty 1 := by
  constructor
  · intro p q hq
    cases List.mem_singleton.mp hq
    exact ⟨[], Language.nil_mem_one, List.nil_prefix,
      (Place.beyond_nil p).symm⟩
  · intro p s hs _
    rw [(Language.mem_one s).mp hs]
    exact ⟨p, rfl, Nat.le_refl _⟩

/- What follows a word that the text ahead begins with. -/
theorem rest_beyond_append
    {p : Place}
    {s m : Text}
    (h : s ++ m <+: p.rest) : m <+: (p.beyond s).rest := by
  rcases h with ⟨u, hu⟩
  rw [List.append_assoc] at hu
  exact ⟨u, (Place.rest_beyond hu.symm).symm⟩

theorem append_of_rest_beyond
    {p : Place}
    {s m : Text}
    (hs : s <+: p.rest)
    (hm : m <+: (p.beyond s).rest) : s ++ m <+: p.rest := by
  rcases hs with ⟨u, hu⟩
  rw [Place.rest_beyond hu.symm] at hm
  rw [← hu]
  exact (List.prefix_append_right_inj s).mpr hm

------------------------------------------------------------
-- Sequences
------------------------------------------------------------

/-
  Two languages are apart if nothing of the second one
  follows a word of the first one where a longer word of the
  first one goes on.
-/
def Apart (L M : Language Char) : Prop :=
  ∀ s ∈ L, ∀ s' ∈ L, ∀ m ∈ M, ∀ t : Text,
    s' <+: t → s ++ m <+: t → s.length < s'.length → m = []

/- One expression after another munches if they are apart. -/
theorem Munches.cat
    {a b : Regex}
    {L M : Language Char}
    (ha : Munches a L)
    (hb : Munches b M)
    (hApart : Apart L M) :
    Munches (Regex.cat a b) (L * M) := by
  constructor
  · intro p r hr
    rcases List.mem_flatMap.mp hr with ⟨q, hq, hThen⟩
    rcases ha.sound p q hq with ⟨s, hs, hBegins, rfl⟩
    rcases hb.sound _ r hThen with ⟨m, hm, hNext, rfl⟩
    exact ⟨s ++ m, Language.append_mem_mul hs hm,
      append_of_rest_beyond hBegins hNext,
      Place.beyond_append p s m⟩
  · intro p w hw hBegins
    rcases Language.mem_mul.mp hw with ⟨s, hs, m, hm, rfl⟩
    have hFirst : s <+: p.rest :=
      (List.prefix_append s m).trans hBegins
    rcases ha.exists_longest hs hFirst with
      ⟨s', hLongest, hHead⟩
    have hLe := hLongest.length_le s hs hFirst
    -- what follows the longest word goes as far as `m` does
    have hNext : ∃ m' ∈ M, m' <+: (p.beyond s').rest ∧
        s.length + m.length ≤ s'.length + m'.length := by
      rcases Nat.lt_or_eq_of_le hLe with hLt | hEq
      · have hNil := hApart s hs s' hLongest.mem m hm p.rest
          hLongest.begins hBegins hLt
        refine ⟨m, hm, ?_, ?_⟩
        · rw [hNil]
          exact List.nil_prefix
        · rw [hNil]
          exact hLe
      · have hSame : s = s' :=
          (List.prefix_of_prefix_length_le hFirst
            hLongest.begins hLe).eq_of_length hEq
        refine ⟨m, hm, ?_, ?_⟩
        · rw [← hSame]
          exact rest_beyond_append hBegins
        · rw [hSame]
    rcases hNext with ⟨m', hm', hFollows, hFar⟩
    rcases hb.first _ m' hm' hFollows with ⟨r, hr, hPos⟩
    rcases List.head?_eq_some_iff.mp hHead with
      ⟨others, hPaths⟩
    refine ⟨r, ?_, ?_⟩
    · rw [paths, hPaths, List.flatMap_cons, List.head?_append,
        hr]
      rfl
    · rw [Place.pos_beyond] at hPos
      rw [List.length_append]
      omega

/- Words of one character are apart from everything. -/
theorem apart_charOf (chars : String) (M : Language Char) :
    Apart (charOf chars) M := by
  rintro s ⟨c, -, rfl⟩ s' ⟨c', -, rfl⟩ m - t - - hLt
  exact absurd hLt (Nat.lt_irrefl 1)

/- The words of a language are of some characters. -/
def Within (L : Language Char) (chars : String) : Prop :=
  ∀ s ∈ L, ∀ c ∈ s, c ∈ chars.toList

/- They begin with some characters or are empty. -/
def Opens (L : Language Char) (chars : String) : Prop :=
  ∀ c s, c :: s ∈ L → c ∈ chars.toList

/- They begin with some characters and are not empty. -/
structure Begins (L : Language Char) (chars : String) :
    Prop where
  nil_notMem : [] ∉ L
  opens : Opens L chars

section

variable {L M : Language Char}
variable {chars more : String}

theorem within_charOf (h : chars.toList ⊆ more.toList) :
    Within (charOf chars) more := by
  rintro s ⟨c, hc, rfl⟩ d hd
  rw [List.mem_singleton.mp hd]
  exact h hc

theorem within_runOf (h : chars.toList ⊆ more.toList) :
    Within (runOf chars) more :=
  fun _ hs c hc => h (hs c hc)

theorem within_one (chars : String) : Within 1 chars := by
  intro s hs c hc
  rw [(Language.mem_one s).mp hs] at hc
  cases hc

theorem within_wordOf
    {words : List String}
    (h : ∀ w ∈ words, w.toList ⊆ more.toList) :
    Within (wordOf words) more := by
  intro s hs c hc
  rcases List.mem_map.mp hs with ⟨w, hw, rfl⟩
  exact h w hw hc

theorem Within.mul
    (hL : Within L chars)
    (hM : Within M chars) : Within (L * M) chars := by
  intro s hs c hc
  rcases Language.mem_mul.mp hs with ⟨a, ha, b, hb, rfl⟩
  rcases List.mem_append.mp hc with hc | hc
  · exact hL a ha c hc
  · exact hM b hb c hc

theorem Within.add
    (hL : Within L chars)
    (hM : Within M chars) : Within (L + M) chars := by
  intro s hs
  rcases hs with hs | hs
  · exact hL s hs
  · exact hM s hs

theorem within_someOf (h : chars.toList ⊆ more.toList) :
    Within (someOf chars) more :=
  (within_charOf h).mul (within_runOf h)

theorem opens_runOf (h : chars.toList ⊆ more.toList) :
    Opens (runOf chars) more :=
  fun c _ hs => h (hs c (List.mem_cons_self ..))

theorem opens_one (chars : String) : Opens 1 chars := by
  intro c _ hs
  cases (Language.mem_one _).mp hs

theorem opens_wordOf
    {words : List String}
    (h : ∀ w ∈ words, w.toList.take 1 ⊆ more.toList) :
    Opens (wordOf words) more := by
  intro c s hs
  rcases List.mem_map.mp hs with ⟨w, hw, hEq⟩
  apply h w hw
  rw [hEq]
  exact List.mem_singleton_self c

theorem Opens.add
    (hL : Opens L chars)
    (hM : Opens M chars) : Opens (L + M) chars := by
  intro c s hs
  rcases hs with hs | hs
  · exact hL c s hs
  · exact hM c s hs

theorem begins_charOf (h : chars.toList ⊆ more.toList) :
    Begins (charOf chars) more := by
  constructor
  · rintro ⟨c, -, hEq⟩
    cases hEq
  · rintro c s ⟨d, hd, hEq⟩
    cases hEq
    exact h hd

theorem Begins.mono
    (hL : Begins L chars)
    (h : chars.toList ⊆ more.toList) : Begins L more :=
  ⟨hL.nil_notMem, fun c s hs => h (hL.opens c s hs)⟩

theorem Begins.add
    (hL : Begins L chars)
    (hM : Begins M chars) : Begins (L + M) chars := by
  constructor
  · rintro (hNil | hNil)
    · exact hL.nil_notMem hNil
    · exact hM.nil_notMem hNil
  · exact hL.opens.add hM.opens

/- What begins with a character goes on with anything. -/
theorem Begins.mul
    (hL : Begins L chars)
    (M : Language Char) : Begins (L * M) chars := by
  constructor
  · intro hNil
    rcases Language.mem_mul.mp hNil with ⟨a, ha, b, -, hEq⟩
    rw [(List.append_eq_nil_iff.mp hEq).1] at ha
    exact hL.nil_notMem ha
  · intro c s hs
    rcases Language.mem_mul.mp hs with ⟨a, ha, b, -, hEq⟩
    cases a with
    | nil => exact absurd ha hL.nil_notMem
    | cons d a =>
        cases hEq
        exact hL.opens c a ha

/- It may also come after words that can be empty. -/
theorem Begins.after
    (hM : Begins M chars)
    (hL : Opens L chars) : Begins (L * M) chars := by
  constructor
  · intro hNil
    rcases Language.mem_mul.mp hNil with ⟨a, -, b, hb, hEq⟩
    rw [(List.append_eq_nil_iff.mp hEq).2] at hb
    exact hM.nil_notMem hb
  · intro c s hs
    rcases Language.mem_mul.mp hs with ⟨a, ha, b, hb, hEq⟩
    cases a with
    | nil =>
        apply hM.opens c s
        rw [← hEq]
        exact hb
    | cons d a =>
        cases hEq
        exact hL c a ha

end

/-
  A language is apart from one whose words begin with other
  characters than its own words have.
-/
theorem apart_of_within
    {L M : Language Char}
    {chars first : String}
    (hL : Within L chars)
    (hM : Opens M first)
    (hDisjoint : disjoint first chars = true) :
    Apart L M := by
  intro s hs s' hs' m hm t hBegins hBegins' hLt
  cases m with
  | nil => rfl
  | cons c m =>
      exfalso
      apply notMem_of_disjoint hDisjoint (hM c m hm)
      apply hL s' hs'
      -- the longer word goes on with the character
      have hStep : s ++ [c] <+: t := by
        apply List.IsPrefix.trans _ hBegins'
        exact ⟨m, by simp⟩
      have hInner : s ++ [c] <+: s' :=
        List.prefix_of_prefix_length_le hStep hBegins (by
          rw [List.length_append, List.length_singleton]
          omega)
      exact hInner.subset (by simp)

------------------------------------------------------------
-- Choices
------------------------------------------------------------

/-
  A language covers another one if, where a text begins with
  words of both, one of its own goes as far.
-/
def Covers (L M : Language Char) : Prop :=
  ∀ s ∈ L, ∀ m ∈ M, ∀ t : Text, s <+: t → m <+: t →
    ∃ s' ∈ L, s' <+: t ∧ m.length ≤ s'.length

/- A choice munches if the first branch covers the second. -/
theorem Munches.alt
    {a b : Regex}
    {L M : Language Char}
    (ha : Munches a L)
    (hb : Munches b M)
    (hCovers : Covers L M) :
    Munches (Regex.alt a b) (L + M) := by
  constructor
  · intro p q hq
    rcases List.mem_append.mp hq with hq | hq
    · rcases ha.sound p q hq with ⟨s, hs, hRest⟩
      exact ⟨s, Or.inl hs, hRest⟩
    · rcases hb.sound p q hq with ⟨s, hs, hRest⟩
      exact ⟨s, Or.inr hs, hRest⟩
  · intro p w hw hBegins
    have hOfFirst : ∀ s ∈ L, s <+: p.rest →
        w.length ≤ s.length →
        ∃ q, ((Regex.alt a b).paths p).head? = some q ∧
          p.pos + w.length ≤ q.pos := by
      intro s hs hFirst hLe
      rcases ha.first p s hs hFirst with ⟨q, hHead, hPos⟩
      refine ⟨q, ?_, by omega⟩
      rw [paths, List.head?_append, hHead]
      rfl
    rcases hw with hw | hw
    · exact hOfFirst w hw hBegins (Nat.le_refl _)
    · cases hPaths : a.paths p with
      | nil =>
          rcases hb.first p w hw hBegins with
            ⟨q, hHead, hPos⟩
          refine ⟨q, ?_, hPos⟩
          rw [paths, hPaths, List.nil_append, hHead]
      | cons q others =>
          have hMem : q ∈ a.paths p := by
            rw [hPaths]
            exact List.mem_cons_self ..
          rcases ha.sound p q hMem with ⟨s, hs, hFirst, -⟩
          rcases hCovers s hs w hw p.rest hFirst hBegins with
            ⟨s', hs', hFirst', hLe⟩
          exact hOfFirst s' hs' hFirst' hLe

/- Texts that begin the same text begin alike. -/
theorem head_unique
    {c d : Char}
    {s u t : Text}
    (hs : c :: s <+: t)
    (hu : d :: u <+: t) : c = d := by
  rcases hs with ⟨v, rfl⟩
  rcases hu with ⟨w, hw⟩
  exact (List.cons.inj hw).1.symm

/-
  So languages whose words begin with different characters
  cover one another.
-/
theorem covers_of_begins
    {L M : Language Char}
    {first second : String}
    (hL : Begins L first)
    (hM : Opens M second)
    (hDisjoint : disjoint first second = true) :
    Covers L M := by
  intro s hs m hm t hFirst hSecond
  cases m with
  | nil => exact ⟨s, hs, hFirst, Nat.zero_le _⟩
  | cons d m =>
      exfalso
      cases s with
      | nil => exact hL.nil_notMem hs
      | cons c s =>
          have hSame := head_unique hFirst hSecond
          apply notMem_of_disjoint hDisjoint (hL.opens c s hs)
          rw [hSame]
          exact hM d m hm

/- A choice is covered if its branches are. -/
theorem Covers.add
    {L M N : Language Char}
    (hM : Covers L M)
    (hN : Covers L N) : Covers L (M + N) := by
  intro s hs m hm t hFirst hSecond
  rcases hm with hm | hm
  · exact hM s hs m hm t hFirst hSecond
  · exact hN s hs m hm t hFirst hSecond

/- What words go on with after one character matters. -/
theorem Covers.charOf_mul
    {L M : Language Char}
    (h : Covers L M)
    (first second : String) :
    Covers (charOf first * L) (charOf second * M) := by
  intro s hs m hm t hFirst hSecond
  rcases Language.mem_mul.mp hs with
    ⟨_, ⟨c, hc, rfl⟩, x, hx, rfl⟩
  rcases Language.mem_mul.mp hm with
    ⟨_, ⟨d, -, rfl⟩, y, hy, rfl⟩
  rw [List.singleton_append] at hFirst hSecond
  cases head_unique hFirst hSecond
  rcases hFirst with ⟨u, rfl⟩
  rw [List.cons_append, List.cons_prefix_cons] at hSecond
  rcases h x hx y hy (x ++ u) (List.prefix_append x u)
    hSecond.2 with ⟨z, hz, hBegins, hLe⟩
  refine ⟨[c] ++ z,
    Language.append_mem_mul ⟨c, hc, rfl⟩ hz, ?_, ?_⟩
  · exact List.cons_prefix_cons.mpr ⟨rfl, hBegins⟩
  · simpa using hLe

/-
  A product covers a language that has none of the
  characters that its second part begins with.
-/
theorem covers_of_within
    {L N M : Language Char}
    {first chars : String}
    (hN : Begins N first)
    (hM : Within M chars)
    (hDisjoint : disjoint first chars = true) :
    Covers (L * N) M := by
  intro s hs m hm t hFirst hSecond
  refine ⟨s, hs, hFirst, ?_⟩
  rcases Language.mem_mul.mp hs with ⟨x, -, y, hy, rfl⟩
  cases y with
  | nil => exact absurd hy hN.nil_notMem
  | cons c y =>
      by_contra hLong
      rw [Nat.not_le, List.length_append,
        List.length_cons] at hLong
      -- the word would go on past that character
      have hInner : x ++ [c] <+: m := by
        apply List.prefix_of_prefix_length_le _ hSecond
        · rw [List.length_append, List.length_singleton]
          omega
        · apply List.IsPrefix.trans _ hFirst
          exact ⟨y, by simp⟩
      exact notMem_of_disjoint hDisjoint (hN.opens c y hy)
        (hM m hm c (hInner.subset (by simp)))

------------------------------------------------------------
-- Sets and loops
------------------------------------------------------------

/- A set has just the characters of a text. -/
def Spells (chars : CharSet) (text : String) : Prop :=
  ∀ c, chars.contains c = true ↔ c ∈ text.toList

section

variable {chars : CharSet}
variable {text : String}

/- For ASCII characters this can be tried out. -/
theorem spells_of_ascii
    (hAscii : chars.isAscii = true)
    (hText : text.toList ⊆ asciiChars)
    (hAll :
      asciiChars.all (fun c =>
        chars.contains c == text.toList.contains c) = true) :
    Spells chars text := by
  intro c
  have hSame : c ∈ asciiChars →
      (chars.contains c = true ↔ c ∈ text.toList) := by
    intro hc
    have hEq := List.all_eq_true.mp hAll c hc
    rw [beq_iff_eq.mp hEq, List.contains_iff_mem]
  constructor
  · intro hc
    exact (hSame (CharSet.mem_asciiChars hAscii hc)).mp hc
  · intro hc
    exact (hSame (hText hc)).mpr hc

theorem spells_single
    {c : Char}
    (h : text.toList = [c]) :
    Spells (CharSet.single c) text := by
  intro d
  rw [CharSet.contains_single, h, List.mem_singleton,
    beq_iff_eq, eq_comm]

theorem Munches.set (h : Spells chars text) :
    Munches (Regex.set chars) (charOf text) := by
  constructor
  · intro p q hq
    rw [paths_set] at hq
    split at hq
    · rename_i hSees
      rcases Place.exists_cons_of_sees hSees with
        ⟨c, rest, hRest, hc⟩
      cases List.mem_singleton.mp hq
      refine ⟨[c], ⟨c, (h c).mp hc, rfl⟩, ?_,
        Place.next_cons hRest⟩
      rw [hRest]
      exact ⟨rest, rfl⟩
    · cases hq
  · rintro p s ⟨c, hc, rfl⟩ ⟨rest, hRest⟩
    have hSees : p.sees chars = true := by
      rw [Place.sees_cons hRest.symm]
      exact (h c).mpr hc
    refine ⟨p.next, ?_, ?_⟩
    · rw [paths_set, if_pos hSees]
      rfl
    · rw [Place.next_cons hRest.symm, Place.pos_beyond]

/- A loop over a set leads past some of its characters. -/
theorem exists_of_mem_star
    {p q : Place}
    (h : q ∈ star (Regex.set chars).paths true p) :
    ∃ s, (∀ c ∈ s, chars.contains c = true) ∧
      s <+: p.rest ∧ q = p.beyond s := by
  have hHere : p = p.beyond [] := (Place.beyond_nil p).symm
  generalize hRest : p.rest = rest at *
  induction rest generalizing p with
  | nil =>
      have hNot : p.sees chars = false := by
        simp [Place.sees, hRest]
      rw [star_set_of_not_sees hNot] at h
      rw [List.mem_singleton.mp h]
      exact ⟨[], by simp, List.nil_prefix, hHere⟩
  | cons c rest ih =>
      cases hSees : p.sees chars with
      | false =>
          rw [star_set_of_not_sees hSees] at h
          rw [List.mem_singleton.mp h]
          exact ⟨[], by simp, List.nil_prefix, hHere⟩
      | true =>
          rw [star_set_of_sees hSees] at h
          rcases List.mem_append.mp h with hNext | hStay
          · rcases ih hNext (Place.beyond_nil _).symm
              (Place.rest_next hRest) with
              ⟨s, hs, hBegins, rfl⟩
            rw [Place.sees_cons hRest] at hSees
            refine ⟨c :: s, ?_, ?_, ?_⟩
            · rw [List.forall_mem_cons]
              exact ⟨hSees, hs⟩
            · exact List.cons_prefix_cons.mpr ⟨rfl, hBegins⟩
            · rw [Place.next_cons hRest, Place.beyond_append]
              rfl
          · rw [List.mem_singleton.mp hStay]
            exact ⟨[], by simp, List.nil_prefix, hHere⟩

theorem Munches.many (h : Spells chars text) :
    Munches (Regex.many (Regex.set chars)) (runOf text) := by
  have hPaths : (Regex.many (Regex.set chars)).paths =
      star (Regex.set chars).paths true := by
    funext p
    exact List.flatMap_singleton ..
  constructor
  · intro p q hq
    rw [hPaths] at hq
    rcases exists_of_mem_star hq with ⟨s, hs, hRest⟩
    exact ⟨s, fun c hc => (h c).mp (hs c hc), hRest⟩
  · intro p s hs hBegins
    refine ⟨p.past chars, ?_, ?_⟩
    · rw [hPaths, head?_star]
    · rcases hBegins with ⟨u, hu⟩
      have hAll : ∀ c ∈ s, chars.contains c = true :=
        fun c hc => (h c).mpr (hs c hc)
      rw [Place.past, Place.pos_beyond, ← hu,
        List.takeWhile_append_of_pos hAll, List.length_append]
      omega

end

------------------------------------------------------------
-- Words
------------------------------------------------------------

theorem Munches.literal (word : String) :
    Munches (concat (word.toList.map char)) (wordOf [word]) := by
  constructor
  · intro p q hq
    rw [paths_literal] at hq
    split at hq
    · rename_i hPrefix
      cases List.mem_singleton.mp hq
      exact ⟨_, List.mem_singleton_self _,
        List.isPrefixOf_iff_prefix.mp hPrefix, rfl⟩
    · cases hq
  · intro p s hs hBegins
    cases List.mem_singleton.mp hs
    refine ⟨p.beyond word.toList, ?_, Nat.le_refl _⟩
    rw [paths_literal,
      if_pos (List.isPrefixOf_iff_prefix.mpr hBegins)]
    rfl

/-
  A choice between words munches if no earlier word begins a
  later one.
-/
theorem Munches.words
    {words : List String}
    (hNe : words ≠ [])
    (hOrder : words.Pairwise fun v w =>
      ¬ v.toList <+: w.toList) :
    Munches
      (choice (words.map fun w => concat (w.toList.map char)))
      (wordOf words) := by
  induction words with
  | nil => exact absurd rfl hNe
  | cons v words ih =>
      rw [List.pairwise_cons] at hOrder
      cases words with
      | nil => exact Munches.literal v
      | cons w words =>
          have hSum : wordOf (v :: w :: words) =
              wordOf [v] + wordOf (w :: words) := by
            ext s
            exact List.mem_append (s := [v.toList])
          rw [hSum]
          apply (Munches.literal v).alt
            (ih (List.cons_ne_nil _ _) hOrder.2)
          intro s hs m hm t hFirst hLater
          cases List.mem_singleton.mp hs
          rcases List.mem_map.mp hm with ⟨x, hx, rfl⟩
          refine ⟨v.toList, hs, hFirst, ?_⟩
          rcases Nat.le_total x.toList.length
              v.toList.length with hLe | hLe
          · exact hLe
          · exact absurd
              (List.prefix_of_prefix_length_le hFirst hLater hLe)
              (hOrder.1 x hx)

end Regex

end Highlighter

import Highlighter.Proofs.Assoc
import Highlighter.Registry
import Mathlib.Data.List.Induction

/-
  What a registry answers follows from the calls that made
  it: a name stands for the mode that was last defined under
  it, and a content type for the name it was last given. Of
  the order of the calls nothing else counts. A key that is
  both a name and a content type is taken for the latter.

  Key definitions include:
    * `Registry.Call`
    * `Registry.run`
    * `Registry.MadeBy`
    * `Registry.lastMode?`
    * `Registry.lastName?`
    * `Registry.SameCalls`

  Main statements:
    * `Registry.MadeBy.get_eq`
    * `Registry.MadeBy.mem_names_iff`
    * `Registry.MadeBy.mem_typesFor_iff`
    * `Registry.names_resolve`
    * `Registry.order_of_calls`
-/

namespace Highlighter

namespace Registry

------------------------------------------------------------
-- Calls
------------------------------------------------------------

/- What changes a registry. -/
inductive Call
  | define (mode : Mode)
  | defineType (type name : String)

/- A registry after a call. -/
def call (r : Registry) : Call → Registry
  | Call.define mode => r.define mode
  | Call.defineType type name => r.defineType type name

/- A registry after some calls. -/
def run (r : Registry) (calls : List Call) : Registry :=
  calls.foldl call r

/- A registry came to be by some calls, in their order. -/
def MadeBy (r : Registry) (calls : List Call) : Prop :=
  r = empty.run calls

/- The calls for the built-in mode. -/
def builtInCalls : List Call :=
  Call.define Qhantoom.mode ::
    Qhantoom.contentTypes.map fun type =>
      Call.defineType type Qhantoom.name

theorem madeBy_empty : empty.MadeBy [] := rfl

theorem madeBy_builtIn : builtIn.MadeBy builtInCalls := rfl

theorem MadeBy.run
    {r : Registry}
    {before : List Call}
    (h : r.MadeBy before)
    (calls : List Call) :
    (r.run calls).MadeBy (before ++ calls) := by
  rw [h, MadeBy, Registry.run, Registry.run, Registry.run,
    List.foldl_append]

------------------------------------------------------------
-- The last call for a key
------------------------------------------------------------

namespace Call

/- The mode that a call defines under a name. -/
def modeFor? (name : String) : Call → Option Mode
  | define mode => if mode.name = name then some mode else none
  | defineType _ _ => none

/- The name that a call gives to a content type. -/
def nameFor? (type : String) : Call → Option String
  | define _ => none
  | defineType other name =>
      if other = type then some name else none

end Call

/- What the last call says that says anything. -/
def last? {α : Type} (f : Call → Option α)
    (calls : List Call) : Option α :=
  calls.reverse.findSome? f

/- The mode that was last defined under a name. -/
def lastMode? (calls : List Call) (name : String) :
    Option Mode :=
  last? (Call.modeFor? name) calls

/- The name that a content type was last given. -/
def lastName? (calls : List Call) (type : String) :
    Option String :=
  last? (Call.nameFor? type) calls

section

variable
  {α : Type}
  {f : Call → Option α}

/- One more call counts before all others. -/
theorem last?_append
    (calls : List Call)
    (c : Call) :
    last? f (calls ++ [c]) = (f c).or (last? f calls) := by
  rw [last?, List.reverse_append, List.reverse_singleton,
    List.findSome?_append, List.findSome?_singleton, last?]

/- Calls that say nothing do not count. -/
theorem last?_filter
    {p : Call → Bool}
    (hNone : ∀ c, p c = false → f c = none)
    (calls : List Call) :
    last? f (calls.filter p) = last? f calls := by
  induction calls using List.reverseRecOn with
  | nil => rfl
  | append_singleton calls c ih =>
      rw [List.filter_append, last?_append, List.filter_singleton]
      cases hp : p c with
      | true => exact (last?_append _ c).trans (by rw [ih])
      | false =>
          rw [hNone c hp, Option.none_or]
          simpa using ih

end

/- A mode is found under its own name only. -/
theorem name_of_lastMode?
    {calls : List Call}
    {name : String}
    {mode : Mode}
    (h : lastMode? calls name = some mode) :
    mode.name = name := by
  rcases List.exists_of_findSome?_eq_some h with
    ⟨c, -, hMode⟩
  cases c with
  | define m =>
      rw [Call.modeFor?, Option.ite_none_right_eq_some] at hMode
      cases hMode.2
      exact hMode.1
  | defineType type other => cases hMode

/- A content type that was given a name has a last one. -/
theorem exists_lastName?
    {calls : List Call}
    {type name : String}
    (h : Call.defineType type name ∈ calls) :
    ∃ last, lastName? calls type = some last := by
  rw [← Option.isSome_iff_exists, lastName?, last?,
    List.findSome?_isSome_iff]
  refine ⟨_, List.mem_reverse.mpr h, ?_⟩
  rw [Call.nameFor?, if_pos rfl]
  rfl

------------------------------------------------------------
-- What a registry holds
------------------------------------------------------------

/- A call changes the modes as it says. -/
theorem modes_call
    (r : Registry)
    (c : Call)
    (name : String) :
    Assoc.get? name (r.call c).modes =
      (c.modeFor? name).or (Assoc.get? name r.modes) := by
  cases c with
  | define mode =>
      rw [call, define, Assoc.get?_put, Call.modeFor?]
      split <;> rfl
  | defineType type other => rfl

/- And so it changes the content types. -/
theorem types_call
    (r : Registry)
    (c : Call)
    (type : String) :
    Assoc.get? type (r.call c).types =
      (c.nameFor? type).or (Assoc.get? type r.types) := by
  cases c with
  | define mode => rfl
  | defineType other name =>
      rw [call, defineType, Assoc.get?_put, Call.nameFor?]
      split <;> rfl

/- No name and no content type is kept twice. -/
structure Distinct (r : Registry) : Prop where
  modes : (Assoc.keys r.modes).Nodup
  types : (Assoc.keys r.types).Nodup

theorem distinct_empty : empty.Distinct :=
  ⟨List.nodup_nil, List.nodup_nil⟩

theorem Distinct.call
    {r : Registry}
    (h : r.Distinct)
    (c : Call) : (r.call c).Distinct := by
  cases c with
  | define mode =>
      exact ⟨Assoc.nodup_keys_put h.modes mode, h.types⟩
  | defineType type name =>
      exact ⟨h.modes, Assoc.nodup_keys_put h.types name⟩

namespace MadeBy

variable
  {r : Registry}
  {calls : List Call}

/- What holds at first and after each call holds at last. -/
theorem induct
    {P : Registry → List Call → Prop}
    (hEmpty : P empty [])
    (hCall : ∀ r calls c, r.MadeBy calls → P r calls →
      P (r.call c) (calls ++ [c]))
    (h : r.MadeBy calls) : P r calls := by
  induction calls using List.reverseRecOn generalizing r with
  | nil =>
      cases h
      exact hEmpty
  | append_singleton calls c ih =>
      have hBefore : (empty.run calls).MadeBy calls := rfl
      have hRun : r = (empty.run calls).call c := by
        rw [h, Registry.run, List.foldl_append]
        rfl
      rw [hRun]
      exact hCall _ calls c hBefore (ih hBefore)

theorem distinct (h : r.MadeBy calls) : r.Distinct :=
  h.induct (P := fun r _ => r.Distinct) distinct_empty
    fun _ _ c _ hDistinct => hDistinct.call c

/- The modes are those last defined. -/
theorem modes_eq
    (h : r.MadeBy calls)
    (name : String) :
    Assoc.get? name r.modes = lastMode? calls name :=
  h.induct
    (P := fun r calls =>
      Assoc.get? name r.modes = lastMode? calls name)
    rfl
    fun r calls c _ hModes => by
      rw [modes_call, hModes, lastMode?, lastMode?,
        last?_append]

/- The content types have the names last given. -/
theorem types_eq
    (h : r.MadeBy calls)
    (type : String) :
    Assoc.get? type r.types = lastName? calls type :=
  h.induct
    (P := fun r calls =>
      Assoc.get? type r.types = lastName? calls type)
    rfl
    fun r calls c _ hTypes => by
      rw [types_call, hTypes, lastName?, lastName?,
        last?_append]

------------------------------------------------------------
-- What it answers
------------------------------------------------------------

/-
  A key is taken for a content type if it was given a name,
  and else for a name.
-/
theorem get_eq
    (h : r.MadeBy calls)
    (key : String) :
    r.get key =
      match lastMode? calls
          ((lastName? calls key).getD key) with
      | some mode => Except.ok mode
      | none => Except.error ⟨key⟩ := by
  have hMode :
      Assoc.get? (r.resolve key) r.modes =
        lastMode? calls ((lastName? calls key).getD key) := by
    rw [resolve, h.modes_eq, h.types_eq]
  rw [← hMode]
  rfl

/- The names listed are those with a mode. -/
theorem mem_names_iff
    (h : r.MadeBy calls)
    {name : String} :
    name ∈ r.names ↔
      ∃ mode, lastMode? calls name = some mode := by
  rw [names, mem_sortNames, ← Assoc.isSome_get?_iff,
    h.modes_eq, Option.isSome_iff_exists]

/- The content types of a name are those last given it. -/
theorem mem_typesFor_iff
    (h : r.MadeBy calls)
    {type name : String} :
    type ∈ r.typesFor name ↔
      lastName? calls type = some name := by
  rw [typesFor, mem_sortNames, ← h.types_eq,
    Assoc.get?_eq_some_iff h.distinct.types]
  simp

/-
  Registries made by calls with the same last ones for each
  key cannot be told apart.
-/
theorem answers_eq
    (h : r.MadeBy calls)
    {r' : Registry}
    {calls' : List Call}
    (h' : r'.MadeBy calls')
    (hModes : ∀ name,
      lastMode? calls name = lastMode? calls' name)
    (hTypes : ∀ type,
      lastName? calls type = lastName? calls' type) :
    (∀ key, r.get key = r'.get key) ∧
    (∀ name, r.typesFor name = r'.typesFor name) ∧
    r.names = r'.names := by
  refine ⟨?_, ?_, ?_⟩
  · intro key
    rw [h.get_eq, h'.get_eq, hModes, hTypes]
  · intro name
    apply sortNames_eq_of_mem_iff
      (h.distinct.types.sublist (List.filter_sublist.map _))
      (h'.distinct.types.sublist (List.filter_sublist.map _))
    intro type
    have hMem :
        type ∈ r.typesFor name ↔
          lastName? calls type = some name :=
      h.mem_typesFor_iff
    rw [hTypes, ← h'.mem_typesFor_iff, typesFor, typesFor,
      mem_sortNames, mem_sortNames] at hMem
    exact hMem
  · apply sortNames_eq_of_mem_iff h.distinct.modes
      h'.distinct.modes
    intro name
    rw [← Assoc.isSome_get?_iff, ← Assoc.isSome_get?_iff,
      h.modes_eq, h'.modes_eq, hModes]

end MadeBy

------------------------------------------------------------
-- Names
------------------------------------------------------------

/-
  Every name listed has a mode, the one last defined under
  it. It is found by the name unless this is a content type
  of another name. Then it is what the other name stands for
  that is found, if anything.
-/
theorem names_resolve
    {r : Registry}
    {before : List Call}
    (hMade : r.MadeBy before)
    (calls : List Call)
    {name : String}
    (hName : name ∈ (r.run calls).names) :
    let s := r.run calls
    let all := before ++ calls
    ∃ mode, lastMode? all name = some mode ∧
      (s.get name = Except.ok mode ↔
        ∀ other, name ∈ s.typesFor other → other = name) ∧
      (∀ other, name ∈ s.typesFor other →
        s.get name =
          match lastMode? all other with
          | some m => Except.ok m
          | none => Except.error ⟨name⟩) := by
  intro s all
  have hRun : s.MadeBy all := hMade.run calls
  rcases hRun.mem_names_iff.mp hName with ⟨mode, hMode⟩
  refine ⟨mode, hMode, ?_, ?_⟩
  · rw [hRun.get_eq]
    cases hType : lastName? all name with
    | none =>
        simp [hRun.mem_typesFor_iff, hType, hMode]
    | some given =>
        simp only [hRun.mem_typesFor_iff, hType,
          Option.getD_some, Option.some.injEq, forall_eq']
        constructor
        · intro hGet
          split at hGet
          · rename_i found hFound
            cases hGet
            rw [← name_of_lastMode? hFound,
              name_of_lastMode? hMode]
          · cases hGet
        · rintro rfl
          rw [hMode]
  · intro other hOther
    rw [hRun.get_eq, hRun.mem_typesFor_iff.mp hOther]
    rfl

/- A mode with a name that another mode's type has. -/
theorem names_resolve_hidden :
    let toy : Mode := { Qhantoom.mode with name := "toy" }
    let s := builtIn.run
      [Call.defineType Qhantoom.name "toy", Call.define toy]
    Qhantoom.name ∈ s.names ∧ "toy" ∈ s.names ∧
      s.get Qhantoom.name = Except.ok toy ∧
      s.get "toy" = Except.ok toy := by
  intro toy s
  have hRun := madeBy_builtIn.run
    [Call.defineType Qhantoom.name "toy", Call.define toy]
  have hQhantoom : Qhantoom.name ∈ s.names :=
    hRun.mem_names_iff.mpr ⟨Qhantoom.mode, rfl⟩
  have hToy : "toy" ∈ s.names :=
    hRun.mem_names_iff.mpr ⟨toy, rfl⟩
  have hHidden : Qhantoom.name ∈ s.typesFor "toy" :=
    hRun.mem_typesFor_iff.mpr rfl
  rcases names_resolve madeBy_builtIn _ hQhantoom with
    ⟨_, _, _, hOther⟩
  rcases names_resolve madeBy_builtIn _ hToy with
    ⟨mode, hMode, hOwn, _⟩
  cases hMode
  refine ⟨hQhantoom, hToy, hOther _ hHidden, hOwn.mpr ?_⟩
  intro other hMem
  cases hRun.mem_typesFor_iff.mp hMem

/- Not every name that is listed is found. -/
theorem name_hidden_by_type :
    ¬ ∀ (r : Registry) (before calls : List Call),
      r.MadeBy before →
      ∀ name ∈ (r.run calls).names,
        ∃ mode, lastMode? (before ++ calls) name = some mode ∧
          (r.run calls).get name = Except.ok mode := by
  intro hFound
  have hRun := madeBy_builtIn.run
    [Call.defineType Qhantoom.name "other"]
  have hName : Qhantoom.name ∈ (builtIn.run
      [Call.defineType Qhantoom.name "other"]).names :=
    hRun.mem_names_iff.mpr ⟨Qhantoom.mode, rfl⟩
  rcases hFound _ _ _ madeBy_builtIn _ hName with
    ⟨mode, _, hGet⟩
  cases hGet

------------------------------------------------------------
-- Orders
------------------------------------------------------------

/- What a call gives a value to. -/
inductive Slot
  | mode (name : String)
  | type (type : String)
deriving DecidableEq, Repr

/- What a call is about. -/
def Call.slot : Call → Slot
  | define mode => Slot.mode mode.name
  | defineType type _ => Slot.type type

/-
  The same calls, those about the same being in the same
  order. All calls are about something, so none is missing
  and none is new.
-/
def SameCalls (calls calls' : List Call) : Prop :=
  ∀ slot, calls.filter (fun c => c.slot == slot) =
    calls'.filter (fun c => c.slot == slot)

theorem SameCalls.append_left
    {calls calls' : List Call}
    (h : SameCalls calls calls')
    (before : List Call) :
    SameCalls (before ++ calls) (before ++ calls') := by
  intro slot
  rw [List.filter_append, List.filter_append, h slot]

/- Where only calls about one thing count, order does not. -/
theorem SameCalls.last?_eq
    {calls calls' : List Call}
    (h : SameCalls calls calls')
    {α : Type}
    {f : Call → Option α}
    (slot : Slot)
    (hNone : ∀ c, c.slot ≠ slot → f c = none) :
    last? f calls = last? f calls' := by
  have hFilter :
      ∀ c : Call, (c.slot == slot) = false → f c = none :=
    fun c hSlot => hNone c (ne_of_beq_false hSlot)
  rw [← last?_filter hFilter, h, last?_filter hFilter]

/- What is said about a name is said by the calls about it. -/
theorem SameCalls.lastMode?_eq
    {calls calls' : List Call}
    (h : SameCalls calls calls')
    (name : String) :
    lastMode? calls name = lastMode? calls' name := by
  apply h.last?_eq (Slot.mode name)
  intro c hSlot
  cases c with
  | define mode =>
      rw [Call.modeFor?, if_neg]
      rintro rfl
      exact hSlot rfl
  | defineType type other => rfl

theorem SameCalls.lastName?_eq
    {calls calls' : List Call}
    (h : SameCalls calls calls')
    (type : String) :
    lastName? calls type = lastName? calls' type := by
  apply h.last?_eq (Slot.type type)
  intro c hSlot
  cases c with
  | define mode => rfl
  | defineType other name =>
      rw [Call.nameFor?, if_neg]
      rintro rfl
      exact hSlot rfl

/-
  In whatever order the same calls are made, if only those
  about one name and those about one content type keep
  theirs, a registry answers the same. Each content type
  belongs to one name and stands for the mode last defined
  under it. While there is none it is itself what is
  unknown, and once there is one it is found.
-/
theorem order_of_calls
    {r : Registry}
    {before : List Call}
    (hMade : r.MadeBy before)
    {calls calls' : List Call}
    (hSame : SameCalls calls calls') :
    let s := r.run calls
    let s' := r.run calls'
    let all := before ++ calls
    (∀ key, s.get key = s'.get key) ∧
    (∀ name, s.typesFor name = s'.typesFor name) ∧
    s.names = s'.names ∧
    (∀ type name, Call.defineType type name ∈ all →
      ∃! owner, type ∈ s.typesFor owner) ∧
    (∀ type name, type ∈ s.typesFor name →
      s.get type =
        match lastMode? all name with
        | some mode => Except.ok mode
        | none => Except.error ⟨type⟩) ∧
    (∀ type mode, type ∈ s.typesFor mode.name →
      (s.define mode).get type = Except.ok mode) := by
  intro s s' all
  have hRun : s.MadeBy all := hMade.run calls
  have hAll : SameCalls all (before ++ calls') :=
    hSame.append_left before
  rcases hRun.answers_eq (hMade.run calls') hAll.lastMode?_eq
    hAll.lastName?_eq with ⟨hGet, hTypes, hNames⟩
  refine ⟨hGet, hTypes, hNames, ?_, ?_, ?_⟩
  · intro type name hMem
    rcases exists_lastName? hMem with ⟨owner, hOwner⟩
    refine ⟨owner, hRun.mem_typesFor_iff.mpr hOwner, ?_⟩
    intro other hOther
    rw [hRun.mem_typesFor_iff, hOwner] at hOther
    exact (Option.some.inj hOther).symm
  · intro type name hMem
    rw [hRun.get_eq, hRun.mem_typesFor_iff.mp hMem]
    rfl
  · intro type mode hMem
    have hDefined := hRun.run [Call.define mode]
    have hName : lastName? (all ++ [Call.define mode]) type =
        some mode.name := by
      rw [lastName?, last?_append]
      exact hRun.mem_typesFor_iff.mp hMem
    have hMode : lastMode? (all ++ [Call.define mode])
        mode.name = some mode := by
      rw [lastMode?, last?_append, Call.modeFor?, if_pos rfl]
      rfl
    have hGot := hDefined.get_eq type
    rw [hName, Option.getD_some, hMode] at hGot
    exact hGot

/-
  A content type that comes before its mode, and one that is
  moved from a mode to another.
-/
theorem order_of_calls_late :
    let toy : Mode := { Qhantoom.mode with name := "toy" }
    let calls :=
      [Call.defineType "text/toy" "ghost",
       Call.defineType "text/toy" "toy",
       Call.define toy]
    let calls' :=
      [Call.define toy,
       Call.defineType "text/toy" "ghost",
       Call.defineType "text/toy" "toy"]
    empty.MadeBy [] ∧ SameCalls calls calls' ∧
      (empty.run calls).get "text/toy" =
        (empty.run calls').get "text/toy" ∧
      (empty.run calls).get "text/toy" = Except.ok toy := by
  intro toy calls calls'
  have hSame : SameCalls calls calls' := by
    intro slot
    by_cases hMode : Slot.mode "toy" = slot
    · subst hMode
      rfl
    · have hNot : ((Call.define toy).slot == slot) = false :=
        beq_false_of_ne hMode
      simp only [calls, calls', List.filter_cons, hNot,
        Bool.false_eq_true, if_false]
  rcases order_of_calls madeBy_empty hSame with
    ⟨hGet, -, -, -, hFound, -⟩
  have hMem : "text/toy" ∈ (empty.run calls).typesFor "toy" :=
    (madeBy_empty.run calls).mem_typesFor_iff.mpr rfl
  exact ⟨madeBy_empty, hSame, hGet _, hFound _ _ hMem⟩

end Registry

end Highlighter

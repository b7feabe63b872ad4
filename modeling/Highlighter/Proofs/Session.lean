import Highlighter.Session

/-
  Kept results never show: in every session each buffer
  answers what one made anew of its text, mode, state and
  settings answers, and a question changes no other answer.

  Key definitions include:
    * `Document.answer`
    * `Buffer.fresh`
    * `Buffer.Coherent`
    * `Session.plainRun`

  Main statements:
    * `Buffer.Coherent.ask_eq`
    * `Session.Coherent.run_eq`
    * `Session.answers_as_fresh`
-/

namespace Highlighter

------------------------------------------------------------
-- Documents without kept results
------------------------------------------------------------

namespace Document

open Buffer (Question Answer Change)

/- The answer of a document, computed each time. -/
def answer (d : Document) : Question → Answer
  | Question.lineStates => Answer.states d.lineStates
  | Question.indents => Answer.indents d.indents
  | Question.folds => Answer.folds d.folds
  | Question.foldAt line => Answer.fold (d.foldAt line)
  | Question.reindented => Answer.text d.reindented
  | Question.tokens => Answer.tokens d.tokens
  | Question.highlight => Answer.highlight d.highlight

/- A document after a change. -/
def change (d : Document) : Change → Document
  | Change.text text => { d with text := text }
  | Change.startState state => { d with startState := state }
  | Change.options options => { d with options := options }

end Document

namespace Buffer

/- A buffer made anew. -/
def fresh
    (text : Text)
    (mode : Mode)
    (state : State)
    (options : IndentOptions) : Buffer :=
  ((ofDocument (Document.withMode text mode)).setStartState
    state).setOptions options

/-
  The answer of a buffer made anew of what a document is at
  present. Its name and its path are left out.
-/
def freshAnswer (d : Document) (q : Question) : Answer :=
  ((fresh d.text d.mode d.startState d.options).ask q).1

/- It is the answer of the document. -/
theorem freshAnswer_eq (d : Document) (q : Question) :
    freshAnswer d q = d.answer q := by
  cases q <;> rfl

------------------------------------------------------------
-- Coherence
------------------------------------------------------------

/- What is kept is what the document gives at present. -/
structure Coherent (b : Buffer) : Prop where
  states : ∀ states,
    b.keptStates = some states → states = b.document.lineStates
  indents : ∀ indents,
    b.keptIndents = some indents → indents = b.document.indents
  folds : ∀ folds,
    b.keptFolds = some folds → folds = b.document.folds

/- Where nothing is kept nothing is wrong. -/
theorem coherent_ofDocument (d : Document) :
    (ofDocument d).Coherent := by
  constructor <;> (intro kept hKept; cases hKept)

theorem document_change (b : Buffer) (c : Change) :
    (b.change c).document = b.document.change c := by
  cases c <;> rfl

/-
  A change forgets what it may affect. The settings of
  indentation affect neither the states nor the folds.
-/
theorem Coherent.change
    {b : Buffer}
    (h : b.Coherent)
    (c : Change) : (b.change c).Coherent := by
  cases c with
  | text text => exact coherent_ofDocument _
  | startState state => exact coherent_ofDocument _
  | options options =>
      refine ⟨h.states, ?_, h.folds⟩
      intro indents hKept
      cases hKept

/- A buffer made anew has nothing kept. -/
theorem coherent_fresh
    (text : Text)
    (mode : Mode)
    (state : State)
    (options : IndentOptions) :
    (fresh text mode state options).Coherent :=
  ((coherent_ofDocument (Document.withMode text mode)).change
    (Change.startState state)).change (Change.options options)

/- Asking for the states keeps them and nothing else. -/
theorem Coherent.lineStates_eq
    {b : Buffer}
    (h : b.Coherent) :
    b.lineStates.1 = b.document.lineStates ∧
      b.lineStates.2.document = b.document ∧
      b.lineStates.2.Coherent := by
  unfold Buffer.lineStates
  split
  · rename_i states hKept
    exact ⟨h.states states hKept, rfl, h⟩
  · refine ⟨rfl, rfl, ?_, h.indents, h.folds⟩
    intro states hKept
    exact (Option.some.inj hKept).symm

/- So does asking for the indentation of the lines. -/
theorem Coherent.indents_eq
    {b : Buffer}
    (h : b.Coherent) :
    b.indents.1 = b.document.indents ∧
      b.indents.2.document = b.document ∧
      b.indents.2.Coherent := by
  unfold Buffer.indents
  split
  · rename_i indents hKept
    exact ⟨h.indents indents hKept, rfl, h⟩
  · refine ⟨rfl, rfl, h.states, ?_, h.folds⟩
    intro indents hKept
    exact (Option.some.inj hKept).symm

/- So does asking for the regions to fold. -/
theorem Coherent.folds_eq
    {b : Buffer}
    (h : b.Coherent) :
    b.folds.1 = b.document.folds ∧
      b.folds.2.document = b.document ∧
      b.folds.2.Coherent := by
  unfold Buffer.folds
  split
  · rename_i folds hKept
    exact ⟨h.folds folds hKept, rfl, h⟩
  · refine ⟨rfl, rfl, h.states, h.indents, ?_⟩
    intro folds hKept
    exact (Option.some.inj hKept).symm

/-
  A coherent buffer answers as its document does, and asking
  it leaves the document as it is and the buffer coherent.
-/
theorem Coherent.ask_eq
    {b : Buffer}
    (h : b.Coherent)
    (q : Question) :
    (b.ask q).1 = b.document.answer q ∧
      (b.ask q).2.document = b.document ∧
      (b.ask q).2.Coherent := by
  cases q with
  | lineStates =>
      exact ⟨congrArg Answer.states h.lineStates_eq.1,
        h.lineStates_eq.2⟩
  | indents =>
      exact ⟨congrArg Answer.indents h.indents_eq.1,
        h.indents_eq.2⟩
  | folds =>
      exact ⟨congrArg Answer.folds h.folds_eq.1,
        h.folds_eq.2⟩
  | foldAt line =>
      rcases h.folds_eq with ⟨hFolds, hAfter⟩
      refine ⟨?_, hAfter⟩
      simp only [ask, foldAt, Document.answer,
        Document.foldAt, hFolds]
  | reindented =>
      rcases h.indents_eq with ⟨hIndents, hDocument, hAfter⟩
      refine ⟨?_, hDocument, hAfter⟩
      simp only [ask, reindented, Document.answer,
        Document.reindented, hIndents, hDocument]
  | tokens => exact ⟨rfl, rfl, h⟩
  | highlight => exact ⟨rfl, rfl, h⟩

end Buffer

------------------------------------------------------------
-- Sessions without kept results
------------------------------------------------------------

namespace Session

/-
  What an action does to documents of which nothing is kept:
  a question is put to a buffer made anew, and changes none.
-/
def plainAct (documents : List Document) (a : Action) :
    Option Buffer.Answer × List Document :=
  match documents[a.number]? with
  | none => (none, documents)
  | some d =>
      match a.deed with
      | Deed.change c =>
          (none, documents.set a.number (d.change c))
      | Deed.clone => (none, documents ++ [d])
      | Deed.ask q => (some (Buffer.freshAnswer d q), documents)

/- What actions one after the other do to them. -/
def plainRun (documents : List Document) :
    List Action → List (Option Buffer.Answer) × List Document
  | [] => ([], documents)
  | a :: actions =>
      let (answer, documents) := plainAct documents a
      let (answers, documents) := plainRun documents actions
      (answer :: answers, documents)

/- The documents of the open buffers. -/
def documents (s : Session) : List Document :=
  s.map Buffer.document

/- Every open buffer is coherent. -/
def Coherent (s : Session) : Prop :=
  ∀ b ∈ s, b.Coherent

/- The session of some documents, nothing being asked yet. -/
def ofDocuments (documents : List Document) : Session :=
  documents.map Buffer.ofDocument

theorem coherent_ofDocuments (documents : List Document) :
    Coherent (ofDocuments documents) := by
  intro b hb
  rcases List.mem_map.mp hb with ⟨d, -, rfl⟩
  exact Buffer.coherent_ofDocument d

theorem documents_ofDocuments (ds : List Document) :
    (ofDocuments ds).documents = ds := by
  rw [ofDocuments, documents, List.map_map]
  exact List.map_id ds

theorem getElem?_documents (s : Session) (i : Nat) :
    s.documents[i]? = s[i]?.map Buffer.document :=
  List.getElem?_map

theorem documents_set (s : Session) (i : Nat) (b : Buffer) :
    documents (s.set i b) = s.documents.set i b.document :=
  List.map_set

/- To put a document where it stands changes nothing. -/
theorem set_document
    {s : Session}
    {i : Nat}
    {b : Buffer}
    (h : s[i]? = some b) :
    s.documents.set i b.document = s.documents := by
  have hAt : s.documents[i]? = some b.document := by
    rw [getElem?_documents, h, Option.map_some]
  rcases List.getElem?_eq_some_iff.mp hAt with ⟨hi, hEq⟩
  rw [← hEq]
  exact List.set_getElem_self hi

/- One more coherent buffer in the place of another. -/
theorem Coherent.set
    {s : Session}
    (h : Coherent s)
    (i : Nat)
    {b : Buffer}
    (hb : b.Coherent) : Coherent (s.set i b) := by
  intro b' hMem
  rcases List.mem_or_eq_of_mem_set hMem with hOld | rfl
  · exact h b' hOld
  · exact hb

------------------------------------------------------------
-- Single actions
------------------------------------------------------------

/-
  In a coherent session an action gives the same answer and
  does the same to the documents as where nothing is kept.
-/
theorem Coherent.act_eq
    {s : Session}
    (h : Coherent s)
    (a : Action) :
    (s.act a).1 = (plainAct s.documents a).1 ∧
      (s.act a).2.documents = (plainAct s.documents a).2 ∧
      Coherent (s.act a).2 := by
  unfold act plainAct
  rw [getElem?_documents]
  cases hb : s[a.number]? with
  | none => exact ⟨rfl, rfl, h⟩
  | some b =>
      have hCoherent : b.Coherent :=
        h b (List.mem_of_getElem? hb)
      simp only [Option.map_some]
      cases a.deed with
      | change c =>
          refine ⟨rfl, ?_, h.set _ (hCoherent.change c)⟩
          rw [documents_set, Buffer.document_change]
      | clone =>
          refine ⟨rfl, List.map_append, ?_⟩
          intro b' hMem
          rcases List.mem_append.mp hMem with hOld | hNew
          · exact h b' hOld
          · rcases List.mem_singleton.mp hNew with rfl
            exact hCoherent
      | ask q =>
          rcases hCoherent.ask_eq q with
            ⟨hAnswer, hDocument, hAfter⟩
          refine ⟨?_, ?_, h.set _ hAfter⟩
          · simp only [hAnswer, Buffer.freshAnswer_eq]
          · rw [documents_set, hDocument, set_document hb]

------------------------------------------------------------
-- Whole sessions
------------------------------------------------------------

/- The same for actions one after the other. -/
theorem Coherent.run_eq
    {s : Session}
    (h : Coherent s)
    (actions : List Action) :
    (s.run actions).1 = (plainRun s.documents actions).1 ∧
      (s.run actions).2.documents =
        (plainRun s.documents actions).2 ∧
      Coherent (s.run actions).2 := by
  induction actions generalizing s with
  | nil => exact ⟨rfl, rfl, h⟩
  | cons a actions ih =>
      rcases h.act_eq a with ⟨hAnswer, hDocuments, hAct⟩
      rcases ih hAct with ⟨hAnswers, hAfter, hRun⟩
      rw [hDocuments] at hAnswers hAfter
      refine ⟨?_, hAfter, hRun⟩
      simp only [run, plainRun, hAnswer, hAnswers]

theorem plainRun_append
    (documents : List Document)
    (xs ys : List Action) :
    (plainRun documents (xs ++ ys)).1 =
      (plainRun documents xs).1 ++
        (plainRun (plainRun documents xs).2 ys).1 := by
  induction xs generalizing documents with
  | nil => rfl
  | cons a xs ih =>
      simp only [List.cons_append, plainRun, ih]

/- A question changes no document. -/
theorem plainAct_ask
    (documents : List Document)
    (i : Nat)
    (q : Buffer.Question) :
    plainAct documents ⟨i, Deed.ask q⟩ =
      (documents[i]?.map (Buffer.freshAnswer · q),
        documents) := by
  unfold plainAct
  cases documents[i]? <;> rfl

/-
  For every session that begins with some documents and any
  sequence of changes, copies and questions: all answers are
  those of buffers made anew at the time of the question,
  and the documents are those that the changes alone lead
  to. Whatever is asked of any buffer afterwards is answered
  as by a buffer made anew. A question in the midst of other
  actions adds its own answer and leaves all others alone.
-/
theorem answers_as_fresh
    (documents : List Document)
    (actions : List Action) :
    let s := ofDocuments documents
    (s.run actions).1 = (plainRun documents actions).1 ∧
    (s.run actions).2.documents =
      (plainRun documents actions).2 ∧
    (∀ b ∈ (s.run actions).2, ∀ q,
      (b.ask q).1 = Buffer.freshAnswer b.document q) ∧
    (∀ i q later, ∃ answer answers,
      (s.run (actions ++ ⟨i, Deed.ask q⟩ :: later)).1 =
        (s.run actions).1 ++ answer :: answers ∧
      (s.run (actions ++ later)).1 =
        (s.run actions).1 ++ answers) := by
  intro s
  have hAll := fun actions =>
    (coherent_ofDocuments documents).run_eq actions
  simp only [documents_ofDocuments] at hAll
  rcases hAll actions with ⟨hAnswers, hDocuments, hCoherent⟩
  refine ⟨hAnswers, hDocuments, ?_, ?_⟩
  · intro b hb q
    rw [((hCoherent b hb).ask_eq q).1, Buffer.freshAnswer_eq]
  · intro i q later
    let present := (plainRun documents actions).2
    refine ⟨present[i]?.map (Buffer.freshAnswer · q),
      (plainRun present later).1, ?_, ?_⟩
    · rw [(hAll _).1, plainRun_append, hAnswers]
      simp only [plainRun, plainAct_ask]
      rfl
    · rw [(hAll _).1, plainRun_append, hAnswers]

end Session

end Highlighter

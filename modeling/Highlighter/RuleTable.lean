import Highlighter.Rule

/-
  Rule tables: the ordered rules of each state of a scan.

  Key definitions include:
    * `RuleTable`
    * `RuleTable.Entry`
    * `RuleTable.Invalid`
    * `RuleTable.CompileError`
    * `RuleTable.fault?`
    * `RuleTable.compileWith`
    * `RuleTable.compile`
-/

namespace Highlighter

/-
  A rule table gives the states it has an entry for their
  rules, in the order in which they are tried.
-/
structure RuleTable where
  rulesFor? : State → Option (List (Rule Pattern))

namespace RuleTable

/- The table without entries. -/
def empty : RuleTable := ⟨fun _ => none⟩

/- The table with the entry of one state replaced. -/
def insert
    (state : State)
    (rules : List (Rule Pattern))
    (table : RuleTable) : RuleTable :=
  ⟨fun s => if s = state then some rules else table.rulesFor? s⟩

/- The rules of a state, none for a state without entry. -/
def rules (table : RuleTable) (state : State) :
    List (Rule Pattern) :=
  (table.rulesFor? state).getD []

/- Does a state have an entry? -/
def defines (table : RuleTable) (state : State) : Bool :=
  (table.rulesFor? state).isSome

------------------------------------------------------------
-- Validation
------------------------------------------------------------

/- What may be wrong with a table of compiled rules. -/
inductive Invalid
  | missingStart
  | noRules (state : State)
  | undefinedNext (state : State) (index : Nat) (next : State)
  | bothEffects (state : State) (index : Nat)
  | splitLiteral (state : State) (index : Nat)
deriving DecidableEq, Repr

/- The name of a rule in messages. -/
def ruleName (state : State) (index : Nat) : String :=
  "rule " ++ toString index ++ " in state " ++ state.name

/- What is said about an invalid table. -/
def Invalid.message (e : Invalid) : String :=
  "Invalid rule table: " ++
    match e with
    | missingStart => "missing start state"
    | noRules state => "state " ++ state.name ++ " has no rules"
    | undefinedNext state index next =>
        ruleName state index ++
          " moves to undefined state " ++ next.name
    | bothEffects state index =>
        ruleName state index ++ " both indents and dedents"
    | splitLiteral state index =>
        ruleName state index ++
          " splits captures of a literal pattern"

/- Does a rule split the captures of a literal? -/
def splitsLiteral (r : Rule Pattern) : Bool :=
  match r.pattern, r.labelling with
  | Pattern.upTo _, Labelling.captures _ => true
  | _, _ => false

/- What is wrong with the rule at a place in the table. -/
def ruleFault?
    (table : RuleTable)
    (state : State)
    (index : Nat)
    (r : Rule Pattern) : Option Invalid :=
  match r.next.filter (fun next => !table.defines next) with
  | some next => some (Invalid.undefinedNext state index next)
  | none =>
      if r.indents && r.dedents then
        some (Invalid.bothEffects state index)
      else if splitsLiteral r then
        some (Invalid.splitLiteral state index)
      else
        none

/- What is first wrong with the rules of a state. -/
def entryFault? (table : RuleTable) (state : State) :
    Option Invalid :=
  match table.rulesFor? state with
  | none => none
  | some [] => some (Invalid.noRules state)
  | some rules =>
      rules.zipIdx.findSome? fun (r, index) =>
        table.ruleFault? state index r

/- What is first wrong with a table. -/
def fault? (table : RuleTable) : Option Invalid :=
  if table.defines State.start then
    State.all.findSome? table.entryFault?
  else
    some Invalid.missingStart

------------------------------------------------------------
-- Compilation
------------------------------------------------------------

/- The rules of one state in written form. -/
structure Entry where
  state : State
  rules : List (Rule Pattern.Source)
deriving DecidableEq, Repr

/- Why a table does not compile. -/
inductive CompileError
  | badPattern (state : State) (index : Nat)
  | invalid (fault : Invalid)
deriving DecidableEq, Repr

/-
  Compile the rules of a state from an index on, given how
  expressions are read.
-/
def compileRules (read : Regex.Reader) (state : State) :
    Nat → List (Rule Pattern.Source) →
      Except CompileError (List (Rule Pattern))
  | _, [] => Except.ok []
  | index, r :: rest =>
      match Pattern.compileWith? read r.pattern with
      | none => Except.error (CompileError.badPattern state index)
      | some pattern =>
          match compileRules read state (index + 1) rest with
          | Except.error e => Except.error e
          | Except.ok rules =>
              Except.ok (r.withPattern pattern :: rules)

/-
  Compile entries into a table, a later entry of a state
  taking the place of an earlier one.
-/
def compileEntries (read : Regex.Reader) :
    List Entry → RuleTable → Except CompileError RuleTable
  | [], table => Except.ok table
  | e :: rest, table =>
      match compileRules read e.state 0 e.rules with
      | Except.error err => Except.error err
      | Except.ok rules =>
          compileEntries read rest (table.insert e.state rules)

/- Compile a table and check it. -/
def compileWith (read : Regex.Reader) (entries : List Entry) :
    Except CompileError RuleTable :=
  match compileEntries read entries empty with
  | Except.error e => Except.error e
  | Except.ok table =>
      match table.fault? with
      | some fault => Except.error (CompileError.invalid fault)
      | none => Except.ok table

/- Compile a table with the reader of this library. -/
def compile (entries : List Entry) :
    Except CompileError RuleTable :=
  compileWith Regex.ofSource? entries

end RuleTable

end Highlighter

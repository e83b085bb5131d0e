import Reflex.RuleTable
import Reflex.Engine

/-!
# Requests to the Stored Rules

A request is a procedure of calls to the table of stored rules. Each call is one step, and
other requests may come between two calls.

## Main definitions

- `Reflex.Procedure`: a sequence of calls, and `Reflex.Procedure.run`: its run without others
  in between.
- `Reflex.Procedure.create`, `Reflex.Procedure.update`, `Reflex.Procedure.setEnabled`,
  `Reflex.Procedure.importRule`, `Reflex.Procedure.delete`: the requests that change rules.
- `Reflex.Engine.reload`: make the enabled stored rules active.
-/

namespace Reflex

/-- A sequence of calls to the table that ends with an answer. -/
inductive Procedure (α : Type) where
  -- The answer.
  | finish (answer : Except Failure α)
  -- One call: its effect on the table, and what follows, both given the table as the call finds
  -- it.
  | call (effect : RuleTable → RuleTable) (next : RuleTable → Procedure α)

namespace Procedure

variable {α : Type}

/-- Make all calls, one after the other. -/
def run : Procedure α → RuleTable → RuleTable × Except Failure α
  | .finish answer, table => (table, answer)
  | .call effect next, table => (next table).run (effect table)

/-- Fail. -/
def fail (e : Failure) : Procedure α :=
  .finish (.error e)

/-- Ask the table and go on with the answer. -/
def query {β : Type} (q : RuleTable → Except StorageFault β) (next : β → Procedure α) :
    Procedure α :=
  .call id fun table =>
    match q table with
    | .ok b => next b
    | .error fault => fail (.storage fault)

/-- The table after a change; a refused one leaves it as it is. -/
def afterChange (f : RuleTable → Except StorageFault RuleTable) (table : RuleTable) : RuleTable :=
  match f table with
  | .ok changed => changed
  | .error _ => table

/-- Change the table and answer. -/
def change (f : RuleTable → Except StorageFault RuleTable) (answer : α) : Procedure α :=
  .call (afterChange f) fun table =>
    match f table with
    | .ok _ => .finish (.ok answer)
    | .error fault => fail (.storage fault)

/-- Go on only with a rule that satisfies the invariants. -/
def checked (rule : RuleDefinition) (next : Procedure α) : Procedure α :=
  match rule.checkInvariants with
  | .ok () => next
  | .error cause => fail (.validation cause)

/-- Add the row of a rule. -/
def insertRow (rule : RuleDefinition) : Procedure RuleDefinition :=
  change (fun table => table.insert (.ofRule rule)) rule

/-- Replace the row of a rule. -/
def updateRow (rule : RuleDefinition) : Procedure RuleDefinition :=
  change (fun table => table.update (.ofRule rule)) rule

/-- Store a new rule. -/
def create (rule : RuleDefinition) : Procedure RuleDefinition :=
  checked rule (insertRow rule)

/-- Replace a stored rule. -/
def update (rule : RuleDefinition) : Procedure RuleDefinition :=
  checked rule (updateRow rule)

/-- Go on with the stored rule of an identifier, which must be there. -/
def withRule (id : Identifier) (next : RuleDefinition → Procedure α) : Procedure α :=
  query (fun table => table.findById id) fun found =>
    match found with
    | some rule => next rule
    | none => fail (.notFound { entity := "Rule", id := id.text })

/-- The stored rule of an identifier. -/
def get (id : Identifier) : Procedure RuleDefinition :=
  withRule id fun rule => .finish (.ok rule)

/-- The stored rule of a name, if there is one. -/
def getByName (name : String) : Procedure (Option RuleDefinition) :=
  query (fun table => table.findByName name) fun found => .finish (.ok found)

/-- The stored rules in the order of their names. -/
def list : Procedure (List RuleDefinition) :=
  query RuleTable.all fun rules => .finish (.ok rules)

/-- The enabled stored rules in the order of their names. -/
def listEnabled : Procedure (List RuleDefinition) :=
  query RuleTable.allEnabled fun rules => .finish (.ok rules)

/-- Enable or disable a stored rule: read it, then write it back. -/
def setEnabled (id : Identifier) (enabled : Bool) : Procedure RuleDefinition :=
  withRule id fun rule => updateRow { rule with enabled }

/-- Remove a stored rule. -/
def delete (id : Identifier) : Procedure Unit :=
  change (fun table => .ok (table.delete id.text)) ()

/-- Store a rule that comes from outside: it replaces the stored rule of the same name and takes
over its identifier. -/
def importRule (rule : RuleDefinition) : Procedure RuleDefinition :=
  checked rule <| query (fun table => table.findByName rule.name) fun found =>
    match found with
    | some existing => updateRow { rule with id := existing.id }
    | none => insertRow rule

end Procedure

/-- Make the enabled stored rules active, as far as they compile. The answer is the engine with
its new rules and what is wrong with the others. -/
def Engine.reload (engine : Engine) : Procedure (Engine × List CompileError) :=
  .query RuleTable.allEnabled fun rules =>
    .finish (.ok (engine.load rules, engine.failures rules))

end Reflex

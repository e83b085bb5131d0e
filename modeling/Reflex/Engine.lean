import Reflex.Failure
import Reflex.Rule.Resolution

/-!
# The Rule Engine

The engine holds the active rules over a catalog, in the order in which they were loaded. It
answers which of them an event triggers, and lets the parameters of their actions be edited.

## Main definitions

- `Reflex.Engine.load`: replace the active rules; a rule that does not compile is reported and
  does not affect the others.
- `Reflex.Engine.evaluate`: the rules that an event triggers.
- `Reflex.Engine.setProperty`: edit a parameter of an action.
-/

namespace Reflex

/-- The active rules over a catalog. -/
structure Engine where
  /-- The known action types and event kinds. -/
  catalog : Catalog
  /-- The active rules in the order in which they were loaded. -/
  rules : List CompiledRule := []

namespace Engine

variable (engine : Engine)

/-- Compile one rule. -/
def compile (d : RuleDefinition) : Except CompileError CompiledRule :=
  d.compile engine.catalog

/-- The compiled form of a rule, if it compiles. -/
def compiled? (d : RuleDefinition) : Option CompiledRule :=
  (engine.compile d).toOption

/-- What is wrong with a rule, if it does not compile. -/
def refusal? (d : RuleDefinition) : Option CompileError :=
  match engine.compile d with
  | .ok _ => none
  | .error e => some e

/-- What is wrong with the rules that do not compile. -/
def failures (definitions : List RuleDefinition) : List CompileError :=
  definitions.filterMap engine.refusal?

/-- Make exactly those of the rules active that compile. -/
def load (definitions : List RuleDefinition) : Engine :=
  { engine with rules := definitions.filterMap engine.compiled? }

/-- The enabled rules whose condition holds for an event, in the order of the active rules. -/
def evaluate (e : Event) : List CompiledRule :=
  engine.rules.filter fun r => r.definition.enabled && r.isMatch e

/-- The first active rule with an identifier. -/
def rule? (id : Identifier) : Option CompiledRule :=
  engine.rules.find? fun r => r.id == id

/-- The first active rule with an identifier, which must be there. -/
def requireRule (id : Identifier) : Except Failure CompiledRule :=
  match engine.rule? id with
  | some rule => .ok rule
  | none => .error (.notFound { entity := "Rule", id := id.text })

/-- The action at a position of a rule, which must be there. -/
def requireAction (rule : CompiledRule) (index : Nat) : Except Failure CompiledAction :=
  match rule.actions[index]? with
  | some action => .ok action
  | none =>
    .error (.notFound { entity := "Action", id := rule.id.text ++ "#" ++ Decimal.intText index })

/-- The action at a position of an active rule. -/
def action (id : Identifier) (index : Nat) : Except Failure CompiledAction := do
  let rule ← engine.requireRule id
  requireAction rule index

/-- Change the first element that satisfies a test. -/
def modifyFirst {α : Type} (p : α → Bool) (f : α → α) : List α → List α
  | [] => []
  | a :: rest => if p a then f a :: rest else a :: modifyFirst p f rest

/-- Put a store into the action at a position of the first active rule with an identifier. -/
def putStore (id : Identifier) (index : Nat) (store : PropertyStore) : Engine :=
  { engine with
    rules := modifyFirst (fun r => r.id == id)
      (fun r => { r with actions := r.actions.modify index fun a => { a with store } })
      engine.rules }

/-- Edit a parameter of an action. The answer is the new version of the action's store. -/
def setProperty (id : Identifier) (index : Nat) (name : String) (raw : Json) :
    Except Failure (Engine × Nat) := do
  let action ← engine.action id index
  let store ← Failure.ofValidation (action.store.set name raw)
  return (engine.putStore id index store, store.snapshot.version)

/-- How a parameter of an action is edited, if it has an editor of its own. -/
def selectorRequest (id : Identifier) (index : Nat) (name : String) :
    Except Failure (Option SelectorRequest) := do
  let action ← engine.action id index
  match action.store.descriptor? name with
  | some d => return d.selectorRequest? id index
  | none => .error (.validation (.unknownProperty name))

/-- The parameters of an action, each with its current value. -/
def actionProperties (id : Identifier) (index : Nat) :
    Except Failure (List (Descriptor × Option Value)) := do
  let action ← engine.action id index
  return action.properties

end Engine

end Reflex

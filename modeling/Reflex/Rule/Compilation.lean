import Reflex.Rule
import Reflex.Trigger.Evaluation
import Reflex.Property.Widget

/-!
# Compiling Rules

A compiled rule has a checked condition, and for every action its schema, a store of its
validated parameters, and the bindings to event fields.

## Main definitions

- `Reflex.CompiledRule`, `Reflex.CompiledAction`.
- `Reflex.CompileError`: why a rule is refused; the first violation in the order of definition,
  trigger and actions decides.
- `Reflex.RuleDefinition.compile`.
-/

namespace Reflex

/-- An action ready to run. -/
structure CompiledAction where
  /-- The declaration of the action type. -/
  schema : ActionSchema
  /-- The parameters. -/
  store : PropertyStore
  /-- The bound parameters, each with its event field. -/
  bindings : Dict String
  /-- The deadline declared on the action, in milliseconds. -/
  timeoutMs : Option UInt64
  deriving DecidableEq

namespace CompiledAction

/-- The action type. -/
def type (a : CompiledAction) : String :=
  a.schema.type

/-- The summary over the current parameters. -/
def summary (a : CompiledAction) : Option String :=
  a.schema.summarize a.store.snapshot.values

/-- The parameters in the order of their declarations, each with its widget and value. -/
def properties (a : CompiledAction) : List (Descriptor × Option Value) :=
  a.schema.properties.map fun d => (d, a.store.get? d.name)

end CompiledAction

/-- A rule ready to run. -/
structure CompiledRule where
  /-- The rule as written. -/
  definition : RuleDefinition
  /-- The checked condition. -/
  condition : Condition
  /-- The actions. -/
  actions : List CompiledAction

namespace CompiledRule

/-- The identifier. -/
def id (r : CompiledRule) : Identifier := r.definition.id

/-- The name. -/
def name (r : CompiledRule) : String := r.definition.name

/-- Whether an event triggers the rule. -/
def isMatch (r : CompiledRule) (e : Event) : Bool :=
  r.condition.isMatch e

end CompiledRule

/-- What is wrong with a rule. -/
inductive CompileCause where
  -- The definition breaks an invariant.
  | invalidDefinition (cause : ValidationError)
  -- The action type is not in the catalog.
  | unknownActionType (action : Nat) (type : String)
  -- The action type does not have the parameter.
  | unknownParameter (action : Nat) (parameter : String)
  -- A parameter has an invalid value or none.
  | invalidParameter (action : Nat) (cause : ValidationError)
  -- A parameter is bound to a blank field name.
  | emptyBinding (action : Nat) (parameter : String)
  -- The trigger is refused.
  | invalidTrigger (cause : TriggerError)
  deriving DecidableEq

/-- The text of the cause. -/
def CompileCause.message : CompileCause → String
  | .invalidDefinition cause => "invalid rule definition: " ++ cause.message
  | .unknownActionType action type =>
    "action #" ++ Decimal.intText action ++ " has unknown type `" ++ type ++ "`"
  | .unknownParameter action parameter =>
    "action #" ++ Decimal.intText action ++ " has unknown parameter `" ++ parameter ++ "`"
  | .invalidParameter action cause =>
    "action #" ++ Decimal.intText action ++ " has an invalid parameter: " ++ cause.message
  | .emptyBinding action parameter =>
    "action #" ++ Decimal.intText action ++ " binds parameter `" ++ parameter ++
      "` to an empty event field name"
  | .invalidTrigger cause => "invalid trigger: " ++ cause.message

/-- A rule that is refused. -/
structure CompileError where
  /-- The name of the rule. -/
  rule : String
  /-- What is wrong with it. -/
  cause : CompileCause
  deriving DecidableEq

/-- The text of the error. -/
def CompileError.message (e : CompileError) : String :=
  "rule `" ++ e.rule ++ "` failed to compile: " ++ e.cause.message

namespace ActionDefinition

/-- Refuse a parameter that is not declared, or that is bound to a blank field name. -/
def checkParam (schema : ActionSchema) (index : Nat) (param : String × ParamSource) :
    Except CompileCause Unit :=
  if (schema.property? param.1).isNone then .error (.unknownParameter index param.1)
  else
    match param.2 with
    | .eventField field =>
      if Text.isBlank field then .error (.emptyBinding index param.1) else .ok ()
    | .literal _ => .ok ()

/-- The first required parameter that has neither a value nor a binding. -/
def missing? (schema : ActionSchema) (store : PropertyStore) (bindings : Dict String) :
    Option Descriptor :=
  schema.properties.find? fun d =>
    d.required && (store.get? d.name).isNone && !bindings.contains d.name

/-- Compile the action at a position of its rule. -/
def compile (catalog : Catalog) (index : Nat) (a : ActionDefinition) :
    Except CompileCause CompiledAction := do
  let schema ← match catalog.action? a.type with
    | some schema => .ok schema
    | none => .error (.unknownActionType index a.type)
  a.params.entries.forM (checkParam schema index)
  let store ← match PropertyStore.seeded schema.properties a.literals with
    | .ok store => .ok store
    | .error cause => .error (.invalidParameter index cause)
  match missing? schema store a.bindings with
  | some d => .error (.invalidParameter index (.missingProperty d.name))
  | none => .ok { schema, store, bindings := a.bindings, timeoutMs := a.timeoutMs }

/-- Compile actions that stand from a position on. -/
def compileFrom (catalog : Catalog) (index : Nat) :
    List ActionDefinition → Except CompileCause (List CompiledAction)
  | [] => .ok []
  | a :: rest => do
    let compiled ← a.compile catalog index
    let others ← compileFrom catalog (index + 1) rest
    return compiled :: others

end ActionDefinition

namespace RuleDefinition

/-- Compile a rule up to the first violation. -/
def compileCause (catalog : Catalog) (d : RuleDefinition) :
    Except CompileCause CompiledRule := do
  match d.checkInvariants with
  | .ok () => pure ()
  | .error cause => .error (.invalidDefinition cause)
  let condition ← match d.trigger.compile catalog with
    | .ok condition => .ok condition
    | .error cause => .error (.invalidTrigger cause)
  let actions ← ActionDefinition.compileFrom catalog 0 d.actions
  return { definition := d, condition, actions }

/-- Compile a rule over a catalog. -/
def compile (catalog : Catalog) (d : RuleDefinition) : Except CompileError CompiledRule :=
  match d.compileCause catalog with
  | .ok rule => .ok rule
  | .error cause => .error { rule := d.name, cause }

end RuleDefinition

end Reflex

import Reflex.Json.Selection
import Reflex.Trigger

/-!
# Rules

A rule is a trigger and an ordered list of actions, in the form that users write and that is
stored. A parameter of an action is a literal, or is filled from a field of the event that
triggers the rule.

## Main definitions

- `Reflex.RuleDefinition`, `Reflex.ActionDefinition`, `Reflex.ParamSource`.
- `Reflex.RuleDefinition.checkInvariants`: a name that is not blank, and an action.
- `Reflex.RuleDraft`: a rule that is put together step by step.
- `Reflex.RuleDefinition.toJson`, `Reflex.RuleDefinition.ofJson?`: the stored form and its
  reader.
- `Reflex.RuleDefinition.storedText`, `Reflex.RuleDefinition.ofStoredText?`: the text of the
  stored form and its reader.
-/

namespace Reflex

/-- What to do with an instance of an exclusive rule while another one is pending or running. -/
inductive ConflictPolicy where
  -- Run it after the others.
  | queue
  -- Discard it.
  | drop
  deriving DecidableEq, Repr

/-- The name of a policy. -/
def ConflictPolicy.name : ConflictPolicy → String
  | .queue => "queue"
  | .drop => "drop"

/-- The policy of a name. -/
def ConflictPolicy.ofName? : String → Option ConflictPolicy
  | "queue" => some .queue
  | "drop" => some .drop
  | _ => none

/-- Read a policy. -/
def ConflictPolicy.ofJson? (r : Json.Reading) (j : Json) : Option ConflictPolicy :=
  (Json.choice? r j).bind ofName?

/-- Where a parameter gets its value from. -/
inductive ParamSource where
  -- The field of the triggering event.
  | eventField (field : String)
  -- A literal.
  | literal (value : Literal)

/-- The name of the field that marks a binding. -/
def ParamSource.bindingName : String := "event_field"

/-- The stored form of a source. A literal is stored as it is. -/
def ParamSource.toJson : ParamSource → Json
  | .eventField field => .object [(bindingName, .string field)]
  | .literal value => value.json

/-- Read a source: an object with a text under the name of a binding, given once, is a binding,
and everything else a literal. -/
def ParamSource.ofJson (j : Json) : ParamSource :=
  match j with
  | .object fields =>
    match fields.filter fun e => e.1 == bindingName with
    | [(_, .string field)] => .eventField field
    | _ => .literal (.ofJson j)
  | _ => .literal (.ofJson j)

/-- One step of a rule. -/
structure ActionDefinition where
  /-- The action type. -/
  type : String
  /-- The parameters. -/
  params : Dict ParamSource := .empty
  /-- The deadline in milliseconds, if it differs from the default one. -/
  timeoutMs : Option UInt64 := none

namespace ActionDefinition

/-- The short text of an action: its type and the names of its parameters. -/
def display (a : ActionDefinition) : String :=
  a.type ++ "(" ++ ", ".intercalate a.params.keys ++ ")"

/-- Set a parameter to a literal. -/
def withParam (a : ActionDefinition) (name : String) (value : Literal) : ActionDefinition :=
  { a with params := a.params.insert name (.literal value) }

/-- Fill a parameter from a field of the triggering event. -/
def withBinding (a : ActionDefinition) (name field : String) : ActionDefinition :=
  { a with params := a.params.insert name (.eventField field) }

/-- The parameters that are literals, in order. -/
def literals (a : ActionDefinition) : RawEntries :=
  a.params.entries.filterMap fun
    | (name, .literal value) => some (name, value.json)
    | (_, .eventField _) => none

/-- The event field of a source, if it is a binding. -/
def boundField? : ParamSource → Option String
  | .eventField field => some field
  | .literal _ => none

/-- The parameters that are bound, each with its event field. -/
def bindings (a : ActionDefinition) : Dict String :=
  .ofList (a.params.entries.filterMap fun e => (boundField? e.2).map fun field => (e.1, field))

/-- The stored form. -/
def toJson (a : ActionDefinition) : Json :=
  .object ([("type", .string a.type), ("params", .object (a.params.map ParamSource.toJson).entries)]
    ++ (a.timeoutMs.map fun ms => ("timeout_ms", Json.int ms.toNat)).toList)

/-- The names of the fields of the stored form, in their order. -/
def fieldNames : List String := ["type", "params", "timeout_ms"]

/-- What of the stored form is needed. -/
def selection : Json.Selection :=
  .record (fieldNames.map fun name => (name, .whole))

/-- Read the parameters. -/
def readParams? : Json → Option (Dict ParamSource)
  | .object fields => some (.ofList (fields.map fun e => (e.1, ParamSource.ofJson e.2)))
  | _ => none

/-- Read the stored form. -/
def ofJson? (r : Json.Reading) (j : Json) : Option ActionDefinition := do
  let record ← Json.Record.ofJson? fieldNames r j
  let type ← record.required? "type" Json.asString?
  let params ← record.orElse? "params" .empty readParams?
  let timeoutMs ← record.optional? "timeout_ms" Json.asNatural?
  return { type, params, timeoutMs := timeoutMs.map UInt64.ofNat }

end ActionDefinition

/-- Read a byte. -/
def Identifier.readByte? : Json → Option UInt8
  | .int n => if 0 ≤ n ∧ n < 0x100 then some n.toNat.toUInt8 else none
  | _ => none

/-- Read an identifier: its text, or in settings files also the list of its bytes. What follows
the last byte is ignored. -/
def Identifier.ofJson? (r : Json.Reading) : Json → Option Identifier
  | .string s => read? s
  | .array items =>
    if r.format == .toml && !r.buffered then
      ((items.take 16).mapM readByte?).bind ofBytes?
    else none
  | _ => none

/-- A rule as it is written and stored. -/
structure RuleDefinition where
  /-- The identifier. -/
  id : Identifier
  /-- The name, unique among the stored rules. -/
  name : String
  /-- Whether the rule is active. -/
  enabled : Bool := true
  /-- Whether only one instance may be pending or running at a time. -/
  exclusive : Bool := false
  /-- The policy for conflicts, if it differs from the default one. -/
  onConflict : Option ConflictPolicy := none
  /-- The condition that triggers the rule. -/
  trigger : Trigger
  /-- The actions in order. -/
  actions : List ActionDefinition

namespace RuleDefinition

/-- Refuse a rule with a blank name or without actions. -/
def checkInvariants (d : RuleDefinition) : Except ValidationError Unit :=
  if Text.isBlank d.name then .error .emptyName
  else if d.actions.isEmpty then .error .noActions
  else .ok ()

/-- The stored form. -/
def toJson (d : RuleDefinition) : Json :=
  .object ([("id", .string d.id.text), ("name", .string d.name), ("enabled", .bool d.enabled),
      ("exclusive", .bool d.exclusive)]
    ++ (d.onConflict.map fun p => ("on_conflict", Json.string p.name)).toList
    ++ [("trigger", d.trigger.toJson), ("actions", .array (d.actions.map ActionDefinition.toJson))])

/-- The names of the fields of the stored form, in their order. -/
def fieldNames : List String :=
  ["id", "name", "enabled", "exclusive", "on_conflict", "trigger", "actions"]

/-- What of the stored form is needed. Fields that are unknown to a rule or to one of its actions
are not. -/
def selection : Json.Selection :=
  .record (fieldNames.map fun name =>
    (name, if name = "actions" then .list ActionDefinition.selection else .whole))

/-- Read the actions. -/
def readActions? (r : Json.Reading) : Json → Option (List ActionDefinition)
  | .array items => items.mapM (ActionDefinition.ofJson? r)
  | _ => none

/-- Read the stored form. A rule without an identifier gets the fresh one. -/
def ofJson? (fresh : Identifier) (r : Json.Reading) (j : Json) : Option RuleDefinition := do
  let record ← Json.Record.ofJson? fieldNames r j
  let id ← record.orElse? "id" fresh (Identifier.ofJson? r)
  let name ← record.required? "name" Json.asString?
  let enabled ← record.orElse? "enabled" true Json.asBool?
  let exclusive ← record.orElse? "exclusive" false Json.asBool?
  let onConflict ← record.optional? "on_conflict" (ConflictPolicy.ofJson? r)
  let trigger ← record.required? "trigger" (Trigger.ofJson? r)
  let actions ← record.required? "actions" (readActions? r)
  return { id, name, enabled, exclusive, onConflict, trigger, actions }

/-- The text under which a rule is stored. -/
def storedText (d : RuleDefinition) : String :=
  d.toJson.render

/-- Read the text under which a rule is stored. When the text as a whole is no document, what is
needed of it may still be one. -/
def ofStoredText? (fresh : Identifier) (s : String) : Option RuleDefinition :=
  ((Json.read? s).orElse fun _ => selection.read? s).bind (ofJson? fresh {})

end RuleDefinition

/-- A rule that is put together step by step. What is not given has a default. -/
structure RuleDraft where
  /-- The identifier, if one was given. -/
  id : Option Identifier := none
  /-- The name. -/
  name : String := ""
  /-- Whether the rule is active. -/
  enabled : Bool := true
  /-- Whether only one instance may be pending or running at a time. -/
  exclusive : Bool := false
  /-- The policy for conflicts. -/
  onConflict : Option ConflictPolicy := none
  /-- The condition that triggers the rule. -/
  trigger : Trigger := .always
  /-- The actions so far. -/
  actions : List ActionDefinition := []

namespace RuleDraft

/-- Add an action at the end. -/
def withAction (d : RuleDraft) (a : ActionDefinition) : RuleDraft :=
  { d with actions := d.actions ++ [a] }

/-- The rule as drafted; without an identifier it gets the fresh one. -/
def finish (fresh : Identifier) (d : RuleDraft) : RuleDefinition :=
  { id := d.id.getD fresh, name := d.name, enabled := d.enabled, exclusive := d.exclusive
    onConflict := d.onConflict, trigger := d.trigger, actions := d.actions }

/-- The rule as drafted, if it satisfies the invariants. -/
def build (fresh : Identifier) (d : RuleDraft) : Except ValidationError RuleDefinition := do
  let rule := d.finish fresh
  rule.checkInvariants
  return rule

end RuleDraft

end Reflex

import Reflex.Report
import Reflex.Rule.Compilation
import Reflex.Value.Tagged

/-!
# Documents for Inspection

What tools show of declarations, stores, compiled rules and reports. Values are tagged, and the
fields of every object stand in order.
-/

namespace Reflex

namespace Json

/-- A list of documents. -/
def ofItems {α : Type} (f : α → Json) (items : List α) : Json :=
  .array (items.map f)

/-- A natural number. -/
def ofNat (n : Nat) : Json := .int n

end Json

open Json

/-- A double as text. -/
def Double.toTextJson (d : Double) : Json :=
  .string (Decimal.Layout.plain.text d)

/-- The values of a store at one version. -/
def Snapshot.toJson (s : Snapshot) : Json :=
  ofFields [("version", ofNat s.version), ("values", s.values.toTagged)]

/-- A choice. -/
def Choice.toJson (c : Choice) : Json :=
  ofFields [("label", .string c.label), ("value", .string c.value)]

/-- Constraints; what is not constrained is left out. -/
def Constraints.toJson (c : Constraints) : Json :=
  ofFields ([("non_empty", .bool c.nonEmpty)]
    ++ (c.min.map fun x => ("min", x.toTextJson)).toList
    ++ (c.max.map fun x => ("max", x.toTextJson)).toList
    ++ (if c.choices.isEmpty then [] else [("choices", ofItems Choice.toJson c.choices)]))

/-- The declaration of a property. -/
def Descriptor.toJson (d : Descriptor) : Json :=
  ofFields ([("name", .string d.name), ("description", .string d.description),
      ("type", .string d.type.name), ("subtype", .string d.subtype.name),
      ("required", .bool d.required), ("constraints", d.constraints.toJson)]
    ++ (d.default.map fun v => ("default", v.toTagged)).toList)

/-- The declaration of an action type. -/
def ActionSchema.toJson (s : ActionSchema) : Json :=
  ofFields [("type", .string s.type), ("name", .string s.name),
    ("description", .string s.description), ("summary", ofOption .string s.summary),
    ("properties", ofItems Descriptor.toJson s.properties)]

/-- The declaration of an event kind. -/
def EventSchema.toJson (s : EventSchema) : Json :=
  ofFields [("kind", .string s.kind), ("fields", ofItems Descriptor.toJson s.fields)]

/-- The request to open a selector. -/
def SelectorRequest.toJson (q : SelectorRequest) : Json :=
  ofFields [("selector", .string q.selector.name),
    ("target", ofFields [("rule_id", .string q.rule.text), ("action_index", ofNat q.action),
      ("property", .string q.property)])]

/-- A compiled action. -/
def CompiledAction.toJson (a : CompiledAction) : Json :=
  ofFields [("type", .string a.type), ("store", a.store.snapshot.toJson),
    ("bindings", .object (a.bindings.map Json.string).entries),
    ("timeout_ms", ofOption (fun (ms : UInt64) => ofNat ms.toNat) a.timeoutMs),
    ("summary", ofOption .string a.summary)]

/-- A compiled rule. -/
def CompiledRule.toJson (r : CompiledRule) : Json :=
  ofFields [("name", .string r.name), ("enabled", .bool r.definition.enabled),
    ("exclusive", .bool r.definition.exclusive),
    ("on_conflict", ofOption (fun (p : ConflictPolicy) => .string p.name) r.definition.onConflict),
    ("fields", ofItems .string r.condition.fields),
    ("actions", ofItems CompiledAction.toJson r.actions)]

/-- A parameter of an action with its value and the widget that edits it. -/
def Descriptor.propertyJson (d : Descriptor) (value : Option Value) : Json :=
  ofFields [("name", .string d.name), ("widget", .string d.widget.name),
    ("value", ofOption Value.toTagged value)]

/-- What became of an action. -/
def ActionOutcome.toJson (o : ActionOutcome) : Json :=
  ofFields ([("action_type", .string o.type), ("index", ofNat o.index),
      ("state", .string o.state.name), ("attempts", ofNat o.attempts)]
    ++ (o.error.map fun e => ("error", Json.string e)).toList)

/-- The fields that show a report. -/
def Report.fields (r : Report) : List (String × Json) :=
  [("rule", .string r.ruleName), ("state", .string r.state.name),
    ("display", .string r.state.name), ("terminal", .bool r.state.isTerminal),
    ("started", .bool r.started),
    ("stopped_at", ofOption (fun (o : ActionOutcome) => ofNat o.index) r.stoppedAt?),
    ("actions", ofItems ActionOutcome.toJson r.outcomes)]

end Reflex

import Reflex.Value
import Reflex.Identifier
import Reflex.Json.Record

/-!
# Events

An event is a record of something that happened: its kind, typed fields, and when. Events of the
kinds under `intent.` ask the platform to do something; they never trigger rules.
-/

namespace Reflex

/-- A record of something that happened. -/
structure Event where
  /-- The dotted kind, such as `time.tick`. -/
  kind : String
  /-- The typed fields. -/
  fields : Dict Value := .empty
  deriving DecidableEq

namespace Event

/-- The kind of the events of the minute clock. -/
def timeTick : String := "time.tick"

/-- The kind of the events that are poked in from outside. -/
def debugPoke : String := "debug.poke"

/-- What the kinds of intents start with. -/
def intentStem : String := "intent."

/-- A field, if the event carries it. -/
def field? (e : Event) (name : String) : Option Value :=
  e.fields.get? name

/-- Whether the event asks the platform to do something. -/
def isIntent (e : Event) : Bool :=
  intentStem.toList.isPrefixOf e.kind.toList

/-- The event that asks the platform to perform an action with the given parameters. -/
def intent (actionType : String) (fields : Dict Value) : Event :=
  { kind := intentStem ++ actionType, fields }

end Event

/-- An event with its identifier and its time, as it is recorded. -/
structure RecordedEvent where
  /-- The identifier. -/
  id : Identifier
  /-- The event. -/
  event : Event
  /-- When it happened. -/
  timestamp : Moment
  deriving DecidableEq

namespace RecordedEvent

/-- The recorded form. -/
def toJson (r : RecordedEvent) : Json :=
  .object [
    ("id", .string r.id.text),
    ("kind", .string r.event.kind),
    ("fields", .object (r.event.fields.map Value.toJson).entries),
    ("timestamp", .string r.timestamp.text)]

/-- The names of the fields of the recorded form, in their order. -/
def fieldNames : List String := ["id", "kind", "fields", "timestamp"]

/-- Read the fields of an event. -/
def readFields? : Json → Option (Dict Value)
  | .object fields => do
    let entries ← fields.mapM fun e => (Value.ofJson? e.2).map fun v => (e.1, v)
    return .ofList entries
  | _ => none

/-- Read the recorded form. The fields may be missing. -/
def ofJson? (j : Json) : Option RecordedEvent := do
  let record ← Json.Record.ofJson? fieldNames {} j
  let id ← Identifier.read? (← record.required? "id" Json.asString?)
  let kind ← record.required? "kind" Json.asString?
  let fields ← record.orElse? "fields" .empty readFields?
  let timestamp ← Moment.readOffset? (← record.required? "timestamp" Json.asString?)
  return { id, event := { kind, fields }, timestamp }

end RecordedEvent

end Reflex

import Reflex.Event
import Reflex.PropertyStore

/-!
# Catalogs

A catalog declares which action types and event kinds are known and which properties they have.

## Main definitions

- `Reflex.ActionSchema`, `Reflex.EventSchema`, `Reflex.Catalog`.
- `Reflex.Template.fill`: the text of a summary template over a set of values.
-/

namespace Reflex

namespace Template

/-- The text that a value puts into a template; a blank one is as good as none. -/
def rendering? (values : Dict Value) (name : List Char) : Option (List Char) := do
  let shown := (← values.get? (String.ofList name)).display
  if Text.isBlank shown then none else some shown.toList

/-- Fill a template. Outside a placeholder the text is copied; within one, its name is gathered
in reverse up to the closing brace and replaced by the value of that name. What is put in is
not read again. There is no result when a placeholder is not closed or has no value. -/
def fillFrom (values : Dict Value) : Option (List Char) → List Char → Option (List Char)
  | none, [] => some []
  | some _, [] => none
  | none, c :: rest =>
    if c = '\x7b' then fillFrom values (some []) rest
    else (fillFrom values none rest).map (c :: ·)
  | some name, c :: rest =>
    if c = '\x7d' then do
      let shown ← rendering? values name.reverse
      let filled ← fillFrom values none rest
      return shown ++ filled
    else fillFrom values (some (c :: name)) rest

/-- The text of a template over a set of values. -/
def fill (template : String) (values : Dict Value) : Option String :=
  (fillFrom values none template.toList).map String.ofList

end Template

/-- What is known of an action type. -/
structure ActionSchema where
  /-- The action type. -/
  type : String
  /-- The name shown. -/
  name : String
  /-- What the action does. -/
  description : String := ""
  /-- The parameters. -/
  properties : List Descriptor := []
  /-- The template of its summary. -/
  summary : Option String := none
  deriving DecidableEq

/-- The first declaration of a parameter. -/
def ActionSchema.property? (s : ActionSchema) (name : String) : Option Descriptor :=
  s.properties.find? (·.name == name)

/-- The summary of an action with the given values. -/
def ActionSchema.summarize (s : ActionSchema) (values : Dict Value) : Option String :=
  s.summary.bind fun template => Template.fill template values

/-- What is known of an event kind. -/
structure EventSchema where
  /-- The event kind. -/
  kind : String
  /-- The fields. -/
  fields : List Descriptor := []
  deriving DecidableEq

/-- The first declaration of a field. -/
def EventSchema.field? (s : EventSchema) (name : String) : Option Descriptor :=
  s.fields.find? (·.name == name)

/-- The known action types and event kinds. -/
structure Catalog where
  /-- The actions by type. -/
  actions : Dict ActionSchema := .empty
  /-- The events by kind. -/
  events : Dict EventSchema := .empty
  deriving DecidableEq

namespace Catalog

/-- Declare an action type, in place of an earlier declaration. -/
def registerAction (c : Catalog) (s : ActionSchema) : Catalog :=
  { c with actions := c.actions.insert s.type s }

/-- Declare an event kind, in place of an earlier declaration. -/
def registerEvent (c : Catalog) (s : EventSchema) : Catalog :=
  { c with events := c.events.insert s.kind s }

/-- The declaration of an action type. -/
def action? (c : Catalog) (type : String) : Option ActionSchema :=
  c.actions.get? type

/-- The declaration of an event kind. -/
def event? (c : Catalog) (kind : String) : Option EventSchema :=
  c.events.get? kind

/-- The known action types in order. -/
def actionTypes (c : Catalog) : List String :=
  c.actions.keys

/-- The declaration of a field of an event kind, when the kind is fixed and declares it. -/
def declared? (c : Catalog) (kind : Option String) (field : String) : Option Descriptor := do
  (← c.event? (← kind)).field? field

end Catalog

end Reflex

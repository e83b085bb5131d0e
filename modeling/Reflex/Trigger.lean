import Reflex.Catalog

/-!
# Trigger Expressions

The condition of a rule over an incoming event, as it is written and stored.

## Main definitions

- `Reflex.CompareOp`, `Reflex.Trigger`: operators and expressions.
- `Reflex.Trigger.display`: the short text of an expression.
- `Reflex.Trigger.toJson`, `Reflex.Trigger.ofJson?`: the stored form and its reader.
-/

namespace Reflex

/-- The operator of a comparison. -/
inductive CompareOp where
  -- Equal.
  | eq
  -- Not equal.
  | ne
  -- Less.
  | lt
  -- Less or equal.
  | le
  -- Greater.
  | gt
  -- Greater or equal.
  | ge
  -- Equal to one of a list.
  | within
  -- A text that contains a text.
  | contains
  deriving DecidableEq, Repr

namespace CompareOp

/-- The name of an operator. -/
def name : CompareOp → String
  | .eq => "eq"
  | .ne => "ne"
  | .lt => "lt"
  | .le => "le"
  | .gt => "gt"
  | .ge => "ge"
  | .within => "in"
  | .contains => "contains"

/-- The operator of a name. -/
def ofName? : String → Option CompareOp
  | "eq" => some .eq
  | "ne" => some .ne
  | "lt" => some .lt
  | "le" => some .le
  | "gt" => some .gt
  | "ge" => some .ge
  | "in" => some .within
  | "contains" => some .contains
  | _ => none

/-- Whether the operator asks which of two values is greater. -/
def isOrdering : CompareOp → Bool
  | .lt | .le | .gt | .ge => true
  | _ => false

end CompareOp

/-- A condition over an event. -/
inductive Trigger where
  -- Every event.
  | always
  -- The events of a kind.
  | eventKind (kind : String)
  -- The events that carry a field.
  | exists (field : String)
  -- A comparison of a field with a literal.
  | compare (field : String) (op : CompareOp) (value : Literal)
  -- Every condition holds.
  | all (conditions : List Trigger)
  -- Some condition holds.
  | any (conditions : List Trigger)
  -- The condition does not hold.
  | not (condition : Trigger)
  deriving Inhabited

namespace Trigger

/-- The short text of an expression: of a list of conditions only the number is shown. -/
def display : Trigger → String
  | .always => "always"
  | .eventKind kind => "kind(" ++ kind ++ ")"
  | .exists field => "exists(" ++ field ++ ")"
  | .compare field op value => field ++ " " ++ op.name ++ " " ++ value.render
  | .all conditions => "all(" ++ Decimal.intText conditions.length ++ ")"
  | .any conditions => "any(" ++ Decimal.intText conditions.length ++ ")"
  | .not condition => "not(" ++ condition.display ++ ")"

/-! ## Stored form -/

mutual

/-- The stored form: an object whose `type` names the kind of expression. -/
def toJson : Trigger → Json
  | .always => .object [("type", .string "always")]
  | .eventKind kind => .object [("type", .string "event_kind"), ("kind", .string kind)]
  | .exists field => .object [("type", .string "exists"), ("field", .string field)]
  | .compare field op value =>
    .object [("type", .string "compare"), ("field", .string field), ("op", .string op.name),
      ("value", value.json)]
  | .all conditions =>
    .object [("type", .string "all"), ("conditions", .array (toJsonList conditions))]
  | .any conditions =>
    .object [("type", .string "any"), ("conditions", .array (toJsonList conditions))]
  | .not condition => .object [("type", .string "not"), ("condition", condition.toJson)]

/-- The stored forms of a list of expressions. -/
def toJsonList : List Trigger → List Json
  | [] => []
  | t :: ts => t.toJson :: toJsonList ts

end

/-- The kinds of expressions. -/
inductive Tag where
  -- Every event.
  | always
  -- The events of a kind.
  | eventKind
  -- The events that carry a field.
  | exists
  -- A comparison.
  | compare
  -- Every condition.
  | all
  -- Some condition.
  | any
  -- A negation.
  | not
  deriving DecidableEq, Repr

/-- The tags in their declared order, with their names. -/
def tagNames : List (String × Tag) :=
  [("always", .always), ("event_kind", .eventKind), ("exists", .exists), ("compare", .compare),
    ("all", .all), ("any", .any), ("not", .not)]

/-- The names of the fields that belong to a tag, in their order. -/
def Tag.fieldNames : Tag → List String
  | .always => []
  | .eventKind => ["kind"]
  | .exists => ["field"]
  | .compare => ["field", "op", "value"]
  | .all | .any => ["conditions"]
  | .not => ["condition"]

/-- Read a tag: its name, or in buffered documents also its number. -/
def readTag? (r : Json.Reading) : Json → Option Tag
  | .string name => Dict.lookup name tagNames
  | .int n =>
    if r.buffered && r.format == .json && 0 ≤ n then (tagNames[n.toNat]?).map (·.2) else none
  | _ => none

/-- Split a tagged document into its tag and the document of the tag's fields. In an object the
tag stands in the field `type`, which must not repeat; in a list it comes first. -/
def splitTag? (r : Json.Reading) : Json → Option (Tag × Json)
  | .object fields =>
    match fields.filter fun e => e.1 == "type" with
    | [(_, tag)] =>
      (readTag? r tag).map fun tag => (tag, .object (fields.filter fun e => e.1 != "type"))
    | _ => none
  | .array (tag :: items) => (readTag? r tag).map fun tag => (tag, .array items)
  | _ => none

/-- Read the fields of a comparison. -/
def readCompare? (r : Json.Reading) (record : Json.Record) : Option Trigger := do
  let field ← record.required? "field" Json.asString?
  let op ← record.required? "op" fun j => (Json.choice? r j).bind CompareOp.ofName?
  let value ← record.field? "value"
  return .compare field op (.ofJson value)

mutual

/-- Read the stored form of an expression that nests at most as deep as the fuel. -/
def readTree? (r : Json.Reading) : Nat → Json → Option Trigger
  | 0, _ => none
  | fuel + 1, j => do
    let (tag, content) ← splitTag? r j
    let record ← Json.Record.ofJson? tag.fieldNames r.below content
    match tag with
    | .always => return .always
    | .eventKind => return .eventKind (← record.required? "kind" Json.asString?)
    | .exists => return .exists (← record.required? "field" Json.asString?)
    | .compare => readCompare? r.below record
    | .all => return .all (← record.required? "conditions" (readTrees? r.below fuel))
    | .any => return .any (← record.required? "conditions" (readTrees? r.below fuel))
    | .not => return .not (← record.required? "condition" (readTree? r.below fuel))

/-- Read the stored forms of a list of expressions. -/
def readTrees? (r : Json.Reading) (fuel : Nat) : Json → Option (List Trigger)
  | .array items => items.mapM fun j => readTree? r fuel j
  | _ => none

end

/-- Read the stored form. -/
def ofJson? (r : Json.Reading) (j : Json) : Option Trigger :=
  readTree? r j.depth j

end Trigger

end Reflex

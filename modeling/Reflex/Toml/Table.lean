import Reflex.Json

/-!
# Tables of Settings Files

A settings file is a tree of tables. Headers and dotted keys add to it, and each part of the
tree may be stated only once, so every table remembers how it came about: a header states it, a
longer header implies it, or a dotted key opens it. A name may also stand for a list of tables,
whose last one can still grow.

## Main definitions

- `Reflex.Toml.Node`, `Reflex.Toml.Table`: the tree.
- `Reflex.Toml.Table.state?`, `Reflex.Toml.Table.extend?`: what a header does.
- `Reflex.Toml.Table.assign?`: what a key with a value does.
- `Reflex.Toml.Table.toJson`: the document of a finished tree.
-/

namespace Reflex.Toml

/-- How a table came about. -/
inductive Origin where
  -- A header names the table, or it is the whole file or an element of a list.
  | stated
  -- A header names a table below it.
  | implied
  -- A dotted key passes through it.
  | dotted
  deriving DecidableEq, Repr

/-- What a name of a table stands for. -/
inductive Node where
  -- A value, which can not grow.
  | value (j : Json)
  -- A table with its entries in the order in which they were added.
  | table (origin : Origin) (entries : List (String × Node))
  -- A list of tables: the finished ones and the last one.
  | tables (earlier : List Json) (last : List (String × Node))

/-- The entries of a table; their names differ. -/
abbrev Table := List (String × Node)

/-- A key: the tables it passes through and the name it ends with. -/
structure Key where
  /-- The names of the tables. -/
  path : List String
  /-- The name at the end. -/
  name : String
  deriving DecidableEq, Repr

mutual

/-- The document of a node. -/
def Node.toJson : Node → Json
  | .value j => j
  | .table _ entries => .object (Table.toFields entries)
  | .tables earlier last => .array (earlier ++ [.object (Table.toFields last)])

/-- The documents of the entries of a table. -/
def Table.toFields : Table → List (String × Json)
  | [] => []
  | (name, node) :: entries => (name, Node.toJson node) :: Table.toFields entries

end

namespace Table

/-- The document of a table. -/
def toJson (t : Table) : Json :=
  .object t.toFields

/-- The node of a name. -/
def get? (t : Table) (name : String) : Option Node :=
  (t.find? fun entry => entry.1 == name).map (·.2)

/-- Give a name a node. A new name goes to the end. -/
def put (name : String) (node : Node) : Table → Table
  | [] => [(name, node)]
  | entry :: entries =>
    if entry.1 == name then (name, node) :: entries else entry :: put name node entries

/-- Change the table at the end of a path. A table that is missing on the way is made with the
given origin, a list of tables is entered at its last element, and a value ends the way. Dotted
keys do not enter tables that a header states. -/
def within? (opened : Origin) (change : Origin → Table → Option Table) :
    List String → Origin → Table → Option Table
  | [], origin, t => change origin t
  | name :: path, _, t =>
    match t.get? name with
    | none => do
      let inner ← within? opened change path opened []
      return t.put name (.table opened inner)
    | some (.value _) => none
    | some (.table origin inner) =>
      if opened = .dotted ∧ origin = .stated then none
      else do
        let inner ← within? opened change path origin inner
        return t.put name (.table origin inner)
    | some (.tables earlier last) => do
      let last ← within? opened change path .stated last
      return t.put name (.tables earlier last)

/-- Let a header state the table of a key. Only a table that longer headers imply may be there
already. -/
def state? (key : Key) : Table → Option Table :=
  within? .implied (fun _ t =>
    match t.get? key.name with
    | none => some (t.put key.name (.table .stated []))
    | some (.table .implied inner) => some (t.put key.name (.table .stated inner))
    | some _ => none) key.path .stated

/-- Let a header add an element to the list of tables of a key. -/
def extend? (key : Key) : Table → Option Table :=
  within? .implied (fun _ t =>
    match t.get? key.name with
    | none => some (t.put key.name (.tables [] []))
    | some (.tables earlier last) =>
      some (t.put key.name (.tables (earlier ++ [toJson last]) []))
    | some _ => none) key.path .stated

/-- Give the key its value in a table. The name must be new, and a dotted key must end in a
table that dotted keys opened. -/
def assign? (key : Key) (value : Json) : Table → Option Table :=
  within? .dotted (fun origin t =>
    -- a dotted key does not add to a table that has a header
    if !key.path.isEmpty && origin != .dotted then none
    else if (t.get? key.name).isSome then none
    else some (t.put key.name (.value value))) key.path .stated

/-- Give a key its value in the table at the end of a path of names. -/
def assignBelow? (path : List String) (key : Key) (value : Json) : Table → Option Table :=
  within? .implied (fun _ t => t.assign? key value) path .stated

end Table

end Reflex.Toml

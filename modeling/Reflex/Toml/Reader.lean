import Reflex.Toml.Moment
import Reflex.Toml.Number
import Reflex.Toml.Quoted
import Reflex.Toml.Table

/-!
# Reading Settings Files

The reader of settings files. A file is a sequence of lines: headers of tables, headers of
elements of lists of tables, and keys with their values. Lists and inline tables nest at most 79
deep, and a key has at most 79 parts.

## Main definitions

- `Reflex.Toml.readKey?`, `Reflex.Toml.readValue?`: the parts of a line.
- `Reflex.Toml.Statement`: what a line says, and what it does to the file read so far.
- `Reflex.Toml.read?`: the document of a file.
-/

namespace Reflex.Toml

/-! ## Keys -/

/-- The number of lists and tables that may be open at once, and of the parts of a key. -/
def maxDepth : Nat := 79

/-- Whether a character may stand in a name without quotes. -/
def isNameChar (c : Char) : Bool :=
  c.isAlphanum || c = '_' || c = '-'

/-- Read one part of a key. -/
def readName? (cs : List Char) : Option (String × List Char) :=
  match Quoted.readLine? cs with
  | some read => some read
  | none =>
    let name := cs.takeWhile isNameChar
    if name.isEmpty then none else some (String.ofList name, cs.drop name.length)

/-- Read the parts of a key with the blanks around them. The fuel bounds their number. -/
def readParts? : Nat → List Char → Option (String × List String × List Char)
  | 0, _ => none
  | fuel + 1, cs => do
    let (name, rest) ← readName? (Line.skipBlanks cs)
    match Line.skipBlanks rest with
    | '.' :: rest =>
      let (next, more, rest) ← readParts? fuel rest
      return (name, next :: more, rest)
    | rest => return (name, [], rest)

/-- The key of its parts. -/
def Key.ofParts : String → List String → Key
  | name, [] => ⟨[], name⟩
  | name, next :: more =>
    let key := ofParts next more
    ⟨name :: key.path, key.name⟩

/-- The names of all parts of a key. -/
def Key.parts (key : Key) : List String :=
  key.path ++ [key.name]

/-- Read a key and the blanks around it. -/
def readKey? (cs : List Char) : Option (Key × List Char) := do
  let (first, more, rest) ← readParts? maxDepth cs
  return (.ofParts first more, rest)

/-! ## Values -/

/-- Read a value that holds no other values: a text, a truth value, a date or time, or a
number. -/
def readScalar? : List Char → Option (Json × List Char)
  | 't' :: 'r' :: 'u' :: 'e' :: rest => some (.bool true, rest)
  | 'f' :: 'a' :: 'l' :: 's' :: 'e' :: rest => some (.bool false, rest)
  | cs =>
    match Quoted.read? cs with
    | some (content, rest) => some (.string content, rest)
    | none =>
      match Moment.read? cs with
      | some read => some read
      | none => Number.read? cs

mutual

/-- Read a value. The depth is the number of lists and inline tables that may still be opened;
the fuel bounds the number of steps. -/
def readValue? : Nat → Nat → List Char → Option (Json × List Char)
  | 0, _, _ => none
  | fuel + 1, depth, cs =>
    match cs with
    | '[' :: rest =>
      if depth = 0 then none
      else do
        let (items, rest) ← readItems? fuel (depth - 1) rest
        return (.array items, rest)
    | '\x7b' :: rest =>
      if depth = 0 then none
      else
        match Line.skipBlanks rest with
        | '\x7d' :: rest => some (.object [], rest)
        | rest => do
          let (t, rest) ← readEntries? fuel (depth - 1) [] rest
          return (t.toJson, rest)
    | cs => readScalar? cs

/-- Read the items of a list up to its end. Blanks, comments and line feeds may stand between
them, and a comma after the last. -/
def readItems? : Nat → Nat → List Char → Option (List Json × List Char)
  | 0, _, _ => none
  | fuel + 1, depth, cs =>
    match Line.skipLines false cs with
    | ']' :: rest => some ([], rest)
    | cs => do
      let (item, rest) ← readValue? fuel depth cs
      match Line.skipLines false rest with
      | ',' :: rest =>
        let (items, rest) ← readItems? fuel depth rest
        return (item :: items, rest)
      | ']' :: rest => return ([item], rest)
      | _ => none

/-- Read the entries of an inline table up to its end. They stand on one line, and no comma
follows the last. -/
def readEntries? : Nat → Nat → Table → List Char → Option (Table × List Char)
  | 0, _, _, _ => none
  | fuel + 1, depth, t, cs => do
    let (key, rest) ← readKey? cs
    let rest ← Text.Scan.char? '=' rest
    let (value, rest) ← readValue? fuel depth (Line.skipBlanks rest)
    let t ← t.assign? key value
    match Line.skipBlanks rest with
    | ',' :: rest => readEntries? fuel depth t rest
    | '\x7d' :: rest => return (t, rest)
    | _ => none

end

/-! ## Files -/

/-- What a line says. -/
inductive Statement where
  -- Nothing.
  | blank
  -- The lines that follow are about a table.
  | table (key : Key)
  -- The lines that follow are about a new element of a list of tables.
  | element (key : Key)
  -- A key of the current table has a value.
  | entry (key : Key) (value : Json)

/-- Read a line without its end. Every step into a value takes a character or is the last one
on its level, so twice the length bounds their number. -/
def readStatement? (cs : List Char) : Option (Statement × List Char) :=
  match Line.skipBlanks cs with
  | [] => some (.blank, [])
  | '[' :: '[' :: rest => do
    let (key, rest) ← readKey? rest
    let rest ← Text.Scan.char? ']' rest
    let rest ← Text.Scan.char? ']' rest
    return (.element key, rest)
  | '[' :: rest => do
    let (key, rest) ← readKey? rest
    return (.table key, ← Text.Scan.char? ']' rest)
  | c :: rest =>
    if c = '#' || c = '\n' || c = '\r' then some (.blank, c :: rest)
    else do
      let (key, rest) ← readKey? (c :: rest)
      let rest ← Text.Scan.char? '=' rest
      let (value, rest) ← readValue? (2 * rest.length + 2) maxDepth (Line.skipBlanks rest)
      return (.entry key value, rest)

/-- A file that has been read up to some line. -/
structure Draft where
  /-- The tree so far. -/
  root : Table := []
  /-- The names that lead to the current table. -/
  current : List String := []

/-- Take a line into a file. -/
def Draft.add? (d : Draft) : Statement → Option Draft
  | .blank => some d
  | .table key => (d.root.state? key).map fun root => ⟨root, key.parts⟩
  | .element key => (d.root.extend? key).map fun root => ⟨root, key.parts⟩
  | .entry key value =>
    (d.root.assignBelow? d.current key value).map fun root => { d with root }

/-- Take all lines of a text into a file. The fuel bounds their number. -/
def Draft.read? : Nat → Draft → List Char → Option Draft
  | 0, _, _ => none
  | _, d, [] => some d
  | fuel + 1, d, cs => do
    let (statement, rest) ← readStatement? cs
    let d ← d.add? statement
    read? fuel d (← Line.finish? rest)

/-- Drop a mark of the byte order at the start. -/
def skipByteOrderMark : List Char → List Char
  | '\uFEFF' :: rest => rest
  | cs => cs

/-- The document of a settings file. Every line but the last takes a character. -/
def read? (s : String) : Option Json := do
  let cs := skipByteOrderMark s.toList
  let d ← Draft.read? (cs.length + 1) {} cs
  return d.root.toJson

end Reflex.Toml

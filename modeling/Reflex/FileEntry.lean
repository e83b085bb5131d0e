/-!
# Files and Directories

What stands under a name in a directory, and why it can fail to be used. A path is a list of names
between slashes that leads from a directory to another place. Empty names and `.` stay where they
are, `..` leads to the surrounding directory, and only a directory can be passed through. What
lies outside the outermost directory is not known, and is taken for empty.

## Main definitions

- `Reflex.FileEntry`: a file or a directory.
- `Reflex.FileEntry.find`: what a path leads to.
- `Reflex.FileEntry.ofPaths?`: the directory of files and directories given by their paths.
- `Reflex.FileEntry.text?`: the text of a file.
-/

namespace Reflex

/-- What stands under a name in a directory. -/
inductive FileEntry where
  -- A file with its content.
  | file (content : ByteArray)
  -- A directory with its entries.
  | directory (entries : List (String × FileEntry))

/-- Why a file or a directory can not be used. -/
inductive FileFault where
  -- It can not be read.
  | unreadable
  -- The text of the file is not what the file should hold.
  | malformed
  deriving DecidableEq, Repr

/-- Why a path leads nowhere. -/
inductive PathFault where
  -- A directory on the way has no entry of the name.
  | missing
  -- What is passed through is no directory, or what stands there is no name.
  | blocked
  deriving DecidableEq, Repr

namespace FileEntry

/-! ## Paths -/

/-- The names in a path. -/
def namesOf (path : String) : List String :=
  (path.toList.splitOn '/').map String.ofList

/-- Whether a name leads to where it stands. -/
def isStay (name : String) : Bool :=
  name == "" || name == "."

/-- The name of what a path leads to. There is none for a path that ends by leaving a
directory. -/
def lastName? (path : String) : Option String :=
  match ((namesOf path).filter fun name => !isStay name).getLast? with
  | some ".." | none => none
  | some name => some name

/-- The greatest number of bytes of a name. -/
def longestName : Nat := 255

/-- Why an entry of a name is not there. -/
def absence (name : String) : PathFault :=
  if longestName < name.utf8ByteSize then .blocked else .missing

/-- What a list of names leads to. The directories around the present place are given, the
nearest one first. -/
def descend (around : List FileEntry) (entry : FileEntry) :
    List String → Except PathFault FileEntry
  | [] => .ok entry
  | name :: names =>
    match entry with
    | .file _ => .error .blocked
    | .directory entries =>
      if isStay name then descend around entry names
      else if name = ".." then
        match around with
        | outer :: around => descend around outer names
        | [] => descend [] (.directory []) names
      else
        match entries.find? fun e => e.1 == name with
        | some e => descend (entry :: around) e.2 names
        | none => .error (absence name)

/-- What a path leads to. A path that begins with a slash begins outside, and one with a null
character leads nowhere. -/
def find (path : String) (entry : FileEntry) : Except PathFault FileEntry :=
  if path.toList.contains '\x00' then .error .blocked
  else if path.toList.head? == some '/' then descend [] (.directory []) (namesOf path)
  else entry.descend [] (namesOf path)

/-! ## Making directories -/

/-- The names of a path without detours, if it does not lead outside. -/
def straighten? : List String → List String → Option (List String)
  | around, [] => some around.reverse
  | around, name :: names =>
    if isStay name then straighten? around names
    else if name = ".." then
      match around with
      | _ :: around => straighten? around names
      | [] => none
    else straighten? (name :: around) names

/-- Put an entry at a place, where there may be something already: a file takes the place of a
file, and a directory that is there stays. Directories on the way are made. -/
def put? (entry : FileEntry) : List String → Option FileEntry → Option FileEntry
  | [], none => some entry
  | [], some (.file _) =>
    match entry with
    | .file _ => some entry
    | .directory _ => none
  | [], some (.directory entries) =>
    match entry with
    | .file _ => none
    | .directory _ => some (.directory entries)
  | name :: names, none =>
    (put? entry names none).map fun inner => .directory [(name, inner)]
  | _ :: _, some (.file _) => none
  | name :: names, some (.directory entries) =>
    (put? entry names ((entries.find? fun e => e.1 == name).map (·.2))).map fun inner =>
      .directory ((name, inner) :: entries.filter fun e => e.1 != name)

/-- The directory that holds files, and directories without entries, at their paths. There is
none if one of them stands in the way of another one. -/
def ofPaths? (entries : List (String × FileEntry)) : Option FileEntry :=
  entries.foldlM (fun root e => do
    let names ← straighten? [] (namesOf e.1)
    put? e.2 names (some root)) (.directory [])

/-! ## Files -/

/-- The text of a file. Directories and contents that are no text have none. -/
def text? : FileEntry → Option String
  | .file content => String.fromUTF8? content
  | .directory _ => none

/-- Whether this is a file. -/
def isFile : FileEntry → Bool
  | .file _ => true
  | .directory _ => false

end FileEntry

end Reflex

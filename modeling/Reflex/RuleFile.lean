import Reflex.Dict
import Reflex.FileEntry
import Reflex.Rule
import Reflex.Toml.Reader

/-!
# Rule Files

A rule file holds one rule in the form of a settings file. The rule files of a directory are
the files whose extension is `toml`, in the order of their names; each is read for itself, so a
broken file does not keep the others back.

## Main definitions

- `Reflex.RuleFile.read`: the rule of a file.
- `Reflex.RuleFile.list`: the rule files of a directory.
-/

namespace Reflex.RuleFile

/-- The end of the names of rule files. -/
def extension : List Char := ".toml".toList

/-- Whether a name is that of a rule file: something must stand before the extension. -/
def isName (name : String) : Bool :=
  extension.isSuffixOf name.toList && name.toList != extension

/-- Read the rule of a text. A rule without an identifier gets the fresh one. -/
def ofText? (fresh : Identifier) (s : String) : Option RuleDefinition :=
  (Toml.read? s).bind (RuleDefinition.ofJson? fresh { format := .toml })

/-- Read the rule of what a path leads to. -/
def read (fresh : Identifier) (entry : Except PathFault FileEntry) :
    Except FileFault RuleDefinition :=
  match entry.toOption.bind FileEntry.text? with
  | none => .error .unreadable
  | some s =>
    match ofText? fresh s with
    | none => .error .malformed
    | some d => .ok d

/-- The rule files among the entries of a directory, in the order of their names. -/
def select (entries : List (String × FileEntry)) : List (String × FileEntry) :=
  (Dict.ofList entries).toList.filter fun (name, entry) => isName name && entry.isFile

/-- The rule files of the directory that a path leads to. A directory that is not there has
none. -/
def list : Except PathFault FileEntry → Except FileFault (List (String × FileEntry))
  | .error .missing => .ok []
  | .ok (.directory entries) => .ok (select entries)
  | .error .blocked | .ok (.file _) => .error .unreadable

end Reflex.RuleFile

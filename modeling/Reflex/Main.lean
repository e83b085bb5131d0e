import Reflex.Builtin.Catalog
import Reflex.Configuration
import Reflex.Inspection
import Reflex.RuleFile

/-!
# Command Line

Checks a file that comes on the standard input. `rule` reads a rule file, compiles it against
the built-in catalog and shows the compiled rule; `config` reads a configuration file and shows
the settings in the environment. The exit code says whether the file is in order.
-/

namespace Reflex.CommandLine

/-- The compiled form of the rule of a file, or what is wrong with it. -/
def checkRule (fresh : Identifier) (file : FileEntry) : Except String Json :=
  match RuleFile.read fresh (.ok file) with
  | .error .unreadable => .error "failed to read rule file"
  | .error .malformed => .error "failed to parse rule file"
  | .ok d =>
    match d.compile Builtin.catalog with
    | .error e => .error e.message
    | .ok rule => .ok rule.toJson

/-- The settings of a file in an environment, or what is wrong with them. -/
def checkConfiguration (lookup : String → Option String) (file : FileEntry) :
    Except String Json :=
  match Configuration.load (some file) lookup with
  | .error e => .error e.message
  | .ok c => .ok c.toJson

/-- Read a stream up to its end. -/
partial def readAll (input : IO.FS.Stream) (content : ByteArray) : IO ByteArray := do
  let chunk ← input.read 65536
  if chunk.isEmpty then return content else readAll input (content ++ chunk)

/-- An identifier at random. -/
def randomIdentifier : IO Identifier := do
  let high ← IO.rand 0 (Word.size - 1)
  let low ← IO.rand 0 (Word.size - 1)
  let value := (high * Word.size + low) % 0x100000000000000000000000000000000
  return { value }

/-- The variables of the environment that matter, with their values. -/
def environment : IO (List (String × String)) :=
  Configuration.variableNames.filterMapM fun name => do
    return (← IO.getEnv name).map fun value => (name, value)

/-- Show the outcome of a check and choose the exit code. -/
def finish (outcome : Except String Json) : IO UInt32 := do
  match outcome with
  | .ok j =>
    IO.println j.render
    return 0
  | .error message =>
    IO.eprintln message
    return 1

/-- Check the file on the standard input as the first argument says. -/
def run (arguments : List String) : IO UInt32 := do
  match arguments with
  | ["rule"] =>
    let file := FileEntry.file (← readAll (← IO.getStdin) .empty)
    finish (checkRule (← randomIdentifier) file)
  | ["config"] =>
    let file := FileEntry.file (← readAll (← IO.getStdin) .empty)
    let values ← environment
    finish (checkConfiguration (fun name => Dict.lookup name values) file)
  | _ =>
    IO.eprintln "usage: reflex rule|config < FILE"
    return 2

end Reflex.CommandLine

/-- Run the command line. -/
def main (arguments : List String) : IO UInt32 :=
  Reflex.CommandLine.run arguments

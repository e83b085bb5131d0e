import Reflex.Dict
import Reflex.FileEntry
import Reflex.Scheduler
import Reflex.Toml.Reader

/-!
# Configuration

The settings of the program. Each has a default, so the configuration file may be missing or
partial; variables of the environment override what the file says.

## Main definitions

- `Reflex.Configuration`: the settings.
- `Reflex.Configuration.ofText?`: the settings of a file.
- `Reflex.Configuration.override`: the settings in an environment.
- `Reflex.Configuration.load`: both, and a check of the result.
-/

namespace Reflex

/-- The settings of the program. -/
structure Configuration where
  /-- Where the rules are stored. -/
  databaseUrl : String := "sqlite:phonebot.db?mode=rwc"
  /-- What is logged. -/
  logFilter : String := "phonebotd=info,phonebot_app=info,phonebot_adapter_builtin=info"
  /-- The directory of the rule files. -/
  rulesDirectory : String := "rules"
  /-- The deadline in milliseconds of actions that declare none; zero stands for no deadline. -/
  defaultTimeoutMs : Nat := 30000
  /-- The conflict policy of exclusive rules that declare none. -/
  conflictPolicy : ConflictPolicy := .queue
  /-- How many events wait for each listener. -/
  busCapacity : Nat := 256
  /-- Whether a tick is published every minute. -/
  clockEnabled : Bool := true
  /-- Whether a signal publishes a poke. -/
  pokeOnSignal : Bool := true
  /-- The path of the pokes of signals. -/
  pokePath : String := "/"
  deriving DecidableEq, Repr

/-- Why there is no configuration. -/
inductive ConfigurationError where
  -- The file can not be used.
  | file (fault : FileFault)
  -- The place of the rules is blank.
  | blankDatabaseUrl
  -- No event could wait for a listener.
  | noBusCapacity
  deriving DecidableEq, Repr

/-- The text of an error. -/
def ConfigurationError.message : ConfigurationError → String
  | .file .unreadable => "failed to read config file"
  | .file .malformed => "failed to parse config file"
  | .blankDatabaseUrl => "invalid configuration: database url must not be empty"
  | .noBusCapacity => "invalid configuration: event bus capacity must be non-zero"

namespace Configuration

/-! ## The file -/

/-- How the file is read. -/
def reading : Json.Reading := { format := .toml }

/-- Read a section with the given settings into a configuration. -/
def withFields? (names : List String) (read : Json.Record → Option Configuration) (j : Json) :
    Option Configuration :=
  (Json.Record.ofJson? names reading j).bind read

/-- Read the section about the stored rules. -/
def readDatabase? (c : Configuration) : Json → Option Configuration :=
  withFields? ["url"] fun record => do
    return { c with databaseUrl := ← record.orElse? "url" c.databaseUrl Json.asString? }

/-- Read the section about the log. -/
def readLogging? (c : Configuration) : Json → Option Configuration :=
  withFields? ["filter"] fun record => do
    return { c with logFilter := ← record.orElse? "filter" c.logFilter Json.asString? }

/-- Read the section about the rule files. -/
def readRules? (c : Configuration) : Json → Option Configuration :=
  withFields? ["dir"] fun record => do
    return { c with rulesDirectory := ← record.orElse? "dir" c.rulesDirectory Json.asString? }

/-- Read the section about the runs of rules. -/
def readScheduler? (c : Configuration) : Json → Option Configuration :=
  withFields? ["default_action_timeout_ms", "exclusive_policy", "event_bus_capacity"] fun record =>
    do
      let defaultTimeoutMs ←
        record.orElse? "default_action_timeout_ms" c.defaultTimeoutMs Json.asNatural?
      let conflictPolicy ←
        record.orElse? "exclusive_policy" c.conflictPolicy (ConflictPolicy.ofJson? reading)
      let busCapacity ← record.orElse? "event_bus_capacity" c.busCapacity Json.asNatural?
      return { c with defaultTimeoutMs, conflictPolicy, busCapacity }

/-- Read the section about the clock. -/
def readClock? (c : Configuration) : Json → Option Configuration :=
  withFields? ["enabled"] fun record => do
    return { c with clockEnabled := ← record.orElse? "enabled" c.clockEnabled Json.asBool? }

/-- Read the section about pokes. -/
def readDebug? (c : Configuration) : Json → Option Configuration :=
  withFields? ["poke_on_signal", "poke_path"] fun record => do
    let pokeOnSignal ← record.orElse? "poke_on_signal" c.pokeOnSignal Json.asBool?
    let pokePath ← record.orElse? "poke_path" c.pokePath Json.asString?
    return { c with pokeOnSignal, pokePath }

/-- The sections of the file with their readers. -/
def sections : List (String × (Configuration → Json → Option Configuration)) :=
  [("database", readDatabase?), ("logging", readLogging?), ("rules", readRules?),
    ("scheduler", readScheduler?), ("clock", readClock?), ("debug", readDebug?)]

/-- Read the settings of a document. Other sections are passed over. -/
def ofJson? (j : Json) : Option Configuration := do
  let record ← Json.Record.ofJson? (sections.map (·.1)) reading j
  sections.foldlM (fun c (name, read) => record.orElse? name c (read c)) {}

/-- Read the settings of a text. -/
def ofText? (s : String) : Option Configuration :=
  (Toml.read? s).bind ofJson?

/-- The settings of a file. A file that is not there leaves the defaults. -/
def ofFile : Option FileEntry → Except FileFault Configuration
  | none => .ok {}
  | some entry =>
    match entry.text? with
    | none => .error .unreadable
    | some s =>
      match ofText? s with
      | none => .error .malformed
      | some c => .ok c

/-! ## The environment -/

/-- The variables of the environment that matter. -/
def variableNames : List String :=
  ["PHONEBOT_DATABASE_URL", "PHONEBOT_RULES_DIR", "PHONEBOT_LOG", "RUST_LOG"]

/-- The settings in an environment, given by its variables. The more general of the two
variables for the log has the last word. -/
def override (lookup : String → Option String) (c : Configuration) : Configuration :=
  { c with
    databaseUrl := (lookup "PHONEBOT_DATABASE_URL").getD c.databaseUrl
    rulesDirectory := (lookup "PHONEBOT_RULES_DIR").getD c.rulesDirectory
    logFilter := ((lookup "RUST_LOG").or (lookup "PHONEBOT_LOG")).getD c.logFilter }

/-! ## Use -/

/-- Refuse settings that nothing could run with. -/
def validate (c : Configuration) : Except ConfigurationError Unit :=
  if Text.isBlank c.databaseUrl then .error .blankDatabaseUrl
  else if c.busCapacity = 0 then .error .noBusCapacity
  else .ok ()

/-- The settings of a file in an environment. -/
def load (file : Option FileEntry) (lookup : String → Option String) :
    Except ConfigurationError Configuration :=
  match ofFile file with
  | .error fault => .error (.file fault)
  | .ok c => do
    let c := c.override lookup
    validate c
    return c

/-- The settings of the scheduler. -/
def scheduler (c : Configuration) : Scheduler.Settings where
  defaultTimeoutMs := if c.defaultTimeoutMs = 0 then none else some c.defaultTimeoutMs
  conflictPolicy := c.conflictPolicy

/-- How many reports wait for each listener. -/
def reportCapacity : Nat := 64

/-- The settings as a document. -/
def toJson (c : Configuration) : Json :=
  .object [("database_url", .string c.databaseUrl), ("filter", .string c.logFilter),
    ("rules_dir", .string c.rulesDirectory), ("default_action_timeout_ms", .int c.defaultTimeoutMs),
    ("exclusive_policy", .string c.conflictPolicy.name), ("event_bus_capacity", .int c.busCapacity),
    ("clock", .bool c.clockEnabled), ("poke_on_signal", .bool c.pokeOnSignal),
    ("poke_path", .string c.pokePath),
    ("scheduler", .object [
      ("timeout_ms", match c.scheduler.defaultTimeoutMs with
        | some ms => .int ms
        | none => .null),
      ("policy", .string c.scheduler.conflictPolicy.name),
      ("report_capacity", .int reportCapacity)])]

end Configuration

end Reflex

import Reflex.Activity
import Reflex.Builtin.Catalog

/-!
# Performing Built-in Actions

Log entries and pauses are made here. The other actions belong to the platform: they publish an
intent that carries their parameters.

## Main definitions

- `Reflex.Builtin.perform`: what an invoked action does.
-/

namespace Reflex.Builtin

/-- The actions that belong to the platform. -/
def platformTypes : List String :=
  [launchApplication, openUrl, setProfile, notify, wlanSwitch, dataSwitch].map (·.type)

/-- The activity that ends as an earlier step decides, or else goes on. -/
def thenDo {α : Type} (step : Except ActionError α) (next : α → Activity) : Activity :=
  match step with
  | .ok a => next a
  | .error e => .finish (.error e)

/-- Write the message at the given level. -/
def performLog (call : Invocation) : Activity :=
  thenDo (call.require "message") fun message =>
    let level := ((call.parameters.get? "level").bind Value.asText?).getD "info"
    .write (.ofName level) message.display (.finish .completed)

/-- The nanoseconds of a value as a number of seconds; what is no number counts as zero. -/
def pauseNanos? (value : Value) : Option Nat :=
  Duration.ofSeconds? (value.asDouble?.getD (.zero false))

/-- Pause for the given number of seconds. -/
def performDelay (call : Invocation) : Activity :=
  thenDo (call.require "seconds") fun seconds =>
    match pauseNanos? seconds with
    | some nanos => .sleep nanos (.finish .completed)
    | none => .finish (.error (.invalidParameter (.notFinite "seconds")))

/-- What an invoked action does. -/
def perform (call : Invocation) : Activity :=
  .check <|
    if call.type = log.type then performLog call
    else if call.type = delay.type then performDelay call
    else if platformTypes.contains call.type then
      .publish call.type (.intent call.type call.parameters) (.finish .completed)
    else .finish (.error (.unknownAction call.type))

end Reflex.Builtin

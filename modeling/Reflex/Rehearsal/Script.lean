import Reflex.Builtin.Performance

/-!
# Scripts

In a rehearsal the actions may be played by a script, which tells for each action type what to
do, instruction by instruction.

## Main definitions

- `Reflex.Rehearsal.Instruction`, `Reflex.Rehearsal.Script`.
- `Reflex.Rehearsal.Script.perform`: what an invoked action does.
-/

namespace Reflex.Rehearsal

/-- An instruction of a script. -/
inductive Instruction where
  -- Pause for a number of milliseconds, unless asked to stop.
  | sleep (ms : Nat)
  -- Work for a number of milliseconds without noticing anything.
  | work (ms : Nat)
  -- End as cancelled if asked to stop.
  | check
  -- Wait until asked to stop.
  | awaitAsked
  -- End well unless asked to stop.
  | ifAsked
  -- Pause for as many seconds as a parameter says, which must be there.
  | sleepFor (parameter : String)
  -- End with an error if a parameter is missing.
  | require (parameter : String)
  -- Fail for a reason.
  | fail (reason : String)
  -- Fail the given number of times before going on.
  | failFirst (times : Nat)
  -- Crash with a message.
  | crash (message : String)
  -- End as cancelled.
  | cancelled
  deriving DecidableEq, Repr

/-- The activity of an instruction, given the one of what follows. -/
def Instruction.before (call : Invocation) (next : Activity) : Instruction → Activity
  | .sleep ms => .sleep (ms * 1000000) next
  | .work ms => .work ms next
  | .check => .check next
  | .awaitAsked => .awaitAsked next
  | .ifAsked => .ifAsked next
  | .sleepFor parameter =>
    Builtin.thenDo (call.require parameter) fun value =>
      .sleep ((Builtin.pauseNanos? value).getD 0) next
  | .require parameter => Builtin.thenDo (call.require parameter) fun _ => next
  | .fail reason => .finish (.error (.failed call.type reason))
  | .failFirst times =>
    if call.attempt ≤ times then .finish (.error (.failed call.type "not yet")) else next
  | .crash message => .finish (.crashed message)
  | .cancelled => .finish (.error .cancelled)

/-- Read an instruction: its name, and its argument if it has one. -/
def Instruction.ofParts? (name : String) (argument : Json) : Option Instruction :=
  match name with
  | "sleep" => argument.asNatural?.map .sleep
  | "busy" => argument.asNatural?.map .work
  | "check" => some .check
  | "until_cancelled" => some .awaitAsked
  | "if_cancelled" => some .ifAsked
  | "sleep_for" => argument.asString?.map .sleepFor
  | "require" => argument.asString?.map .require
  | "fail" => argument.asString?.map .fail
  | "fail_first" => argument.asNatural?.map .failFirst
  | "panic" => argument.asString?.map .crash
  | "cancelled" => some .cancelled
  | _ => none

/-- Read an instruction from a list of its name and its argument. -/
def Instruction.ofJson? : Json → Option Instruction
  | .array [.string name] => ofParts? name .null
  | .array (.string name :: argument :: _) => ofParts? name argument
  | _ => none

/-- Read a list of instructions. -/
def Instruction.listOfJson? : Json → Option (List Instruction)
  | .array items => items.mapM ofJson?
  | _ => none

/-- The instructions for each action type. -/
abbrev Script := Dict (List Instruction)

/-- Read a script from an object with the instructions for each action type. -/
def Script.ofJson? : Json → Option Script
  | .object fields => do
    return .ofList (← fields.mapM fun e => do return (e.1, ← Instruction.listOfJson? e.2))
  | _ => none

/-- What an invoked action does. Actions without instructions have nobody who plays them. -/
def Script.perform (script : Script) (call : Invocation) : Activity :=
  match Dict.get? script call.type with
  | some instructions =>
    instructions.foldr (fun i next => i.before call next) (.finish .completed)
  | none => .finish (.error (.unknownAction call.type))

end Reflex.Rehearsal

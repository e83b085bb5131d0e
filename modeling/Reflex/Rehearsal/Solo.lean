import Reflex.Builtin.Performance

/-!
# Single Actions in Simulated Time

One built-in action, performed alone from time zero on and possibly asked to stop at a given
time.

## Main definitions

- `Reflex.Rehearsal.Solo.perform`.
-/

namespace Reflex.Rehearsal

/-- How a single action went. -/
structure Solo where
  /-- How it ended. -/
  result : InvocationResult
  /-- When it ended, in milliseconds. -/
  time : Nat
  /-- The published events with their times. -/
  published : List (Nat × Event) := []
  /-- The log entries. -/
  written : List (LogLevel × String) := []

namespace Solo

/-- Add what an activity left behind at a time before all else. -/
def withTrace (time : Nat) (trace : Trace) (s : Solo) : Solo :=
  match trace with
  | .written level message => { s with written := (level, message) :: s.written }
  | .published e => { s with published := (time, e) :: s.published }

/-- The next time at which something happens to a waiting activity. -/
def nextTime? (now : Nat) (wake cancelAt : Option Nat) : Option Nat :=
  match wake, cancelAt.filter (now < ·) with
  | some a, some b => some (min a b)
  | some a, none => some a
  | none, b => b

/-- Carry an activity on; the fuel bounds the number of its pauses. -/
def runFrom (refusal : Event → Option Failure) (cancelAt : Option Nat) :
    Nat → Nat → Activity → Solo
  | 0, now, _ => { result := .error .cancelled, time := now }
  | fuel + 1, now, a =>
    let (progress, traces) := a.advance { now, asked := cancelAt.any (· ≤ now), refusal }
    let rest : Solo := match progress with
      | .ended result => { result, time := now }
      | .waiting rest wake =>
        match nextTime? now wake cancelAt with
        | some time => runFrom refusal cancelAt fuel time rest
        | none => { result := .error .cancelled, time := now }
    traces.foldr (withTrace now) rest

/-- A built-in action pauses at most once, and may be asked to stop in between. -/
def pauses : Nat := 3

/-- Perform a built-in action. -/
def perform (refuses : Bool) (cancelAt : Option Nat) (call : Invocation) : Solo :=
  let refusal (e : Event) : Option Failure :=
    if refuses then some (.notFound { entity := "Bus", id := e.kind }) else none
  runFrom refusal cancelAt pauses 0 (Builtin.perform call)

end Solo

end Reflex.Rehearsal

import Reflex.Property.Validation

/-!
# Errors of Actions

How the invocation of an action can end other than well, with the text that reports carry.
-/

namespace Reflex

/-- Why an action did not complete. -/
inductive ActionError where
  -- It saw that its cancellation was requested.
  | cancelled
  -- Nothing performs actions of the type.
  | unknownAction (type : String)
  -- A parameter is missing or unusable.
  | invalidParameter (cause : ValidationError)
  -- Its effect failed, for the reason given as text.
  | failed (type : String) (reason : String)
  deriving DecidableEq

/-- The text of the error. -/
def ActionError.message : ActionError → String
  | .cancelled => "action cancelled"
  | .unknownAction type => "no executor for action type `" ++ type ++ "`"
  | .invalidParameter cause => "invalid action parameter: " ++ cause.message
  | .failed type reason => "action `" ++ type ++ "` failed: " ++ reason

/-- How an invocation ends. -/
inductive InvocationResult where
  -- Well.
  | completed
  -- With an error.
  | error (e : ActionError)
  -- With a crash of the action itself, which leaves a message.
  | crashed (message : String)
  deriving DecidableEq

end Reflex

import Reflex.Property.Validation

/-!
# Failures of Requests

What a request to the rule base can be refused for, with the text shown to the user.
-/

namespace Reflex

/-- Why the table of stored rules refuses a request. -/
inductive StorageFault where
  -- The name belongs to another stored rule.
  | nameTaken
  -- The identifier belongs to a stored rule.
  | idTaken
  -- A row holds no readable rule.
  | unreadable
  deriving DecidableEq, Repr

/-- The text of a fault. -/
def StorageFault.message : StorageFault → String
  | .nameTaken => "database error: UNIQUE constraint failed: rules.name"
  | .idTaken => "database error: UNIQUE constraint failed: rules.id"
  | .unreadable => "database error"

/-- Something that was looked up and is not there. -/
structure Missing where
  /-- What was looked up. -/
  entity : String
  /-- Under which identifier. -/
  id : String
  deriving DecidableEq, Repr

/-- The text of a failed look-up. -/
def Missing.message (m : Missing) : String :=
  m.entity ++ " `" ++ m.id ++ "` not found"

/-- Why a request is refused. -/
inductive Failure where
  -- A value or a definition breaks a declaration.
  | validation (cause : ValidationError)
  -- Something is not there.
  | notFound (missing : Missing)
  -- The table of stored rules refuses.
  | storage (fault : StorageFault)
  deriving DecidableEq

/-- The text of a failure. -/
def Failure.message : Failure → String
  | .validation cause => "validation error: " ++ cause.message
  | .notFound missing => "not found: " ++ missing.message
  | .storage fault => "storage error: " ++ fault.message

/-- A validation as part of a request. -/
def Failure.ofValidation {α : Type} : Except ValidationError α → Except Failure α
  | .ok a => .ok a
  | .error cause => .error (.validation cause)

end Reflex

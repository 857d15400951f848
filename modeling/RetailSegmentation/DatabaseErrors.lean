import Mathlib.Tactic.Common

/-! What PostgreSQL refuses a statement with, and what ends a transaction from outside it. -/

namespace RetailSegmentation

inductive DataErrorKind where
  | invalidTextRepresentation | stringDataRightTruncation | numericValueOutOfRange | other
  deriving DecidableEq, Repr

inductive DbError where
  | dataError (kind : DataErrorKind)
  | foreignKeyViolation (constraint : String)
  | uniqueViolation (constraint : String)
  | checkViolation (constraint : String)
  | deadlockDetected
  | serializationFailure
  | operationalError
  deriving DecidableEq, Repr

/-- What ends a transaction from outside it. -/
def IsAbort (e : DbError) : Prop :=
  e = .deadlockDetected ∨ e = .serializationFailure ∨ e = .operationalError

end RetailSegmentation

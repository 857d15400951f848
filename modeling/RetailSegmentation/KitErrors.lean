import Mathlib.Tactic.Common
import RetailSegmentation.DatabaseErrors

/-! The errors the services answer with (`ApiError` of both kits). -/

namespace RetailSegmentation

structure Detail where
  field : String
  code : String
  deriving DecidableEq, Repr

structure ApiError where
  status : ℕ
  code : String
  message : String
  details : List Detail
  deriving DecidableEq, Repr

/-- What ends a handler early: an answer of its own, or an error of the database. -/
inductive Failure where
  | api (error : ApiError)
  | database (error : DbError)
  deriving DecidableEq, Repr

end RetailSegmentation

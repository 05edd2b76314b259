import DevicePlacement.Cost.Basic
import DevicePlacement.Graph.Basic
import DevicePlacement.Json.Fields

/-!
# Estimators

An estimator prices the nodes of a graph. It is prepared for a graph first
(`Estimator.prepare`) and asked for the costs then (`Estimator.predict`).
Either step can fail, with an error of the estimator or because a sum does not
fit 64 bits.
-/

namespace DevicePlacement

/-- Why a file cannot be read or written. -/
inductive FileError
  /-- There is no such file. -/
  | notFound
  /-- The path is a directory. -/
  | isDirectory
  /-- A file is used as a directory. -/
  | notDirectory
  /-- The path, or a name in it, is too long. -/
  | nameTooLong
  /-- The path has a NUL character in it. -/
  | nulCharacter
  /-- The file is not text. -/
  | notText
  /-- Any other reason. -/
  | other
  deriving DecidableEq, Repr

/-- Why an estimator has no answer. -/
inductive CostError
  /-- It was not prepared for any graph. -/
  | notPrepared
  /-- It was prepared for another graph. -/
  | unknownGraph (expected actual : String)
  /-- Its cost table cannot be read. -/
  | unreadableTable (reason : FileError)
  /-- Its cost table is no cost table. -/
  | invalidTable (reason : Json.ReadError)
  /-- It failed for a reason of its own. -/
  | failed (reason : String)
  deriving DecidableEq, Repr

/-- The text an error is reported with. -/
def CostError.message : CostError → String
  | .notPrepared => "cost estimator used before initialization"
  | .unknownGraph expected actual =>
    "estimator was initialized for graph '" ++ expected ++ "', got '" ++ actual ++ "'"
  | .unreadableTable _ => "failed to read cost table"
  | .invalidTable _ => "failed to parse cost table"
  | .failed reason => "cost estimation failed: " ++ reason

/-- Why there is no estimate, or no placement that needs one. -/
inductive Failure
  /-- The estimator failed. -/
  | cost (error : CostError)
  /-- The computation was stopped. -/
  | fault (fault : Fault)
  deriving DecidableEq, Repr

/-- The states of an estimator and what can be done in them. -/
class Estimator (σ : Type) where
  /-- The name of the kind of estimator. -/
  name : σ → String
  /-- Prepares the estimator for a graph. -/
  prepare : σ → Graph → Except Failure σ
  /-- The costs of a graph for which the estimator was prepared. -/
  predict : σ → Graph → Except Failure Estimate

end DevicePlacement

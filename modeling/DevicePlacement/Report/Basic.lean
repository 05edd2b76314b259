/-!
# Reports

A report tells what placement did with a graph: its outcome, the figures it was
based on and, after a sweep, the loads of the devices and every move in the
order in which it was made.
-/

namespace DevicePlacement

/-- A move that was made. -/
structure MoveRecord where
  /-- The name of the node. -/
  node : String
  /-- The device it left. -/
  source : String
  /-- The device it went to. -/
  target : String
  /-- The delta of its traffic on the device it left. -/
  deltaBefore : Int64
  /-- The delta of its traffic on the device it went to. -/
  deltaAfter : Int64
  /-- The share of the device it left, after the move. -/
  originShare : Float
  /-- The share of the device it went to, after the move. -/
  destinationShare : Float

/-- The load of a device before and after a sweep. -/
structure DeviceLoad where
  device : String
  pinned : Bool
  loadBefore : Int64
  loadAfter : Int64
  shareAfter : Float

/-- What placement did with a graph. -/
inductive Outcome
  /-- The graph runs faster than the threshold and is left alone. -/
  | skipped (executionTime threshold : Int64)
  /-- The graph was swept, and so many nodes moved. -/
  | localSearch (moved : Nat)
  /-- So many nodes moved to the default device. -/
  | defaultDevice (device : String) (moved : Nat)
  /-- All devices are pinned, and the graph is left alone. -/
  | noTargetDevice
  deriving DecidableEq, Repr

/-- The number of nodes that moved. -/
def Outcome.moved : Outcome → Nat
  | localSearch moved => moved
  | defaultDevice _ moved => moved
  | skipped _ _ => 0
  | noTargetDevice => 0

/-- A report on the placement of a graph. -/
structure Report where
  /-- What wrote the report. -/
  optimizer : String
  /-- The identifier of the graph. -/
  graphId : Option String
  outcome : Outcome
  predictedExecutionTime : Int64
  eligibleNodes : Nat
  totalComputeCost : Int64
  /-- The external traffic before a sweep. -/
  externalCostBefore : Option Int64
  /-- The external traffic after a sweep. -/
  externalCostAfter : Option Int64
  deviceLoads : List DeviceLoad
  moves : List MoveRecord

namespace Report

/-- A report with nothing but an outcome. -/
def ofOutcome (optimizer : String) (graphId : Option String) (outcome : Outcome) : Report where
  optimizer := optimizer
  graphId := graphId
  outcome := outcome
  predictedExecutionTime := 0
  eligibleNodes := 0
  totalComputeCost := 0
  externalCostBefore := none
  externalCostAfter := none
  deviceLoads := []
  moves := []

/-- The number of nodes that moved. -/
def moved (report : Report) : Nat :=
  report.outcome.moved

end Report

end DevicePlacement

import DevicePlacement.Checked
import DevicePlacement.NameMap

/-!
# Costs

The cost of a node says how long it computes and how much its largest output
takes to ship to another device. An `Estimate` prices the nodes of a graph by
their names and sums up their times; a node that has no entry costs nothing.
-/

namespace DevicePlacement

/-- The estimated cost of a node. -/
structure NodeCost where
  /-- The load that the node puts on its device. -/
  computeCost : Int64
  /-- The size of the largest output, which is what shipping it costs. -/
  maxMemorySize : Int64
  /-- The time spent on memory. -/
  memoryTime : Int64
  /-- The time spent on computing. -/
  computeTime : Int64
  deriving DecidableEq, Repr

/-- The times of a graph. -/
structure CostSummary where
  executionTime : Int64
  computeTime : Int64
  memoryTime : Int64
  deriving DecidableEq, Repr

/-- The costs of the nodes of a graph, by name, and its times. -/
structure Estimate where
  nodes : NameMap NodeCost
  summary : CostSummary

namespace NodeCost

/-- The cost of a node whose time is its compute cost. -/
def ofCompute (computeCost maxMemorySize : Int64) : NodeCost :=
  ⟨computeCost, maxMemorySize, 0, computeCost⟩

/-- The time a node runs. -/
def executionTime (cost : NodeCost) : Except Fault Int64 :=
  Checked.plus cost.computeTime cost.memoryTime

end NodeCost

namespace CostSummary

/-- The times of a graph without nodes. -/
def zero : CostSummary := ⟨0, 0, 0⟩

/-- The times of a graph with one more node. -/
def add (summary : CostSummary) (cost : NodeCost) : Except Fault CostSummary := do
  let computeTime ← Checked.plus summary.computeTime cost.computeTime
  let memoryTime ← Checked.plus summary.memoryTime cost.memoryTime
  let executionTime ← Checked.plus summary.executionTime (← cost.executionTime)
  return ⟨executionTime, computeTime, memoryTime⟩

end CostSummary

namespace Estimate

/-- The estimate without entries. -/
def empty : Estimate := ⟨NameMap.empty, .zero⟩

/-- The cost of the node of a name. -/
def cost? (estimate : Estimate) (name : String) : Option NodeCost :=
  estimate.nodes.find? name

/-- The estimate with the cost of one more node. -/
def add (estimate : Estimate) (name : String) (cost : NodeCost) : Except Fault Estimate := do
  let summary ← estimate.summary.add cost
  return ⟨estimate.nodes.insert name cost, summary⟩

/-- The sum of the compute costs of all entries. -/
def totalComputeCost (estimate : Estimate) : Except Fault Int64 :=
  Checked.total (estimate.nodes.values.map NodeCost.computeCost)

end Estimate

end DevicePlacement

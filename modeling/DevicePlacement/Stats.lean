import DevicePlacement.Cost.Basic
import DevicePlacement.Graph.Basic

/-!
# Statistics

How many nodes and inputs a graph has, how its nodes spread over devices and op
types, and what an estimate says about it as a whole. Nodes are looked up in the
estimate one by one, so a name that several nodes share counts several times.
-/

namespace DevicePlacement

/-- How often each name occurs, in increasing order of the names. -/
abbrev Tally := List (String × Nat)

/-- The tally with one more occurrence of a name. -/
def Tally.add (name : String) : Tally → Tally
  | [] => [(name, 1)]
  | (key, count) :: rest =>
    if name < key then (name, 1) :: (key, count) :: rest
    else if name = key then (key, count + 1) :: rest
    else (key, count) :: Tally.add name rest

/-- What a graph is made of. -/
structure GraphStats where
  nodes : Nat
  dataEdges : Nat
  controlEdges : Nat
  /-- The number of nodes that are not assigned. -/
  unassigned : Nat
  /-- The number of nodes on each device. -/
  perDevice : Tally
  /-- The number of nodes of each op type. -/
  perOp : Tally
  deriving DecidableEq, Repr

namespace GraphStats

/-- The statistics with one more node. -/
def add (stats : GraphStats) (node : Node) : GraphStats where
  nodes := stats.nodes + 1
  dataEdges := stats.dataEdges + node.dataInputs.length
  controlEdges := stats.controlEdges + node.controlCount
  unassigned := if node.isAssigned then stats.unassigned else stats.unassigned + 1
  perDevice := if node.isAssigned then Tally.add node.device stats.perDevice else stats.perDevice
  perOp := Tally.add node.op stats.perOp

/-- The statistics of a graph. -/
def ofGraph (graph : Graph) : GraphStats :=
  graph.nodes.foldl add ⟨0, 0, 0, 0, [], []⟩

end GraphStats

/-- What an estimate says about a graph. -/
structure CostStats where
  nodesWithCost : Nat
  nodesWithoutCost : Nat
  totalComputeCost : Int64
  totalMemorySize : Int64
  summary : CostSummary
  deriving DecidableEq, Repr

namespace CostStats

/-- The statistics with one more node, of which the cost is given. -/
def add (stats : CostStats) : Option NodeCost → Except Fault CostStats
  | some cost => do
    let totalComputeCost ← Checked.plus stats.totalComputeCost cost.computeCost
    let totalMemorySize ← Checked.plus stats.totalMemorySize cost.maxMemorySize
    return { stats with
      nodesWithCost := stats.nodesWithCost + 1
      totalComputeCost := totalComputeCost
      totalMemorySize := totalMemorySize }
  | none => .ok { stats with nodesWithoutCost := stats.nodesWithoutCost + 1 }

/-- The statistics of a graph with an estimate. -/
def ofGraph (graph : Graph) (estimate : Estimate) : Except Fault CostStats :=
  graph.nodes.foldlM (fun stats node => stats.add (estimate.cost? node.name))
    ⟨0, 0, 0, 0, estimate.summary⟩

end CostStats

end DevicePlacement

import DevicePlacement.Cost.Basic
import DevicePlacement.Graph.Basic

/-!
# Priced graphs

Placement looks at a graph through its positions: a node is its place in the
node list. A `PricedGraph` holds, for every position, the cost of the node and
the positions of its data producers, so that pricing a placement only walks
short lists of numbers.

Of nodes with the same name the first one is meant by every reference. Data
inputs from nodes that are not in the graph are left out, and so are control
inputs: they carry no data and cost nothing.
-/

namespace DevicePlacement

/-- A graph with the costs and the data producers of its nodes by position. -/
structure PricedGraph where
  graph : Graph
  /-- The position of the first node of each name. -/
  positions : NameMap Nat
  /-- The cost of each node, if it has one. -/
  costs : List (Option NodeCost)
  /-- The producers of the data inputs of each node, in the order of the inputs. -/
  producers : List (List Nat)

namespace PricedGraph

/-- The position of the first node of each name, for nodes from the position
    `start` on. -/
def collectPositions : Nat → List Node → NameMap Nat → NameMap Nat
  | _, [], map => map
  | start, node :: rest, map => collectPositions (start + 1) rest (map.insertNew node.name start)

/-- The graph with the costs of an estimate. -/
def ofGraph (graph : Graph) (estimate : Estimate) : PricedGraph :=
  let positions := collectPositions 0 graph.nodes NameMap.empty
  { graph := graph
    positions := positions
    costs := graph.nodes.map fun node => estimate.cost? node.name
    producers := graph.nodes.map fun node =>
      node.dataInputs.filterMap fun input => positions.find? input.producer }

/-- The number of nodes. -/
def size (priced : PricedGraph) : Nat :=
  priced.graph.nodes.length

/-- The position that a name means. -/
def position? (priced : PricedGraph) (name : String) : Option Nat :=
  priced.positions.find? name

/-- The node at a position. -/
def node (priced : PricedGraph) (position : Nat) : Except Fault Node :=
  Checked.row priced.graph.nodes position

/-- The cost of the node at a position, if it has one. -/
def cost (priced : PricedGraph) (position : Nat) : Except Fault (Option NodeCost) :=
  Checked.row priced.costs position

/-- The compute cost of the node at a position, zero if it has none. -/
def computeCost (priced : PricedGraph) (position : Nat) : Except Fault Int64 := do
  return ((← priced.cost position).map NodeCost.computeCost).getD 0

/-- The data producers of the node at a position. -/
def inputs (priced : PricedGraph) (position : Nat) : Except Fault (List Nat) :=
  Checked.row priced.producers position

end PricedGraph

end DevicePlacement

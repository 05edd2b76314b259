import DevicePlacement.Graph.Basic
import DevicePlacement.Placement.Roster

/-!
# Placements

A placement gives the number of a device to every node of a graph, by position,
except to the nodes that are not assigned to any. It starts as the placement
that the graph has (`Placement.ofNodes`), is changed one node at a time
(`Placement.assign`) and is written back in the end (`Placement.place`).
-/

namespace DevicePlacement

/-- The device of every node. -/
structure Placement where
  devices : List (Option Nat)
  deriving DecidableEq, Repr

namespace Placement

/-- The devices of a list of nodes, enrolling those that are met for the first time. -/
def enrollNodes (roster : Roster) : List Node → Roster × List (Option Nat)
  | [] => (roster, [])
  | node :: rest =>
    if node.isAssigned then
      let (roster, number) := roster.enroll node.device
      let (roster, others) := enrollNodes roster rest
      (roster, some number :: others)
    else
      let (roster, others) := enrollNodes roster rest
      (roster, none :: others)

/-- The placement that a graph has, with all its devices in the roster. -/
def ofGraph (roster : Roster) (graph : Graph) : Roster × Placement :=
  let (roster, devices) := enrollNodes roster graph.nodes
  (roster, ⟨devices⟩)

/-- The device of the node at a position. -/
def device (placement : Placement) (position : Nat) : Except Fault (Option Nat) :=
  Checked.row placement.devices position

/-- The placement with the node at a position assigned to a device. -/
def assign (placement : Placement) (position device : Nat) : Except Fault Placement := do
  return ⟨← Checked.setRow placement.devices position (some device)⟩

/-- A node on a device. Nodes that are not assigned are left alone. -/
def placeNode (roster : Roster) (node : Node) : Option Nat → Except Fault Node
  | some number => do return { node with device := ← roster.name number }
  | none => .ok node

/-- A graph with its nodes on the devices of the placement. -/
def place (placement : Placement) (roster : Roster) (graph : Graph) : Except Fault Graph := do
  let nodes ← (graph.nodes.zip placement.devices).mapM fun (node, device) =>
    placeNode roster node device
  return { graph with nodes := nodes }

end Placement

end DevicePlacement

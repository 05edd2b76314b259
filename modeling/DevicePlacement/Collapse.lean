import DevicePlacement.Eligibility

/-!
# Collapsing a graph on one device

Without costs there is nothing to trade, and all that placement can do is to put
the eligible nodes together. The default device, the first one of the inventory
that is not pinned, takes them all; without such a device the graph stays as it
is. Nodes on pinned devices are never eligible here, whatever the policy.
-/

namespace DevicePlacement.Collapse

/-- What came out of a collapse. -/
structure Result where
  /-- The graph with its nodes where the collapse has put them. -/
  graph : Graph
  /-- The device that took the nodes, if there is one. -/
  device : Option String
  /-- The number of nodes that moved. -/
  moved : Nat
  /-- The number of eligible nodes. -/
  eligible : Nat
  deriving DecidableEq, Repr

/-- A node, on the device if it is eligible. -/
def placeNode (eligibility : Eligibility) (device : String) (node : Node) : Node :=
  if eligibility.isEligible node then { node with device := device } else node

/-- Puts the eligible nodes of a graph on the default device. -/
def run (catalog : OpCatalog) (knobs : Knobs) (graph : Graph) (devices : List String) : Result :=
  let pinned : PinnedPattern := ⟨knobs.pinnedDevicePattern⟩
  match pinned.defaultDevice? devices with
  | none => ⟨graph, none, 0, 0⟩
  | some device =>
    let eligibility := (Eligibility.ofKnobs catalog knobs pinned).withPolicy .strict
    let eligible := graph.nodes.filter eligibility.isEligible
    { graph := { graph with nodes := graph.nodes.map (placeNode eligibility device) }
      device := some device
      moved := eligible.countP fun node => node.device ≠ device
      eligible := eligible.length }

end DevicePlacement.Collapse

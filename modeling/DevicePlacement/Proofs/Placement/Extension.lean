import DevicePlacement.Placement.Balance
import DevicePlacement.Proofs.InStep
import DevicePlacement.Proofs.Placement.PricedGraph
import DevicePlacement.Proofs.Placement.Sites

/-!
# Longer tables

The tables of placement are read and changed row by row. So what is computed from tables
that return is computed from longer tables as well, and the further rows stay as they are:

* `Balance.follows_add`, `Balance.follows_isBeneficial`, `Balance.follows_apply`: loads, with
  rows for further devices (`Balance.extend`);
* `PricedGraph.Prefix.follows_traffic`: the traffic of a node, with further nodes in the
  priced graph (`PricedGraph.Prefix`) and in the placement (`Placement.extend`).

Nodes that come after the others in a graph make its tables longer (`Placement.ofGraph_append`,
`PricedGraph.prefix_append`), unless an input of the others means one of them.
-/

namespace DevicePlacement

open Checked

/-! ## Balances -/

namespace Balance

variable {balance : Balance} {rows : List Int64}

/-- A balance with rows for further devices. -/
def extend (balance : Balance) (rows : List Int64) : Balance :=
  { balance with loads := balance.loads ++ rows }

/-- A row that is there is read alike when further rows follow. -/
theorem follows_load (device : Nat) :
    Follows id (balance.load device) ((balance.extend rows).load device) :=
  follows_row (List.prefix_append ..) device

/-- An addition that succeeds does the same to the rows that are there and leaves the others. -/
theorem follows_add (device : Nat) (cost : Int64) :
    Follows (extend · rows) (balance.add device cost) ((balance.extend rows).add device cost) := by
  rw [add, add]
  refine (follows_load device).bind_same fun load => (follows_refl _).bind_same fun raised => ?_
  refine (follows_setRow balance.loads rows device raised).bind fun loads => ?_
  exact (follows_refl _).bind_same fun total => follows_pure _

/-- The share of a device comes from its load and the scale, so further rows do not matter. -/
theorem follows_share (device : Nat) :
    Follows id (balance.share device) ((balance.extend rows).share device) := by
  rw [share, share]
  exact (follows_load device).bind_same fun load => follows_refl _

/-- A move between devices that have rows is judged alike when further rows follow. -/
theorem follows_isBeneficial (move : Relocation) :
    Follows id (balance.isBeneficial move) ((balance.extend rows).isBeneficial move) := by
  rw [isBeneficial, isBeneficial]
  refine (follows_refl _).bind_same fun after => (follows_refl _).bind_same fun before => ?_
  refine follows_ite (fun _ => follows_refl _) fun _ => ?_
  refine (follows_load move.origin).bind_same fun load => ?_
  refine (follows_refl _).bind_same fun origin => follows_ite (fun _ => follows_refl _) fun _ => ?_
  refine (follows_load move.destination).bind_same fun load' => ?_
  exact (follows_refl _).bind_same fun destination => follows_refl _

/-- A move that succeeds leaves the further rows as they are. -/
theorem follows_apply (move : Relocation) :
    Follows (extend · rows) (balance.apply move) ((balance.extend rows).apply move) := by
  rw [apply, apply]
  refine (follows_load move.origin).bind_same fun load => ?_
  refine (follows_refl _).bind_same fun origin => ?_
  refine (follows_setRow balance.loads rows move.origin origin).bind fun loads => ?_
  refine (follows_row (List.prefix_append ..) move.destination).bind_same fun load' => ?_
  refine (follows_refl _).bind_same fun destination => ?_
  refine (follows_setRow loads rows move.destination destination).bind fun loads' => ?_
  exact follows_pure _

/-- A balance that begins with more devices is one that begins with fewer, with empty rows after
    them. -/
theorem extend_ofDevices (devices more inventory : Nat) (margin : Float) :
    ofDevices (devices + more) inventory margin =
      (ofDevices devices inventory margin).extend (List.replicate more 0) := by
  rw [ofDevices, List.replicate_add]
  rfl

end Balance

/-! ## Placements -/

namespace Placement

variable {placement : Placement} {rest : List (Option Nat)}

/-- A placement with the devices of further nodes. -/
def extend (placement : Placement) (rest : List (Option Nat)) : Placement :=
  ⟨placement.devices ++ rest⟩

/-- Where a node is does not depend on the nodes after it. -/
theorem follows_device (position : Nat) :
    Follows id (placement.device position) ((placement.extend rest).device position) :=
  follows_row (List.prefix_append ..) position

/-- A node that is put on a device leaves the nodes after all others where they are. -/
theorem follows_assign (position device : Nat) :
    Follows (extend · rest) (placement.assign position device)
      ((placement.extend rest).assign position device) := by
  rw [assign, assign]
  refine (follows_setRow placement.devices rest position _).bind fun devices => ?_
  exact follows_pure _

/-- The nodes that were there have their sites, also if these are `none`. -/
theorem site_extend {position : Nat} (h : position < placement.devices.length) :
    (placement.extend rest).site position = placement.site position := by
  rw [site, site, extend, List.getElem?_append_left h]

/-- Nodes are entered one after the other: the later ones in the roster that the earlier ones
    leave. -/
theorem enrollNodes_append (roster : Roster) (nodes more : List Node) :
    enrollNodes roster (nodes ++ more) =
      ((enrollNodes (enrollNodes roster nodes).1 more).1,
        (enrollNodes roster nodes).2 ++ (enrollNodes (enrollNodes roster nodes).1 more).2) := by
  induction nodes generalizing roster with
  | nil => rfl
  | cons node nodes ih =>
    rw [List.cons_append, enrollNodes_cons, enrollNodes_cons, ih, ih]
    split <;> rfl

end Placement

/-! ## Priced graphs -/

namespace PricedGraph

/-- The tables of a priced graph are the beginnings of those of another one. -/
structure Prefix (priced other : PricedGraph) : Prop where
  nodes : priced.graph.nodes <+: other.graph.nodes
  costs : priced.costs <+: other.costs
  producers : priced.producers <+: other.producers

namespace Prefix

variable {priced other : PricedGraph} {placement : Placement} {rest : List (Option Nat)}
  (h : priced.Prefix other)

include h

/-- A node has the same compute cost when further nodes follow. -/
theorem follows_computeCost (position : Nat) :
    Follows id (priced.computeCost position) (other.computeCost position) := by
  rw [computeCost, computeCost]
  exact (follows_row h.costs position).bind_same fun cost => follows_refl _

/-- An input from a node that is there adds the same traffic when further nodes follow. -/
theorem follows_addInput (device : Nat) (traffic : Traffic) (producer : Nat) :
    Follows id (priced.addInput placement device traffic producer)
      (other.addInput (placement.extend rest) device traffic producer) := by
  rw [addInput, addInput]
  refine (follows_row h.costs producer).bind_same fun cost => ?_
  cases cost with
  | none => exact follows_refl _
  | some cost =>
    refine (Placement.follows_device producer).bind_same fun source => ?_
    exact follows_refl _

/-- The traffic of a node with its producers is that among the nodes that are there. -/
theorem follows_traffic (position device : Nat) :
    Follows id (priced.traffic placement position device)
      (other.traffic (placement.extend rest) position device) := by
  rw [traffic, traffic]
  refine (h.follows_computeCost position).bind_same fun computeCost => ?_
  refine (follows_row h.producers position).bind_same fun inputs => ?_
  exact Follows.foldlM (e := id) (fun sum producer => h.follows_addInput device sum producer) _

end Prefix

end PricedGraph

/-- A graph with further nodes after its own. -/
def Graph.append (graph : Graph) (more : List Node) : Graph :=
  { graph with nodes := graph.nodes ++ more }

/-- The producers of a node stay the same unless an input of it means a further node. -/
theorem Graph.producers_append {graph : Graph} {more : List Node} {node : Node}
    (h : ∀ other ∈ more, ∀ input ∈ node.dataInputs, input.producer ≠ other.name) :
    (graph.append more).producers node = graph.producers node := by
  refine List.filterMap_congr fun input hinput => ?_
  -- The name is found before the further nodes, or not at all.
  have hmore : more.findIdx? (fun other => other.name = input.producer) = none :=
    List.findIdx?_eq_none_iff.2 fun other hother =>
      decide_eq_false fun hname => h other hother input hinput hname.symm
  rw [position?, position?, append, List.findIdx?_append, hmore, Option.map_none, Option.or_none]

/-- A graph with further nodes is priced as the graph is, its own nodes first. No input of these
    may mean a further node, or they would have more producers. -/
theorem PricedGraph.prefix_append {graph : Graph} {more : List Node} (estimate : Estimate)
    (h : ∀ other ∈ more, ∀ node ∈ graph.nodes, ∀ input ∈ node.dataInputs,
      input.producer ≠ other.name) :
    (ofGraph graph estimate).Prefix (ofGraph (graph.append more) estimate) where
  nodes := List.prefix_append ..
  costs := by
    change graph.nodes.map _ <+: (graph.nodes ++ more).map _
    rw [List.map_append]
    exact List.prefix_append ..
  producers := by
    have hproducers : graph.nodes.map (graph.append more).producers =
        graph.nodes.map graph.producers :=
      List.map_congr_left fun node hnode =>
        Graph.producers_append fun other hother => h other hother node hnode
    rw [producers_ofGraph, producers_ofGraph, ← hproducers]
    exact (List.prefix_append graph.nodes more).map _

end DevicePlacement

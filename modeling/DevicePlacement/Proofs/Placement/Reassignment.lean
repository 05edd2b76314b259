import DevicePlacement.Proofs.Placement.Safety

/-!
# What a reassignment costs

The delta of a node's traffic sees only what comes in at the node. Its consumers see the
move as well: those on the old device have to fetch its output from now on, and those on
the new device no longer do. Counted by data inputs (`Graph.demand`), this is all that the
delta leaves out (`external_assign`), whatever the graph looks like: it may have cycles,
inputs that are repeated and producers without a device or a cost.
-/

namespace DevicePlacement

open Checked Function

/-- The number of data inputs from a producer that the nodes on a device have. -/
def Graph.demand (graph : Graph) (site : Nat → Option Nat) (producer device : Nat) : Nat :=
  graph.edges.countP fun edge => edge.producer = producer ∧ site edge.consumer = some device

namespace PricedGraph

variable {graph : Graph} {estimate : Estimate} {node : Node} {placement : Placement}
  {position origin target : Nat}

/-- A node that is on the device has its inputs counted, any other has none. -/
theorem countP_map_edge (site : Nat → Option Nat) (producers : List Nat)
    (producer device consumer : Nat) :
    (producers.map fun producer => (⟨producer, consumer⟩ : Edge)).countP
        (fun edge => edge.producer = producer ∧ site edge.consumer = some device) =
      if site consumer = some device then producers.count producer else 0 := by
  rw [List.countP_map]
  by_cases h : site consumer = some device
  · rw [if_pos h, List.count]
    refine List.countP_congr fun other _ => ?_
    simp [h]
  · rw [if_neg h, List.countP_eq_zero]
    simp [h]

/-- Counted node by node, there are as many inputs from a producer as along the edges. -/
theorem demand_ofGraph (graph : Graph) (estimate : Estimate) (site : Nat → Option Nat)
    (producer device : Nat) :
    (ofGraph graph estimate).demand site producer device = graph.demand site producer device := by
  -- The edges are grouped by consumer, in the order of the nodes.
  have hsum : graph.demand site producer device =
      ((List.range (ofGraph graph estimate).size).map fun consumer =>
        if site consumer = some device then
          ((ofGraph graph estimate).producersOf consumer).count producer
        else 0).sum := by
    rw [Graph.demand, Graph.edges, List.countP_flatMap]
    refine congrArg List.sum (List.ext_getElem (by simp [PricedGraph.size, ofGraph]) ?_)
    intro consumer hlt _
    rw [List.length_map, List.length_zipIdx] at hlt
    rw [List.getElem_map, List.getElem_map, List.getElem_range, List.getElem_zipIdx,
      producersOf_ofGraph estimate (List.getElem?_eq_getElem hlt), Nat.zero_add]
    exact countP_map_edge site _ producer device consumer
  rw [hsum, Nat.cast_list_sum, List.map_map]
  refine congrArg List.sum (List.map_congr_left fun consumer _ => ?_)
  rw [drawn, Function.comp_apply, Nat.cast_ite, Nat.cast_zero]

/-- A node without an entry ships nothing. -/
theorem getD_size?_ofGraph (hnode : graph.nodes[position]? = some node) :
    ((ofGraph graph estimate).size? position).getD 0 = estimate.size node := by
  rw [size?_ofGraph, hnode, Option.bind_some, Estimate.size]

/-- Assigning a node to another device changes the external traffic of the graph by the
    change at the node itself, and by the size of the node for every data input that is cut
    off from it or joined with it. So do the sums, if they can be formed. -/
theorem external_assign (estimate : Estimate) (hnode : graph.nodes[position]? = some node)
    (hself : position ∉ graph.producers node) (hsite : placement.site position = some origin)
    (hne : target ≠ origin) :
    ∃ moved, placement.assign position target = .ok moved ∧
      (ofGraph graph estimate).external moved.site -
          (ofGraph graph estimate).external placement.site =
        ((ofGraph graph estimate).arrivals placement position).outer target -
          ((ofGraph graph estimate).arrivals placement position).outer origin +
        estimate.size node * (graph.demand placement.site position origin -
          graph.demand placement.site position target) ∧
      ∀ before after here there,
        (ofGraph graph estimate).totalExternal placement = .ok before →
        (ofGraph graph estimate).totalExternal moved = .ok after →
        (ofGraph graph estimate).traffic placement position origin = .ok here →
        (ofGraph graph estimate).traffic placement position target = .ok there →
        after.toInt - before.toInt = there.external.toInt - here.external.toInt +
          estimate.size node * (graph.demand placement.site position origin -
            graph.demand placement.site position target) := by
  have hself' : position ∉ (ofGraph graph estimate).producersOf position := by
    rwa [producersOf_ofGraph estimate hnode]
  have hlt : position < placement.devices.length := by
    by_contra hge
    cases (Placement.site_of_length_le (Nat.le_of_not_lt hge)).symm.trans hsite
  obtain ⟨moved, hmoved⟩ := Placement.returns_assign hlt target
  have hposition : position < (ofGraph graph estimate).size :=
    (List.getElem?_eq_some_iff.1 hnode).1
  -- The exact change is known by number; here it is told by the graph.
  have hexact := external_update hposition hsite hne hself'
  rw [← (Placement.assign_eq_ok hmoved).2.2, demand_ofGraph, demand_ofGraph,
    getD_size?_ofGraph hnode, add_assoc, ← sub_eq_iff_eq_add'] at hexact
  refine ⟨moved, hmoved, hexact, ?_⟩
  intro before after here there hbefore hafter hhere hthere
  rw [totalExternal_eq_ok hbefore, totalExternal_eq_ok hafter, (traffic_eq_ok hhere).2.1,
    (traffic_eq_ok hthere).2.1]
  exact hexact

/-- Three nodes in a circle, of which the second has the first as an input twice. -/
def circle : Graph :=
  .ofNodes [⟨"a", "Add", "dev0", [.data "c" 0]⟩, ⟨"b", "Add", "dev1", [.data "a" 0, .data "a" 1]⟩,
    ⟨"c", "Mul", "dev0", [.data "a" 0, .data "b" 0]⟩]

/-- Costs for the nodes of `circle`. -/
def circleCosts : Estimate :=
  ⟨.ofList [("a", .ofCompute 1 10), ("b", .ofCompute 1 5), ("c", .ofCompute 1 3)], .zero⟩

/-- When `a` goes to `b`, its own input from `c` costs 3 more, and of its three consumers one
    is left behind and two are joined. -/
theorem external_assign_circle : ∃ moved,
    Placement.assign ⟨[some 0, some 1, some 0]⟩ 0 1 = .ok moved ∧
    (ofGraph circle circleCosts).external moved.site -
        (ofGraph circle circleCosts).external (Placement.site ⟨[some 0, some 1, some 0]⟩) =
      3 + 10 * (1 - 2) := by
  have hnode : circle.nodes[0]? = some ⟨"a", "Add", "dev0", [.data "c" 0]⟩ := rfl
  have hsite : Placement.site ⟨[some 0, some 1, some 0]⟩ 0 = some 0 := rfl
  have hne : 1 ≠ 0 := by decide
  obtain ⟨moved, hmoved, hexact, _⟩ :=
    external_assign circleCosts hnode (by decide +kernel) hsite hne
  refine ⟨moved, hmoved, hexact.trans ?_⟩
  decide +kernel

end PricedGraph

end DevicePlacement

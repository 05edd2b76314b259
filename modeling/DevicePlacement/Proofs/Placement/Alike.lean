import DevicePlacement.Proofs.Placement.Renaming
import DevicePlacement.Proofs.Placement.Safety

/-!
# Priced graphs that look alike

Placement asks a priced graph for little: the producers of a node, what they ship,
and the compute cost of the nodes that count in the loads. Two priced graphs with the
same answers, whose nodes may go by other names, are *alike* (`PricedGraph.Alike`).
It makes no difference whether a producer has no cost or ships nothing.

* `Alike.inStep_traffic`: alike graphs give a node the same traffic, up to a compute
  cost that does not count;
* `Alike.totalExternal_eq`: they have the same external traffic.
-/

namespace DevicePlacement

open Checked

/-! ## Traffic -/

namespace Traffic

variable {counts : Prop} {traffic other : Traffic}

/-- The same flows in, and the compute costs agree if they count. -/
structure Alike (counts : Prop) (traffic other : Traffic) : Prop where
  external : other.external = traffic.external
  internal : other.internal = traffic.internal
  computeCost : counts → other.computeCost = traffic.computeCost

/-- If the compute costs count, alike traffics are the same. -/
theorem Alike.eq (h : Alike counts traffic other) (hcounts : counts) : traffic = other := by
  obtain ⟨computeCost, external, internal⟩ := traffic
  obtain ⟨computeCost', external', internal'⟩ := other
  obtain ⟨hexternal, hinternal, hcompute⟩ := h
  simp only at hexternal hinternal hcompute
  rw [hexternal, hinternal, hcompute hcounts]

/-- An arrival changes the flows only, and both in the same way. -/
theorem Alike.inStep_add (h : Alike counts traffic other) (device source : Nat) (size : Int64) :
    InStep (Alike counts) (traffic.add device source size) (other.add device source size) := by
  rw [add, add]
  split
  · rw [h.internal]
    exact inStep_bind_left fun sum _ => inStep_pure ⟨h.external, rfl, h.computeCost⟩
  · rw [h.external]
    exact inStep_bind_left fun sum _ => inStep_pure ⟨rfl, h.internal, h.computeCost⟩

/-- What ships nothing leaves the traffic as it is. -/
theorem add_zero (traffic : Traffic) (device source : Nat) :
    traffic.add device source 0 = .ok traffic := by
  rw [add, plus_zero, plus_zero]
  split <;> rfl

end Traffic

/-! ## Priced graphs -/

namespace PricedGraph

variable {priced other : PricedGraph} {placement : Placement} {position : Nat}
  {f : String → String} {counting : List Nat}

/-- What the node at a position ships to each consumer, nothing if it has no cost. -/
def output (priced : PricedGraph) (position : Nat) : Int64 :=
  ((priced.cost? position).map NodeCost.maxMemorySize).getD 0

/-- What a node of a graph ships is the size that the estimate has for it. -/
theorem toInt_output_ofGraph {graph : Graph} {node : Node} (estimate : Estimate)
    (h : graph.nodes[position]? = some node) :
    ((ofGraph graph estimate).output position).toInt = estimate.size node := by
  rw [output, cost?_ofGraph, h, Option.bind_some, Estimate.size, Estimate.size?]
  cases estimate.cost? node.name with
  | none => rfl
  | some cost => rfl

/-- One more data input adds what its producer ships from where it is. -/
theorem Closed.addInput_eq {producer : Nat} (h : priced.Closed) (hp : producer < priced.size)
    (hl : placement.devices.length = priced.size) (device : Nat) (traffic : Traffic) :
    priced.addInput placement device traffic producer =
      match placement.site producer with
      | none => .ok traffic
      | some source => traffic.add device source (priced.output producer) := by
  obtain ⟨cost, hcost⟩ := h.returns_cost hp
  have hdevice : placement.device producer = .ok (placement.site producer) :=
    Placement.device_eq_ok_iff.2 ⟨hl ▸ hp, rfl⟩
  rw [addInput, hcost, hdevice, output, cost_eq_ok hcost]
  -- A producer without a cost is passed over, which is to ship nothing.
  cases cost with
  | none =>
    cases placement.site producer with
    | none => rfl
    | some source => exact (traffic.add_zero device source).symm
  | some cost =>
    cases placement.site producer with
    | none => rfl
    | some source => rfl

/-- Priced graphs that answer alike. The compute costs of the nodes at the given
    positions count. -/
structure Alike (f : String → String) (counting : List Nat) (priced other : PricedGraph) :
    Prop where
  closed : priced.Closed
  closed' : other.Closed
  names : List.Forall₂ (fun node node' => node'.name = f node.name) priced.graph.nodes
    other.graph.nodes
  producers : other.producers = priced.producers
  output : ∀ position, ∀ producer ∈ priced.producersOf position,
    other.output producer = priced.output producer
  compute : ∀ position ∈ counting, other.compute position = priced.compute position

namespace Alike

variable (h : priced.Alike f counting other)

include h

theorem size_eq : other.size = priced.size :=
  h.names.length_eq.symm

/-- The nodes at a position are called alike. -/
theorem inStep_name (position : Nat) :
    InStep (fun node node' => node'.name = f node.name) (priced.node position)
      (other.node position) :=
  inStep_row h.names position

/-- The compute costs agree where they count. -/
theorem inStep_computeCost (hp : position < priced.size) :
    InStep (fun cost cost' => position ∈ counting → cost' = cost) (priced.computeCost position)
      (other.computeCost position) := by
  obtain ⟨cost, hok⟩ := h.closed.returns_computeCost hp
  obtain ⟨cost', hok'⟩ := h.closed'.returns_computeCost (h.size_eq ▸ hp)
  rw [hok, hok']
  refine .returned fun hcounts => Int64.toInt_inj.1 ?_
  rw [computeCost_eq_ok hok, computeCost_eq_ok hok', h.compute position hcounts]

variable (hl : placement.devices.length = priced.size)

include hl

/-- A producer of the node ships the same in both graphs. -/
theorem inStep_addInput {device producer : Nat} {counts : Prop} {traffic traffic' : Traffic}
    (hp : producer ∈ priced.producersOf position) (ht : Traffic.Alike counts traffic traffic') :
    InStep (Traffic.Alike counts) (priced.addInput placement device traffic producer)
      (other.addInput placement device traffic' producer) := by
  have hlt := h.closed.producer_lt position producer hp
  rw [h.closed.addInput_eq hlt hl, h.closed'.addInput_eq (h.size_eq ▸ hlt) (h.size_eq ▸ hl),
    h.output position producer hp]
  split
  · exact .returned ht
  · exact ht.inStep_add ..

/-- Alike graphs give a node the same traffic. -/
theorem inStep_traffic (hp : position < priced.size) (device : Nat) :
    InStep (Traffic.Alike (position ∈ counting)) (priced.traffic placement position device)
      (other.traffic placement position device) := by
  have hinputs : other.inputs position = priced.inputs position := by
    rw [inputs, inputs, h.producers]
  rw [traffic, traffic, hinputs]
  refine (h.inStep_computeCost hp).bind fun cost cost' hcost => ?_
  refine inStep_bind_left fun producers hproducers => ?_
  have hstart : Traffic.Alike (position ∈ counting) ⟨cost, 0, 0⟩ ⟨cost', 0, 0⟩ :=
    ⟨rfl, rfl, hcost⟩
  refine InStep.foldlM (fun traffic traffic' producer hproducer ht => ?_) hstart
  rw [← inputs_eq_ok hproducers] at hproducer
  exact h.inStep_addInput hl hproducer ht

/-- Where the compute cost counts, the whole traffic is the same. -/
theorem traffic_eq (hp : position < priced.size) (hcounts : position ∈ counting) (device : Nat) :
    priced.traffic placement position device = other.traffic placement position device :=
  ((h.inStep_traffic hl hp device).imp fun _ _ ht => ht.eq hcounts).eq

/-- Alike graphs have the same external traffic. -/
theorem totalExternal_eq : priced.totalExternal placement = other.totalExternal placement := by
  refine InStep.eq ?_
  rw [totalExternal, totalExternal, h.size_eq]
  refine InStep.foldlM (fun sum sum' position hp hsum => ?_) rfl
  subst hsum
  rw [addExternal, addExternal]
  refine inStep_bind_left fun device _ => ?_
  cases device with
  | none => exact .refl _
  | some device =>
    refine (h.inStep_traffic hl (List.mem_range.1 hp) device).bind fun traffic traffic' ht => ?_
    rw [ht.external]
    exact .refl _

end Alike

end PricedGraph

end DevicePlacement

import DevicePlacement.Proofs.Placement.External
import DevicePlacement.Proofs.Placement.Loads
import Mathlib.Algebra.Order.Group.Int

/-!
# Placement stays in range

An estimate is *tame* for a graph if none of its costs is negative and three sums fit
into 64 bits: the compute costs of the nodes, their sizes, and what all data inputs
ship (`Estimate.Tame`). Then nothing that placement computes can leave the range:

* the traffic of a node is part of what all inputs ship, and so is that of all nodes
  together (`Tame.returns_traffic`, `Tame.returns_totalExternal`);
* the load of a device is part of all compute costs (`loadOn_le`), so loads stay in
  range when nodes are added and moved (`Balance.returns_add`, `Allows.returns_apply`).

A total of numbers of either sign can be out of range on the way and in it at the end. It
returns if no sum on the way is out of range (`Checked.PartialSumsFit`), which depends on the
order of the numbers.
-/

namespace DevicePlacement

open Checked Function

theorem sum_map_le_of_sublist {α : Type} {l l' : List α} {f : α → Int} (h : l'.Sublist l)
    (hf : ∀ a ∈ l, 0 ≤ f a) : (l'.map f).sum ≤ (l.map f).sum :=
  (h.map f).sum_le_sum (List.forall_mem_map.2 hf)

/-- A running sum of terms that are not negative goes on if the whole sum fits. -/
theorem returns_plus_concat {α : Type} {done l : List α} {a : α} {f : α → Int} {sum term : Int64}
    (hdone : done ++ [a] <+: l) (hf : ∀ a ∈ l, 0 ≤ f a)
    (hle : (l.map f).sum ≤ Int64.maxValue.toInt) (hsum : sum.toInt = (done.map f).sum)
    (hterm : term.toInt = f a) : Returns (plus sum term) := by
  have hnext : sum.toInt + term.toInt = ((done ++ [a]).map f).sum := by
    rw [hsum, hterm, sum_map_concat]
  refine returns_plus ?_ ?_
  · rw [hnext]
    exact List.sum_nonneg (List.forall_mem_map.2 fun b hb => hf b (hdone.subset hb))
  · rw [hnext]
    exact (sum_map_le_of_sublist hdone.sublist hf).trans hle

/-! ## Tame estimates -/

/-- The size of the output of a node, zero if it has no entry. -/
def Estimate.size (estimate : Estimate) (node : Node) : Int :=
  (estimate.size? node).getD 0

/-- What a data input ships: the size of the output of its producer. -/
def Estimate.shipped (estimate : Estimate) (graph : Graph) (edge : Edge) : Int :=
  ((graph.nodes[edge.producer]?).map estimate.size).getD 0

/-- No cost is negative, and the sums over a graph fit. -/
structure Estimate.Tame (estimate : Estimate) (graph : Graph) : Prop where
  nonneg : ∀ cost ∈ estimate.nodes.values,
    0 ≤ cost.computeCost.toInt ∧ 0 ≤ cost.maxMemorySize.toInt
  compute_le : (graph.nodes.map estimate.compute).sum ≤ Int64.maxValue.toInt
  size_le : (graph.nodes.map estimate.size).sum ≤ Int64.maxValue.toInt
  shipped_le : (graph.edges.map (estimate.shipped graph)).sum ≤ Int64.maxValue.toInt

instance (estimate : Estimate) (graph : Graph) : Decidable (estimate.Tame graph) :=
  decidable_of_iff (_ ∧ _ ∧ _ ∧ _)
    ⟨fun ⟨hnonneg, hcompute, hsize, hshipped⟩ => ⟨hnonneg, hcompute, hsize, hshipped⟩,
      fun h => ⟨h.nonneg, h.compute_le, h.size_le, h.shipped_le⟩⟩

/-- What producers ship, whether they are assigned or not. -/
def shipping (size? : Nat → Option Int) (producers : List Nat) : Int :=
  (producers.map fun producer => (size? producer).getD 0).sum

/-- The same for the tables of a priced graph, which have a row for every node. -/
structure PricedGraph.Tame (priced : PricedGraph) : Prop where
  costs : priced.costs.length = priced.size
  producers : priced.producers.length = priced.size
  producer_lt : ∀ position, ∀ producer ∈ priced.producersOf position, producer < priced.size
  compute_nonneg : ∀ position, 0 ≤ priced.compute position
  size_nonneg : ∀ position size, priced.size? position = some size → 0 ≤ size
  compute_le : ((List.range priced.size).map priced.compute).sum ≤ Int64.maxValue.toInt
  shipping_le : ((List.range priced.size).map fun position =>
    shipping priced.size? (priced.producersOf position)).sum ≤ Int64.maxValue.toInt

namespace Estimate

variable {estimate : Estimate} {graph : Graph} {node : Node}

/-- Estimates tell nodes apart by their names alone. -/
theorem eq_of_name {node' : Node} (h : node'.name = node.name) :
    estimate.compute node' = estimate.compute node ∧ estimate.size node' = estimate.size node := by
  rw [compute, compute, size, size, size?, size?, h]
  exact ⟨rfl, rfl⟩

/-- A node without an entry has no cost and ships nothing. -/
theorem cost_of_none (h : estimate.cost? node.name = none) :
    estimate.compute node = 0 ∧ estimate.size node = 0 := by
  rw [compute, size, size?, h]
  exact ⟨rfl, rfl⟩

/-- A node with an entry has the cost and the size that stand in it. -/
theorem cost_of_some {cost : NodeCost} (h : estimate.cost? node.name = some cost) :
    estimate.compute node = cost.computeCost.toInt ∧
      estimate.size node = cost.maxMemorySize.toInt := by
  rw [compute, size, size?, h]
  exact ⟨rfl, rfl⟩

/-- Nodes without an entry have no negative costs either. -/
theorem Tame.cost_nonneg (h : estimate.Tame graph) (node : Node) :
    0 ≤ estimate.compute node ∧ 0 ≤ estimate.size node := by
  cases hcost : estimate.cost? node.name with
  | none =>
    rw [(cost_of_none hcost).1, (cost_of_none hcost).2]
    exact ⟨le_rfl, le_rfl⟩
  | some cost =>
    rw [(cost_of_some hcost).1, (cost_of_some hcost).2]
    exact h.nonneg cost (NameMap.mem_values_of_find? hcost)

end Estimate

namespace PricedGraph

variable {estimate : Estimate} {graph : Graph}

/-- Over the positions or over the nodes, the compute costs come to the same sum. -/
theorem sum_compute_ofGraph (estimate : Estimate) (graph : Graph) :
    ((List.range (ofGraph graph estimate).size).map (ofGraph graph estimate).compute).sum =
      (graph.nodes.map estimate.compute).sum := by
  refine congrArg List.sum (List.ext_getElem (by simp [PricedGraph.size, ofGraph]) ?_)
  intro position _ hlt
  rw [List.length_map] at hlt
  rw [List.getElem_map, List.getElem_map, List.getElem_range,
    compute_ofGraph estimate (List.getElem?_eq_getElem hlt)]

/-- Summed up over the consumers, producers ship what goes along the edges. -/
theorem sum_shipping_ofGraph (estimate : Estimate) (graph : Graph) :
    ((List.range (ofGraph graph estimate).size).map fun consumer =>
        shipping (ofGraph graph estimate).size?
          ((ofGraph graph estimate).producersOf consumer)).sum =
      (graph.edges.map (estimate.shipped graph)).sum := by
  rw [Graph.edges, List.map_flatMap, List.flatMap_def, List.sum_flatten, List.map_map]
  -- Both sums are over the consumers; what each one is shipped is compared next.
  refine congrArg List.sum (List.ext_getElem (by simp [PricedGraph.size, ofGraph]) ?_)
  intro consumer _ hlt
  rw [List.length_map, List.length_zipIdx] at hlt
  rw [List.getElem_map, List.getElem_map, List.getElem_range, List.getElem_zipIdx,
    producersOf_ofGraph estimate (List.getElem?_eq_getElem hlt), Nat.zero_add,
    Function.comp_apply, List.map_map, shipping]
  refine congrArg List.sum (List.map_congr_left fun producer _ => ?_)
  rw [size?_ofGraph, Function.comp_apply, Estimate.shipped]
  cases graph.nodes[producer]? with
  | none => rfl
  | some node => rfl

/-- What holds of the estimate and the graph holds of the tables. -/
theorem tame_ofGraph (h : estimate.Tame graph) : (ofGraph graph estimate).Tame where
  costs := (closed_ofGraph graph estimate).costs
  producers := (closed_ofGraph graph estimate).producers
  producer_lt := (closed_ofGraph graph estimate).producer_lt
  compute_nonneg position := by
    cases hnode : graph.nodes[position]? with
    | none => rw [compute, cost?_ofGraph, hnode]; exact le_rfl
    | some node => exact compute_ofGraph estimate hnode ▸ (h.cost_nonneg node).1
  size_nonneg position size := size?_nonneg fun cost hcost => (h.nonneg cost hcost).2
  compute_le := (sum_compute_ofGraph estimate graph).trans_le h.compute_le
  shipping_le := (sum_shipping_ofGraph estimate graph).trans_le h.shipped_le

end PricedGraph

/-! ## Traffic -/

section Arrivals

variable {α : Type} {size? : Nat → Option Int} {site : Nat → Option α}

/-- What arrives has the size of some producer. -/
theorem nonneg_of_mem_arrivals {producers : List Nat} {arrival : α × Int}
    (hsizes : ∀ producer size, size? producer = some size → 0 ≤ size)
    (h : arrival ∈ arrivals size? site producers) : 0 ≤ arrival.2 := by
  obtain ⟨producer, _, hsize, _⟩ := mem_arrivals.1 h
  exact hsizes producer arrival.2 hsize

variable [DecidableEq α]

theorem Arrivals.outer_nonneg {arrivals : Arrivals α} (h : ∀ arrival ∈ arrivals, 0 ≤ arrival.2)
    (device : α) : 0 ≤ arrivals.outer device := by
  refine List.sum_nonneg (List.forall_mem_map.2 fun arrival ha => ?_)
  split
  · exact le_rfl
  · exact h arrival ha

theorem Arrivals.inner_nonneg {arrivals : Arrivals α} (h : ∀ arrival ∈ arrivals, 0 ≤ arrival.2)
    (device : α) : 0 ≤ arrivals.inner device := by
  refine List.sum_nonneg (List.forall_mem_map.2 fun arrival ha => ?_)
  split
  · exact h arrival ha
  · exact le_rfl

/-- If the delta is lower on a device than elsewhere, something comes from there. -/
theorem Arrivals.exists_of_gap_lt {arrivals : Arrivals α} {device other : α}
    (h : ∀ arrival ∈ arrivals, 0 ≤ arrival.2) (hlower : arrivals.gap device < arrivals.gap other) :
    ∃ arrival ∈ arrivals, arrival.1 = device ∧ 0 < arrival.2 := by
  by_contra hnone
  -- If nothing came from the device, its delta would be as high as it can be.
  have hinner : arrivals.inner device = 0 := by
    refine List.sum_eq_zero (List.forall_mem_map.2 fun arrival ha => ?_)
    split
    · next hd =>
      have hnot : ¬ 0 < arrival.2 := fun hpos => hnone ⟨arrival, ha, hd, hpos⟩
      exact le_antisymm (not_lt.1 hnot) (h arrival ha)
    · rfl
  have hother := inner_nonneg h other
  have htotal := arrivals.outer_add_inner device
  rw [← arrivals.outer_add_inner other] at htotal
  rw [gap, gap] at hlower
  omega

/-- What comes from elsewhere and what comes from the device itself is at most what
    the producers ship. -/
theorem outer_add_inner_le (hsizes : ∀ producer size, size? producer = some size → 0 ≤ size)
    (site : Nat → Option α) (producers : List Nat) (device : α) :
    (arrivals size? site producers).outer device + (arrivals size? site producers).inner device ≤
      shipping size? producers := by
  rw [Arrivals.outer_add_inner]
  induction producers with
  | nil => exact le_rfl
  | cons producer producers ih =>
    rw [arrivals_cons, List.map_append, List.sum_append, shipping, List.map_cons, List.sum_cons]
    refine add_le_add ?_ ih
    -- A producer without a device arrives nowhere, and this is why it is not an equation.
    rw [shipment?]
    cases hsize : size? producer with
    | none => exact le_rfl
    | some size =>
      cases site producer with
      | none => exact hsizes producer size hsize
      | some device => simp

/-- With fewer producers, less is shipped. -/
theorem shipping_le_of_sublist {producers more : List Nat} (h : producers.Sublist more)
    (hsizes : ∀ producer size, size? producer = some size → 0 ≤ size) :
    shipping size? producers ≤ shipping size? more := by
  refine sum_map_le_of_sublist h fun producer _ => ?_
  cases hsize : size? producer with
  | none => exact le_rfl
  | some size => exact hsizes producer size hsize

end Arrivals

namespace Traffic

variable {traffic : Traffic}

/-- A traffic can take one more arrival if both parts together have room for it. -/
theorem returns_add {device source : Nat} {size : Int64} (hexternal : 0 ≤ traffic.external.toInt)
    (hinternal : 0 ≤ traffic.internal.toInt) (hsize : 0 ≤ size.toInt)
    (hle : traffic.external.toInt + traffic.internal.toInt + size.toInt ≤ Int64.maxValue.toInt) :
    Returns (traffic.add device source size) := by
  rw [add]
  split
  · exact (returns_plus (by omega) (by omega)).bind fun _ _ => returns_pure _
  · exact (returns_plus (by omega) (by omega)).bind fun _ _ => returns_pure _

end Traffic

theorem Placement.returns_device {placement : Placement} {position : Nat}
    (h : position < placement.devices.length) : Returns (placement.device position) :=
  returns_row h

namespace PricedGraph

variable {priced : PricedGraph} {placement : Placement} {position : Nat}

theorem Tame.closed (h : priced.Tame) : priced.Closed :=
  ⟨h.costs, h.producers, h.producer_lt⟩

theorem Tame.shipping_nonneg (h : priced.Tame) (producers : List Nat) :
    0 ≤ shipping priced.size? producers :=
  shipping_le_of_sublist (List.nil_sublist producers) h.size_nonneg

/-- What comes in at one node is part of what all inputs ship. -/
theorem Tame.shipping_le_max (h : priced.Tame) (hp : position < priced.size) :
    shipping priced.size? (priced.producersOf position) ≤ Int64.maxValue.toInt :=
  (List.single_le_sum (List.forall_mem_map.2 fun _ _ => h.shipping_nonneg _) _
    (List.mem_map_of_mem (List.mem_range.2 hp))).trans h.shipping_le

/-- A traffic that was computed has no negative part. -/
theorem Tame.nonneg_of_traffic (h : priced.Tame) {device : Nat} {traffic : Traffic}
    (htraffic : priced.traffic placement position device = .ok traffic) :
    0 ≤ traffic.computeCost.toInt ∧ 0 ≤ traffic.external.toInt ∧ 0 ≤ traffic.internal.toInt := by
  obtain ⟨hcost, hexternal, hinternal⟩ := traffic_eq_ok htraffic
  have harrivals : ∀ arrival ∈ priced.arrivals placement position, 0 ≤ arrival.2 :=
    fun _ => nonneg_of_mem_arrivals h.size_nonneg
  rw [hcost, hexternal, hinternal]
  exact ⟨h.compute_nonneg position, Arrivals.outer_nonneg harrivals device,
    Arrivals.inner_nonneg harrivals device⟩

/-- A traffic without negative parts has a delta that fits. -/
theorem Tame.returns_delta (h : priced.Tame) {device : Nat} {traffic : Traffic}
    (htraffic : priced.traffic placement position device = .ok traffic) : Returns traffic.delta :=
  have hnonneg := h.nonneg_of_traffic htraffic
  returns_minus hnonneg.2.1 hnonneg.2.2

/-- An input can be added while all that was added and its own size fit together. -/
theorem Tame.returns_addInput (h : priced.Tame) (hl : placement.devices.length = priced.size)
    {device producer : Nat} {traffic : Traffic} (hp : producer < priced.size)
    (hexternal : 0 ≤ traffic.external.toInt) (hinternal : 0 ≤ traffic.internal.toInt)
    (hle : traffic.external.toInt + traffic.internal.toInt + (priced.size? producer).getD 0 ≤
      Int64.maxValue.toInt) : Returns (priced.addInput placement device traffic producer) := by
  refine (h.closed.returns_cost hp).bind fun cost hcost => ?_
  cases cost with
  | none => exact returns_pure traffic
  | some cost =>
    refine (Placement.returns_device (hl ▸ hp)).bind fun source _ => ?_
    cases source with
    | none => exact returns_pure traffic
    | some source =>
      have hsize : priced.size? producer = some cost.maxMemorySize.toInt := by
        rw [size?, cost_eq_ok hcost, Option.map_some]
      rw [hsize, Option.getD_some] at hle
      exact Traffic.returns_add hexternal hinternal (h.size_nonneg producer _ hsize) hle

/-- What comes in at one node fits, whichever device it is seen from. -/
theorem Tame.returns_traffic (h : priced.Tame) (hl : placement.devices.length = priced.size)
    (hp : position < priced.size) (device : Nat) :
    Returns (priced.traffic placement position device) := by
  refine (h.closed.returns_computeCost hp).bind fun cost _ => ?_
  refine (h.closed.returns_inputs hp).bind fun inputs hinputs => ?_
  refine returns_foldlM fun done producer traffic hdone htraffic => ?_
  rw [← inputs_eq_ok hinputs] at hdone
  -- The inputs so far, and this one with them, ship no more than all inputs do.
  have hgrown := foldlM_addInput_eq_ok htraffic
  have hexternal := hgrown.external
  have hinternal := hgrown.internal
  rw [Int64.toInt_zero, zero_add] at hexternal hinternal
  have harrivals : ∀ arrival ∈ DevicePlacement.arrivals priced.size? placement.site done,
      0 ≤ arrival.2 := fun _ => nonneg_of_mem_arrivals h.size_nonneg
  have hsum := outer_add_inner_le h.size_nonneg placement.site done device
  have hship := (shipping_le_of_sublist hdone.sublist h.size_nonneg).trans (h.shipping_le_max hp)
  rw [shipping, sum_map_concat, ← shipping] at hship
  have hmem : producer ∈ priced.producersOf position := mem_of_prefix_concat hdone
  refine h.returns_addInput hl (h.producer_lt position producer hmem) ?_ ?_ (by omega)
  · exact hexternal ▸ Arrivals.outer_nonneg harrivals device
  · exact hinternal ▸ Arrivals.inner_nonneg harrivals device

/-- What comes in from elsewhere is part of what the inputs ship. -/
theorem Tame.inflow_bounds (h : priced.Tame) (site : Nat → Option Nat) (position : Nat) :
    0 ≤ priced.inflow site position ∧
      priced.inflow site position ≤ shipping priced.size? (priced.producersOf position) := by
  cases hsite : site position with
  | none =>
    rw [inflow, hsite]
    exact ⟨le_rfl, h.shipping_nonneg _⟩
  | some device =>
    -- What comes from elsewhere is what comes in, less what comes from the device itself.
    have harrivals : ∀ arrival ∈ DevicePlacement.arrivals priced.size? site
        (priced.producersOf position), 0 ≤ arrival.2 :=
      fun _ => nonneg_of_mem_arrivals h.size_nonneg
    have hsum := outer_add_inner_le h.size_nonneg site (priced.producersOf position) device
    have houter := Arrivals.outer_nonneg harrivals device
    have hinner := Arrivals.inner_nonneg harrivals device
    rw [inflow_of_site hsite]
    exact ⟨houter, by omega⟩

/-- So does what comes in from elsewhere at all nodes. -/
theorem Tame.returns_totalExternal (h : priced.Tame)
    (hl : placement.devices.length = priced.size) : Returns (priced.totalExternal placement) := by
  -- The sum on the way is that of the first nodes, a part of what all inputs ship.
  refine returns_foldlM fun done position sum hdone hsum => ?_
  have hp : position < priced.size := List.mem_range.1 (mem_of_prefix_concat hdone)
  refine (Placement.returns_device (hl ▸ hp)).bind fun device hdevice => ?_
  cases device with
  | none => exact returns_pure sum
  | some device =>
    refine (h.returns_traffic hl hp device).bind fun traffic htraffic => ?_
    have hinflow : traffic.external.toInt = priced.inflow placement.site position := by
      rw [inflow_of_site (Placement.device_eq_ok_iff.1 hdevice).2]
      exact (traffic_eq_ok htraffic).2.1
    have hall := List.sum_le_sum fun other (_ : other ∈ List.range priced.size) =>
      (h.inflow_bounds placement.site other).2
    exact returns_plus_concat hdone (fun other _ => (h.inflow_bounds placement.site other).1)
      (hall.trans h.shipping_le) (foldlM_addExternal_eq_ok hsum) hinflow

end PricedGraph

/-! ## Loads -/

section loadOn

variable {α : Type} [DecidableEq α] {compute : Nat → Int}

/-- Without negative compute costs there are no negative loads. -/
theorem loadOn_nonneg (hcompute : ∀ position, 0 ≤ compute position) (site : Nat → Option α)
    (positions : List Nat) (device : α) : 0 ≤ loadOn compute site positions device := by
  refine List.sum_nonneg (List.forall_mem_map.2 fun position _ => ?_)
  split
  · exact hcompute position
  · exact le_rfl

/-- The load of a device is part of all compute costs. -/
theorem loadOn_le (hcompute : ∀ position, 0 ≤ compute position) (site : Nat → Option α)
    (positions : List Nat) (device : α) :
    loadOn compute site positions device ≤ (positions.map compute).sum := by
  refine List.sum_le_sum fun position _ => ?_
  split
  · exact le_rfl
  · exact hcompute position

end loadOn

/-- A checked total is the exact one. -/
theorem Checked.total_eq_ok {numbers : List Int64} {sum : Int64} (h : total numbers = .ok sum) :
    sum.toInt = (numbers.map Int64.toInt).sum := by
  refine foldlM_keeps_along
    (P := fun done sum => sum.toInt = (done.map Int64.toInt).sum) Int64.toInt_zero ?_ h
  intro done number _ sum next _ hsum hnext _
  rw [plus_eq_ok_iff.1 hnext, hsum, sum_map_concat]

/-- The sums of numbers fit 64 bits when they are added up from the first one on. -/
def Checked.PartialSumsFit (numbers : List Int64) : Prop :=
  ∀ done ∈ numbers.inits, Fits (done.map Int64.toInt).sum

instance (numbers : List Int64) : Decidable (PartialSumsFit numbers) :=
  List.decidableBAll _ _

/-- A total of numbers of either sign returns if no sum on the way is out of range. -/
theorem Checked.returns_total_of_fits {numbers : List Int64} (h : PartialSumsFit numbers) :
    Returns (total numbers) := by
  refine returns_foldlM fun done number sum hdone hsum => returns_plus_of_fits ?_
  rw [total_eq_ok hsum, ← sum_map_concat]
  exact h _ ((List.mem_inits _ _).2 hdone)

/-- A sum on the way that does not fit stops the addition there. -/
theorem Checked.total_of_not_fits {numbers : List Int64} (h : ¬ PartialSumsFit numbers) :
    total numbers = .error .addition := by
  refine foldlM_stops (fits_toInt 0) (fun done number sum hsum hfits => ?_)
    (fun done number sum hsum _ hnot => ?_) h
  · rw [sum_map_concat, ← total_eq_ok hsum] at hfits
    exact returns_plus_of_fits hfits
  · rw [sum_map_concat, ← total_eq_ok hsum] at hnot
    exact plus_of_not_fits hnot

/-- A total that is known is what the numbers are added up to, if they can be. -/
theorem Checked.total_eq_ite {numbers : List Int64} {sum : Int64}
    (h : (numbers.map Int64.toInt).sum = sum.toInt) :
    total numbers = if PartialSumsFit numbers then .ok sum else .error .addition := by
  split_ifs with hfits
  · obtain ⟨other, hother⟩ := returns_total_of_fits hfits
    rw [hother, Int64.toInt_inj.1 ((total_eq_ok hother).trans h)]
  · exact total_of_not_fits hfits

/-- The sums of numbers that are not negative fit if the last one does. -/
theorem Checked.partialSumsFit_of_nonneg {numbers : List Int64}
    (hnonneg : ∀ number ∈ numbers, 0 ≤ number.toInt)
    (hle : (numbers.map Int64.toInt).sum ≤ Int64.maxValue.toInt) : PartialSumsFit numbers := by
  intro done hdone
  have hpart : done <+: numbers := (List.mem_inits _ _).1 hdone
  have hsum : 0 ≤ (done.map Int64.toInt).sum :=
    List.sum_nonneg (List.forall_mem_map.2 fun number hn => hnonneg number (hpart.subset hn))
  have hmin : Int64.minValue.toInt ≤ 0 := by decide
  exact ⟨hmin.trans hsum, (sum_map_le_of_sublist hpart.sublist hnonneg).trans hle⟩

namespace Balance

variable {balance : Balance} {device : Nat}

theorem returns_load (hd : device < balance.loads.length) : Returns (balance.load device) :=
  returns_row hd

theorem returns_share (hd : device < balance.loads.length) : Returns (balance.share device) :=
  (returns_load hd).bind fun _ _ => returns_pure _

/-- A node can be added to a row of the table if its load and the total stay in range. -/
theorem returns_add {cost : Int64} (hd : device < balance.loads.length)
    (hload : 0 ≤ balance.loadOf device + cost.toInt)
    (hload' : balance.loadOf device + cost.toInt ≤ Int64.maxValue.toInt)
    (htotal : Returns (plus balance.total cost)) : Returns (balance.add device cost) := by
  refine (returns_load hd).bind fun load h => ?_
  rw [← (load_eq_ok h).2] at hload hload'
  refine (returns_plus hload hload').bind fun raised _ => ?_
  refine (returns_setRow hd raised).bind fun loads _ => ?_
  exact htotal.bind fun total _ => returns_pure _

/-- A move between two rows of the table, of which the second has room for it. -/
structure Allows (balance : Balance) (move : Relocation) : Prop where
  origin_lt : move.origin < balance.loads.length
  destination_lt : move.destination < balance.loads.length
  ne : move.destination ≠ move.origin
  cost_nonneg : 0 ≤ move.computeCost.toInt
  loads_nonneg : ∀ device, 0 ≤ balance.loadOf device
  raised_le : balance.loadOf move.destination + move.computeCost.toInt ≤ Int64.maxValue.toInt

variable {move : Relocation}

/-- A load that is not negative can be lowered by a cost that is not negative. -/
theorem Allows.returns_lowered (h : balance.Allows move) {load : Int64}
    (hload : balance.load move.origin = .ok load) : Returns (minus load move.computeCost) := by
  refine returns_minus ?_ h.cost_nonneg
  rw [(load_eq_ok hload).2]
  exact h.loads_nonneg move.origin

/-- The load of the destination has room for the node. -/
theorem Allows.returns_raised (h : balance.Allows move) {load : Int64}
    (hload : load.toInt = balance.loadOf move.destination) :
    Returns (plus load move.computeCost) := by
  have hnonneg := h.loads_nonneg move.destination
  have hcost := h.cost_nonneg
  have hle := h.raised_le
  exact returns_plus (by omega) (by omega)

/-- Whether the move is beneficial is never asked in vain. -/
theorem Allows.returns_isBeneficial (h : balance.Allows move) (hbefore : Returns move.before.delta)
    (hafter : Returns move.after.delta) : Returns (balance.isBeneficial move) := by
  refine hafter.bind fun after _ => hbefore.bind fun before _ => ?_
  split
  · exact returns_pure false
  refine (returns_load h.origin_lt).bind fun load hload => ?_
  refine (h.returns_lowered hload).bind fun origin _ => ?_
  split
  · exact returns_pure false
  refine (returns_load h.destination_lt).bind fun load hload => ?_
  exact (h.returns_raised (load_eq_ok hload).2).bind fun destination _ => returns_pure _

/-- Nor does making it fail. -/
theorem Allows.returns_apply (h : balance.Allows move) : Returns (balance.apply move) := by
  refine (returns_load h.origin_lt).bind fun load hload => ?_
  refine (h.returns_lowered hload).bind fun lowered _ => ?_
  refine (returns_setRow h.origin_lt lowered).bind fun loads hloads => ?_
  obtain ⟨_, rfl⟩ := setRow_eq_ok_iff.1 hloads
  have hd : move.destination < (balance.loads.set move.origin lowered).length := by
    rw [List.length_set]
    exact h.destination_lt
  refine (returns_row hd).bind fun load' hload' => ?_
  -- The row of the destination is not the one that was lowered.
  have hload' : load'.toInt = balance.loadOf move.destination := by
    rw [row_eq_ok_iff, List.getElem?_set_ne h.ne.symm] at hload'
    rw [loadOf, hload', Option.map_some, Option.getD_some]
  refine (h.returns_raised hload').bind fun raised _ => ?_
  exact (returns_setRow hd raised).bind fun loads _ => returns_pure _

/-- Loads that add up to the total pass the check that they do, if it can add them up. -/
theorem isConserved_eq_ite (hsum : balance.sum = balance.total.toInt) :
    balance.isConserved =
      if PartialSumsFit balance.loads then .ok true else .error .addition := by
  rw [isConserved, total_eq_ite hsum]
  split_ifs with hfits
  · exact congrArg Except.ok (decide_eq_true rfl)
  · rfl

/-- Loads that are not negative can be added up. -/
theorem isConserved_of_sum (hnonneg : ∀ device, 0 ≤ balance.loadOf device)
    (hsum : balance.sum = balance.total.toInt) : balance.isConserved = .ok true := by
  have hloads : ∀ load ∈ balance.loads, 0 ≤ load.toInt := by
    intro load hload
    obtain ⟨device, hd, rfl⟩ := List.getElem_of_mem hload
    have hrow := hnonneg device
    rwa [loadOf, List.getElem?_eq_getElem hd, Option.map_some, Option.getD_some] at hrow
  have hfits : PartialSumsFit balance.loads :=
    partialSumsFit_of_nonneg hloads (hsum.trans_le (Int64.toInt_le balance.total))
  rw [isConserved_eq_ite hsum, if_pos hfits]

end Balance

/-! ## Writing back -/

namespace Placement

variable {placement : Placement} {roster : Roster}

theorem returns_assign {position : Nat} (h : position < placement.devices.length) (device : Nat) :
    Returns (placement.assign position device) :=
  (returns_setRow h (some device)).bind fun _ _ => returns_pure _

/-- A placement whose sites have names can be written back. -/
theorem Within.returns_place (h : placement.Within roster) (graph : Graph) :
    Returns (placement.place roster graph) := by
  refine (returns_mapM fun row hrow => ?_).bind fun _ _ => returns_pure _
  obtain ⟨node, device⟩ := row
  cases device with
  | none => exact ⟨node, rfl⟩
  | some device =>
    obtain ⟨position, hlt, hget⟩ := List.getElem_of_mem (List.of_mem_zip hrow).2
    have hsite : placement.site position = some device := by
      rw [site, List.getElem?_eq_getElem hlt, hget, Option.join_some]
    exact (returns_row (h position device hsite)).bind fun name _ => returns_pure _

end Placement

end DevicePlacement

import DevicePlacement.Proofs.Containment
import DevicePlacement.Proofs.Lists
import DevicePlacement.Proofs.Placement.Safety

/-!
# Assigned nodes

A node with the empty device name is not assigned. Placement never assigns such a node,
and it never takes a node from its device without giving it to another one. But nothing
keeps an inventory from having a device with the empty name, and a node that goes there
looks like one that is not assigned:

* a collapse sends all eligible nodes there if it is the first device that is not pinned;
* a sweep may send nodes there only if some node ships a negative size. Otherwise a device
  without nodes is never better than another (`Sweep.Task.Finished.named`), and no node is
  assigned to that one at the start.

In all other cases the nodes that are assigned are the same before and after
(`Placer.sameAssigned_of_place`).
-/

namespace DevicePlacement

open Checked Function

/-- The same nodes are assigned. -/
def Graph.SameAssigned (graph placed : Graph) : Prop :=
  placed.nodes.map Node.isAssigned = graph.nodes.map Node.isAssigned

instance (graph placed : Graph) : Decidable (graph.SameAssigned placed) :=
  inferInstanceAs (Decidable (_ = _))

/-- Nodes that are assigned stay assigned. -/
def StayAssigned (nodes placed : List Node) : Prop :=
  List.Forall₂ (fun node placed => node.device ≠ "" → placed.device ≠ "") nodes placed

variable {catalog : OpCatalog} {knobs : Knobs} {devices : List String} {graph placed : Graph}

theorem StayAssigned.refl (nodes : List Node) : StayAssigned nodes nodes :=
  List.forall₂_same.2 fun _ _ => id

/-- Placement never assigns a node that is not assigned. -/
theorem Graph.MayBecome.sameAssigned (h : graph.MayBecome catalog knobs devices placed)
    (hstay : StayAssigned graph.nodes placed.nodes) : graph.SameAssigned placed := by
  refine map_eq_map_of_forall₂ (h.nodes.mp (fun node placed hnode hstay => ?_) hstay)
  rw [Node.isAssigned, Node.isAssigned, Bool.eq_iff_iff, decide_eq_true_iff, decide_eq_true_iff]
  refine ⟨fun hplaced hempty => ?_, hstay⟩
  have hmove := hnode.moved (by rwa [hempty])
  exact hmove.assigned hempty

/-- A collapse assigns nodes to the default device only, so this must not be the one without a
    name. -/
theorem Collapse.stayAssigned_run
    (h : PinnedPattern.defaultDevice? ⟨knobs.pinnedDevicePattern⟩ devices ≠ some "") :
    StayAssigned graph.nodes (run catalog knobs graph devices).graph.nodes := by
  rw [run]
  split
  · exact .refl graph.nodes
  · next device hdevice =>
    refine List.forall₂_map_right_iff.2 (List.forall₂_same.2 fun node _ hassigned => ?_)
    rw [placeNode]
    split
    · rintro rfl
      exact h hdevice
    · exact hassigned

/-! ## Sweeps -/

namespace Sweep.Task

variable {task : Task} {before : Balance} {final : State} {result : Result}

/-- All nodes that are assigned are on devices with a name. -/
def Named (task : Task) (placement : Placement) : Prop :=
  ∀ position device, placement.site position = some device → task.roster.nameOf device ≠ ""

/-- Before the sweep only nodes with a device are enrolled on one. -/
theorem named_placement (task : Task) : task.Named task.placement := by
  intro position device hsite
  have hname := task.siteName_placement position
  rw [Placement.siteName, hsite, Option.map_some, eq_comm, Option.bind_eq_some_iff] at hname
  obtain ⟨node, _, hnode⟩ := hname
  rw [Node.site?, Option.ite_none_right_eq_some, Option.some_inj] at hnode
  rw [← hnode.2]
  exact of_decide_eq_true hnode.1

variable (hsizes : "" ∈ task.devices →
  ∀ cost ∈ task.estimate.nodes.values, 0 ≤ cost.maxMemorySize.toInt)

include hsizes

/-- No hop goes to the device without a name. -/
theorem named_of_hop {placement : Placement} {position origin candidate : Nat}
    {visit next : Visit} (h : task.Named placement) (hc : candidate ∈ task.sweep.candidates)
    (hgap : visit.traffic.gap = (task.sweep.priced.arrivals placement position).gap visit.current)
    (hhop : task.sweep.Hop placement position origin candidate visit next) :
    task.roster.nameOf candidate ≠ "" := by
  intro hname
  obtain ⟨hmem, _⟩ := nameOf_candidate hc
  rw [hname] at hmem
  have hnonneg : ∀ arrival ∈ task.sweep.priced.arrivals placement position, 0 ≤ arrival.2 :=
    fun arrival ha => nonneg_of_mem_arrivals (fun _ _ => PricedGraph.size?_nonneg (hsizes hmem)) ha
  have himproves := hhop.improves.1
  rw [hgap] at himproves
  -- Something would have to come from the candidate, but no node is there.
  obtain ⟨arrival, ha, rfl, _⟩ := Arrivals.exists_of_gap_lt hnonneg himproves
  obtain ⟨producer, _, _, hsite⟩ := mem_arrivals.1 ha
  exact h producer _ hsite hname

/-- A visit only moves a node to lower its delta. If no output has a negative size, that is
    never the case on the device without a name, where no node is. -/
theorem named_of_visited {state next : State} {position : Nat} (h : task.Named state.placement)
    (hv : task.sweep.Visited state position next) : task.Named next.placement := by
  cases hv with
  | unassigned _ => exact h
  | pinned _ _ => exact h
  | @searched origin visit next hs =>
    have hvisit := search_keeps
      (P := fun visit => task.roster.nameOf visit.current ≠ "" ∧ visit.traffic.gap =
        (task.sweep.priced.arrivals state.placement position).gap visit.current)
      (fun visit next candidate hc hP hhop => by
        rw [hhop.current]
        exact ⟨named_of_hop hsizes h hc hP.2 hhop, hhop.gap_eq⟩)
      (fun traffic htraffic => ⟨h _ _ hs.site, PricedGraph.gap_of_traffic htraffic⟩) hs.search
    intro other device hsite
    rw [hs.site_next, update_apply] at hsite
    split at hsite
    · cases hsite
      exact hvisit.1
    · exact h other device hsite

/-- By induction on the visits, no node ends on the device without a name. -/
theorem Finished.named (hf : task.Finished before final result) : task.Named final.placement :=
  visitAll_keeps (P := fun state => task.Named state.placement)
    (fun _ _ _ _ h hv => named_of_visited hsizes h hv) task.named_placement hf.swept

/-- A sweep does not take the device of a node away. -/
theorem stayAssigned_of_run (h : task.run = .ok result) :
    StayAssigned task.graph.nodes result.graph.nodes := by
  obtain ⟨before, final, hf⟩ := run_eq_ok h
  rw [hf.graph_eq hf.inv.length]
  refine List.forall₂_iff_get.2 ⟨List.length_mapIdx.symm, fun position _ _ hassigned => ?_⟩
  rw [List.get_eq_getElem, List.getElem_mapIdx, Node.moveTo, Placement.siteName]
  rw [List.get_eq_getElem] at hassigned
  cases hsite : final.placement.site position with
  | none => exact hassigned
  | some device => exact hf.named hsizes position device hsite

end Sweep.Task

/-! ## Placers -/

namespace Placer

variable {placer : Placer} {estimate : Estimate}

/-- Neither pass of the placer sends nodes to a device without a name: the inventory does
    not begin with it when graphs collapse, and no size is negative when they are swept. -/
structure NamesTargets (placer : Placer) (devices : List String) (estimate : Estimate) : Prop where
  collapse : estimate.nodes.isEmpty ∨ placer.knobs.strategy = .defaultDevice →
    PinnedPattern.defaultDevice? ⟨placer.knobs.pinnedDevicePattern⟩ devices ≠ some ""
  sweep : ¬ (estimate.nodes.isEmpty ∨ placer.knobs.strategy = .defaultDevice) → "" ∈ devices →
    ∀ cost ∈ estimate.nodes.values, 0 ≤ cost.maxMemorySize.toInt

/-- Nor does either pass of the placer. -/
theorem stayAssigned_of_treats {nodes : List Node} (hnames : placer.NamesTargets devices estimate)
    (h : placer.Treats graph devices estimate nodes) : StayAssigned graph.nodes nodes := by
  cases h with
  | left => exact .refl graph.nodes
  | collapsed hcollapse => exact Collapse.stayAssigned_run (hnames.collapse hcollapse)
  | swept hsweep hrun => exact Sweep.Task.stayAssigned_of_run (hnames.sweep hsweep) hrun

/-- A placer that finds every graph worth the effort and every balance good enough. -/
def eager : Placer :=
  ⟨Knobs.alwaysOptimize.withComputeMargin 1, OpRegistry.standard.catalog, by decide +kernel⟩

/-- The same nodes are assigned before and after placement, as long as neither pass sends
    nodes to a device without a name. -/
theorem sameAssigned_of_place {σ : Type} [Estimator σ] {cluster : Cluster}
    {estimator prepared next : σ} {placed : Placed}
    (hprepare : Estimator.prepare estimator graph = .ok prepared)
    (hpredict : Estimator.predict prepared graph = .ok estimate)
    (hnames : placer.NamesTargets cluster.names estimate)
    (h : placer.place cluster estimator graph = .ok (placed, next)) :
    graph.SameAssigned placed.graph := by
  -- What the placer asks its estimator is answered as in the assumptions.
  obtain ⟨prepared', hprepare', h⟩ := bind_eq_ok.1 h
  cases hprepare.symm.trans hprepare'
  obtain ⟨estimate', hpredict', h⟩ := bind_eq_ok.1 h
  cases hpredict.symm.trans hpredict'
  obtain ⟨placed', hplaced, h⟩ := bind_eq_ok.1 h
  cases h
  -- No node is assigned that was not, and none loses its device.
  cases hp : placer.placeEstimated graph cluster.names estimate with
  | error fault => rw [hp] at hplaced; cases hplaced
  | ok placed' =>
    rw [hp] at hplaced
    cases hplaced
    exact (mayBecome_of_placeEstimated hp).sameAssigned
      (stayAssigned_of_treats hnames (placeEstimated_eq_ok hp).1)

/-- Here the device without a name is a candidate in every visit, and comes to nothing. -/
theorem sameAssigned_of_place_relay : ∃ prepared estimate placed next,
    Estimator.prepare (⟨Sweep.Task.relay.estimate.nodes, none⟩ : CostTable)
      Sweep.Task.relay.graph = .ok prepared ∧
    Estimator.predict prepared Sweep.Task.relay.graph = .ok estimate ∧
    eager.NamesTargets ("" :: Sweep.Task.relay.devices) estimate ∧
    eager.place (.ofNames ("" :: Sweep.Task.relay.devices))
      (⟨Sweep.Task.relay.estimate.nodes, none⟩ : CostTable) Sweep.Task.relay.graph =
        .ok (placed, next) ∧
    Sweep.Task.relay.graph.SameAssigned placed.graph ∧ placed.report.moved = 2 := by
  let table : CostTable := ⟨Sweep.Task.relay.estimate.nodes, none⟩
  let prepared := table.prepare Sweep.Task.relay.graph
  have hprepare : Estimator.prepare table Sweep.Task.relay.graph = .ok prepared := rfl
  have hsizes : (Estimator.predict prepared Sweep.Task.relay.graph).toOption.map
      (fun estimate => (estimate.nodes.isEmpty,
        decide (∀ cost ∈ estimate.nodes.values, 0 ≤ cost.maxMemorySize.toInt))) =
          some (false, true) := by
    decide +kernel
  have hmoved : (eager.place (.ofNames ("" :: Sweep.Task.relay.devices)) table
      Sweep.Task.relay.graph).toOption.map (fun outcome => outcome.1.report.moved) = some 2 := by
    decide +kernel
  obtain ⟨estimate, hpredict, hsizes⟩ := exists_ok_of_toOption hsizes
  obtain ⟨⟨placed, next⟩, hplace, hmoved⟩ := exists_ok_of_toOption hmoved
  obtain ⟨hsome, hsizes⟩ := Prod.mk.inj hsizes
  have hnames : eager.NamesTargets ("" :: Sweep.Task.relay.devices) estimate := {
    collapse := by
      rintro (hnone | hstrategy)
      · exact absurd (hsome.symm.trans hnone) Bool.false_ne_true
      · cases hstrategy
    sweep := fun _ _ => of_decide_eq_true hsizes }
  exact ⟨prepared, estimate, placed, next, hprepare, hpredict, hnames, hplace,
    sameAssigned_of_place hprepare hpredict hnames hplace, hmoved⟩

/-- A collapse sends the eligible nodes to the first device that is not pinned, even if it
    has no name. -/
theorem sameAssigned_can_fail : ∃ placed next,
    eager.place (.ofNames [""]) CostTable.empty (.ofNodes [⟨"a", "MatMul", "dev0", []⟩]) =
      .ok (placed, next) ∧
    ¬ (Graph.ofNodes [⟨"a", "MatMul", "dev0", []⟩]).SameAssigned placed.graph := by
  have hrun : (eager.place (.ofNames [""]) CostTable.empty
      (.ofNodes [⟨"a", "MatMul", "dev0", []⟩])).toOption.map (fun outcome =>
        decide ((Graph.ofNodes [⟨"a", "MatMul", "dev0", []⟩]).SameAssigned outcome.1.graph)) =
          some false := by
    decide +kernel
  obtain ⟨⟨placed, next⟩, h, hdiffer⟩ := exists_ok_of_toOption hrun
  exact ⟨placed, next, h, of_decide_eq_false hdiffer⟩

/-- A sweep sends a node there to be away from a producer that ships a negative size. -/
example : (eager.place (.ofNames ["dev0", ""])
    (⟨.ofList [("p", .ofCompute 0 (-10)), ("c", .ofCompute 1 0)], none⟩ : CostTable)
    (.ofNodes [⟨"p", "Const", "dev0", []⟩, ⟨"c", "Add", "dev0", [.data "p" 0]⟩])).toOption.map
      (fun outcome => outcome.1.graph.nodes.map Node.device) = some ["dev0", ""] := by
  decide +kernel

end Placer

end DevicePlacement

import DevicePlacement.Proofs.Containment
import DevicePlacement.Proofs.Placement.External
import DevicePlacement.Proofs.Placement.Renaming
import DevicePlacement.Proofs.Placement.Safety

/-!
# Sweeping again

A sweep of the graph that another sweep has returned (`Task.resume`) works everything out
anew: which nodes are eligible, the numbers of the devices, the loads and the traffic. It
begins with the figures that the first sweep has ended with (`Task.continues_of_run`):

* a node that was moved is as eligible as before (`Task.positions_resume`): it has come
  from a device that is not pinned to one that is not pinned;
* devices may have other numbers, and some may be missing, but the loads and the external
  traffic are the same by name (`Task.Finished.external_resume`).

The inventory must not have a device without a name, because a node there would pass for
one that is not assigned.
-/

namespace DevicePlacement

open Checked

/-! ## Moved nodes -/

variable {catalog : OpCatalog} {knobs : Knobs} {devices : List String}

/-- A node that may move and is on a device that is not pinned is eligible under either policy. -/
theorem Node.isEligible_of_unpinned {node : Node}
    (hstateless : ∃ traits, catalog node.op = some traits ∧ traits.isStateful = false)
    (hrelocatable : node.op ∈ knobs.relocatableOps) (hassigned : node.device ≠ "")
    (hunpinned : PinnedPattern.isPinned ⟨knobs.pinnedDevicePattern⟩ node.device = false) :
    (Eligibility.ofKnobs catalog knobs ⟨knobs.pinnedDevicePattern⟩).isEligible node = true :=
  Eligibility.isEligible_iff.2 ⟨⟨hstateless, List.contains_iff_mem.2 hrelocatable⟩,
    decide_eq_true hassigned, fun _ => hunpinned⟩

/-- A node that was moved is as eligible as before. -/
theorem Node.MayBecome.isEligible_eq {node placed : Node} (hempty : "" ∉ devices)
    (h : node.MayBecome catalog knobs devices placed) :
    (Eligibility.ofKnobs catalog knobs ⟨knobs.pinnedDevicePattern⟩).isEligible placed =
      (Eligibility.ofKnobs catalog knobs ⟨knobs.pinnedDevicePattern⟩).isEligible node := by
  by_cases hdevice : placed.device = node.device
  · rw [Bool.eq_iff_iff, Eligibility.isEligible_iff, Eligibility.isEligible_iff, h.op,
      Node.isAssigned, Node.isAssigned, hdevice]
  · have hmove := h.moved hdevice
    have htarget : placed.device ≠ "" := fun he => hempty (he ▸ hmove.target_mem)
    rw [isEligible_of_unpinned hmove.stateless hmove.relocatable hmove.assigned hmove.unpinned]
    refine isEligible_of_unpinned ?_ ?_ htarget hmove.target_unpinned
    · rw [h.op]
      exact hmove.stateless
    · rw [h.op]
      exact hmove.relocatable

/-- The tables of a priced graph do not depend on where the nodes are. -/
theorem PricedGraph.external_of_mayBecome {graph placed : Graph} {estimate : Estimate}
    (h : graph.MayBecome catalog knobs devices placed) (site : Nat → Option String) :
    (ofGraph placed estimate).external site = (ofGraph graph estimate).external site := by
  have hnames : List.Forall₂ (fun node placed => placed.name = id node.name) graph.nodes
      placed.nodes := h.nodes.imp fun _ _ hnode => hnode.name
  have hsize : (ofGraph placed estimate).size = (ofGraph graph estimate).size :=
    h.nodes.length_eq.symm
  have hcosts : (ofGraph placed estimate).costs = (ofGraph graph estimate).costs :=
    map_eq_map_of_forall₂ (hnames.imp fun node placed hname => congrArg estimate.cost? hname)
  have hproducers : (ofGraph placed estimate).producers = (ofGraph graph estimate).producers := by
    rw [producers_ofGraph, producers_ofGraph]
    refine map_eq_map_of_forall₂ (h.nodes.imp fun node placed hnode => ?_)
    have hid : Set.InjOn id (Set.univ : Set String) := Set.injOn_id _
    refine Graph.producers_of_names hnames hid (fun _ _ => Set.mem_univ _)
      (fun _ _ => Set.mem_univ _) ?_
    rw [Node.dataInputs, hnode.inputs, List.map_id, Node.dataInputs]
  have hsizes : (ofGraph placed estimate).size? = (ofGraph graph estimate).size? := by
    funext position
    rw [size?, size?, cost?, cost?, hcosts]
  simp only [external, inflow, producersOf, hsize, hsizes, hproducers]

namespace Sweep

/-- A result takes up where another one ends. -/
structure Result.Continues (first second : Result) : Prop where
  eligible : second.eligible = first.eligible
  totalComputeCost : second.totalComputeCost = first.totalComputeCost
  idealShare : second.idealShare = first.idealShare
  externalBefore : second.externalBefore = first.externalAfter
  /-- There are no new devices. -/
  known : ∀ row ∈ second.deviceLoads, row.device ∈ first.deviceLoads.map DeviceLoad.device
  loadBefore : ∀ row ∈ first.deviceLoads, ∀ row' ∈ second.deviceLoads,
    row'.device = row.device → row'.loadBefore = row.loadAfter
  /-- A device that is missing had no load left. -/
  missing : ∀ row ∈ first.deviceLoads,
    row.device ∉ second.deviceLoads.map DeviceLoad.device → row.loadAfter = 0

namespace Task

variable {task : Task} {before : Balance} {final : State} {result : Result}

/-- The same task for the graph of a result. -/
def resume (task : Task) (result : Result) : Task :=
  { task with graph := result.graph }

/-- The same nodes are eligible in the graph that is returned. -/
theorem positions_resume (hempty : "" ∉ task.devices) (h : task.run = .ok result) :
    (task.resume result).positions = task.positions :=
  map_snd_filter_zipIdx_eq ((mayBecome_of_run h).nodes.imp fun _ _ hnode =>
    hnode.isEligible_eq hempty) 0

/-- They have the same compute costs, as they have the same names. -/
theorem compute_resume (h : task.run = .ok result) :
    (task.resume result).compute = task.compute := by
  have hcosts : result.graph.nodes.map task.estimate.compute =
      task.graph.nodes.map task.estimate.compute :=
    map_eq_map_of_forall₂ ((mayBecome_of_run h).nodes.imp fun _ _ hnode =>
      (Estimate.eq_of_name hnode.name).1)
  funext position
  rw [compute, compute, ← List.getElem?_map, ← List.getElem?_map]
  exact congrArg (fun costs : List Int => costs[position]?.getD 0) hcosts

/-- So shares are measured as before. -/
theorem scale_resume (hempty : "" ∉ task.devices) (h : task.run = .ok result) :
    (task.resume result).scale = task.scale := by
  rw [scale, scale, positions_resume hempty h, compute_resume h]
  rfl

theorem Finished.idealShare_eq (hf : task.Finished before final result) :
    result.idealShare = task.scale.idealShare :=
  hf.idealShare.trans (congrArg Scale.idealShare hf.inv.accounts.scale)

/-- Without the empty name in the inventory, no device of the roster has it. -/
theorem ne_empty_of_mem_roster (hempty : "" ∉ task.devices) {name : String}
    (h : name ∈ task.roster.names) : name ≠ "" := by
  rintro rfl
  rcases mem_names_roster.1 h with hname | ⟨node, _, hsite⟩
  · exact hempty hname
  · rw [Node.site?, Option.ite_none_right_eq_some, Option.some_inj] at hsite
    exact of_decide_eq_true hsite.1 hsite.2

/-- The nodes of the returned graph are assigned where the sweep has put them. -/
theorem Finished.site?_graph (hf : task.Finished before final result)
    (hempty : "" ∉ task.devices) (position : Nat) :
    (result.graph.nodes[position]?).bind Node.site? =
      final.placement.siteName task.roster position := by
  rw [hf.graph_eq hf.inv.length, List.getElem?_mapIdx]
  cases hnode : task.graph.nodes[position]? with
  | none =>
    rw [List.getElem?_eq_none_iff, ← hf.inv.length] at hnode
    rw [Placement.siteName, Placement.site_of_length_le hnode]
    rfl
  | some node =>
    rw [Option.map_some, Option.bind_some]
    cases hsite : final.placement.site position with
    | none =>
      -- The node was not assigned from the start.
      have hstart := task.siteName_placement position
      have hnone := hf.inv.assigned position
      rw [hsite, Option.isSome_none, eq_comm, Option.isSome_eq_false_iff, Option.isNone_iff_eq_none]
        at hnone
      rw [Placement.siteName, hnone, hnode, Option.bind_some] at hstart
      rw [Placement.siteName, hsite]
      exact hstart.symm
    | some device =>
      have hname := Roster.nameOf_mem (hf.inv.within position device hsite)
      rw [Placement.siteName, hsite, Option.map_some, Node.moveTo, Option.getD_some, Node.site?,
        Node.isAssigned, if_pos (decide_eq_true (ne_empty_of_mem_roster hempty hname))]

/-- The external traffic at the second start is that at the first end. -/
theorem Finished.external_resume (hf : task.Finished before final result)
    (hempty : "" ∉ task.devices) (h : task.run = .ok result) :
    (task.resume result).sweep.priced.external (task.resume result).placement.site =
      task.sweep.priced.external final.placement.site := by
  have hnames : (task.resume result).placement.siteName (task.resume result).roster =
      final.placement.siteName task.roster := by
    funext position
    rw [siteName_placement, ← hf.site?_graph hempty]
    rfl
  rw [← PricedGraph.external_siteName (task.resume result).nodup_names_roster
      (task.resume result).within_placement,
    ← PricedGraph.external_siteName task.nodup_names_roster hf.inv.within, hnames]
  exact PricedGraph.external_of_mayBecome (mayBecome_of_run h) _

/-- There are no new devices in the graph of a result. -/
theorem Finished.names_resume (hf : task.Finished before final result)
    (hempty : "" ∉ task.devices) {name : String}
    (h : name ∈ (task.resume result).roster.names) : name ∈ task.roster.names := by
  rcases mem_names_roster.1 h with hname | ⟨node, hnode, hsite⟩
  · exact mem_names_roster.2 (.inl hname)
  · obtain ⟨position, hnode⟩ := List.mem_iff_getElem?.1 hnode
    have hname := hf.site?_graph hempty position
    rw [show result.graph.nodes[position]? = some node from hnode, Option.bind_some, hsite,
      Placement.siteName, eq_comm, Option.map_eq_some_iff] at hname
    obtain ⟨device, hdevice, rfl⟩ := hname
    exact Roster.nameOf_mem (hf.inv.within position device hdevice)

/-- A device with an eligible node is one of the graph of the result. -/
theorem Finished.mem_resume (hf : task.Finished before final result)
    (hempty : "" ∉ task.devices) {position : Nat} (hp : position ∈ task.positions) {name : String}
    (h : result.graph.deviceAt position = some name) :
    name ∈ (task.resume result).roster.names := by
  rw [hf.deviceAt_graph hp, ← hf.site?_graph hempty, Option.bind_eq_some_iff] at h
  obtain ⟨node, hnode, hsite⟩ := h
  exact mem_names_roster.2 (.inr ⟨node, List.mem_of_getElem? hnode, hsite⟩)

/-- A second sweep takes up where the first one ends. -/
theorem continues_of_run {second : Result} (hempty : "" ∉ task.devices)
    (h : task.run = .ok result) (h' : (task.resume result).run = .ok second) :
    result.Continues second := by
  obtain ⟨before, final, hf⟩ := run_eq_ok h
  obtain ⟨before', final', hs⟩ := run_eq_ok h'
  -- Each quantity of the second run is told by its own start, which is the end of the first one.
  have hscale := scale_resume hempty h
  refine ⟨?_, ?_, ?_, ?_, ?_, ?_, ?_⟩
  · rw [hs.eligible, hf.eligible, positions_resume hempty h]
  · rw [← Int64.toInt_inj, hs.totalComputeCost_eq, hf.totalComputeCost_eq, hscale]
  · rw [hs.idealShare_eq, hf.idealShare_eq, hscale]
  · rw [← Int64.toInt_inj, PricedGraph.totalExternal_eq_ok hs.externalBefore,
      PricedGraph.totalExternal_eq_ok hf.externalAfter, hf.external_resume hempty h]
  · intro row hrow
    have hname := List.mem_map_of_mem (f := DeviceLoad.device) hrow
    rw [hs.map_device] at hname
    rw [hf.map_device]
    exact hf.names_resume hempty hname
  · intro row hrow row' hrow' hdevice
    rw [← Int64.toInt_inj, hs.loadBefore hrow', hf.loadAfter hrow, hdevice, compute_resume h,
      positions_resume hempty h]
    rfl
  · intro row hrow hmissing
    rw [hs.map_device] at hmissing
    rw [← Int64.toInt_inj, hf.loadAfter hrow, Int64.toInt_zero]
    exact loadOn_eq_zero fun position hp hat => hmissing (hf.mem_resume hempty hp hat)

/-- The device `dev9` is missing in the second sweep, as its only node has left it. -/
theorem continues_of_run_relay : ∃ first second, "" ∉ relay.devices ∧ relay.run = .ok first ∧
    (relay.resume first).run = .ok second ∧ first.Continues second ∧
    second.deviceLoads.map (fun row => (row.device, row.loadBefore)) =
      [("dev0", 0), ("CPU", 0), ("dev1", 0), ("dev2", 7)] := by
  have hempty : "" ∉ relay.devices := by decide
  have hrun : relay.run.toOption.map (fun first => (relay.resume first).run.toOption.map
      fun second => second.deviceLoads.map fun row => (row.device, row.loadBefore)) =
        some (some [("dev0", 0), ("CPU", 0), ("dev1", 0), ("dev2", 7)]) := by
    decide +kernel
  obtain ⟨first, h, hrun⟩ := exists_ok_of_toOption hrun
  obtain ⟨second, h', hrows⟩ := exists_ok_of_toOption hrun
  exact ⟨first, second, hempty, h, h', continues_of_run hempty h h', hrows⟩

end Task

end Sweep

end DevicePlacement

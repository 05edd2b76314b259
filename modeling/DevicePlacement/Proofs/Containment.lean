import DevicePlacement.Cost.Table
import DevicePlacement.Placer
import DevicePlacement.Proofs.Sweep.Loads

/-!
# What placement may change

Placement changes nothing of a graph but the devices of its nodes, and only moves
nodes that may move, from a device that is not pinned to a device of the inventory
that is not pinned (`Graph.MayBecome`). This holds of a collapse
(`Collapse.mayBecome_run`), of a sweep (`Sweep.Task.mayBecome_of_run`), and so of
whatever a placer does (`Placer.contained_of_place`).

A sweep under the lenient policy has nodes on pinned devices among those it visits.
That it never moves one is part of the invariant of the sweep (`Sweep.Task.Kept`):
a node is where it was, or it was on a device that is not pinned and is now on a
candidate.
-/

namespace DevicePlacement

open Checked Function

variable {catalog : OpCatalog} {knobs : Knobs} {devices : List String}

/-- What it takes to move a node to another device. -/
structure Node.MayMove (catalog : OpCatalog) (knobs : Knobs) (devices : List String) (node : Node)
    (target : String) : Prop where
  /-- Its op type is known and holds no state. -/
  stateless : ∃ traits, catalog node.op = some traits ∧ traits.isStateful = false
  relocatable : node.op ∈ knobs.relocatableOps
  assigned : node.device ≠ ""
  unpinned : PinnedPattern.isPinned ⟨knobs.pinnedDevicePattern⟩ node.device = false
  /-- It goes to a device of the inventory. -/
  target_mem : target ∈ devices
  target_unpinned : PinnedPattern.isPinned ⟨knobs.pinnedDevicePattern⟩ target = false

/-- What may become of a node. -/
structure Node.MayBecome (catalog : OpCatalog) (knobs : Knobs) (devices : List String)
    (node placed : Node) : Prop where
  name : placed.name = node.name
  op : placed.op = node.op
  inputs : placed.inputs = node.inputs
  moved : placed.device ≠ node.device → node.MayMove catalog knobs devices placed.device

/-- What may become of a graph. -/
structure Graph.MayBecome (catalog : OpCatalog) (knobs : Knobs) (devices : List String)
    (graph placed : Graph) : Prop where
  id : placed.id = graph.id
  versions : placed.versions = graph.versions
  /-- Its nodes are as many as before, in the same order. -/
  nodes : List.Forall₂ (Node.MayBecome catalog knobs devices) graph.nodes placed.nodes

theorem Node.MayBecome.refl (node : Node) : node.MayBecome catalog knobs devices node :=
  ⟨rfl, rfl, rfl, fun h => absurd rfl h⟩

/-- A node that is put elsewhere keeps all but its device, and so only the move needs a reason. -/
theorem Node.mayBecome_moveTo {node : Node} {device : Option String}
    (h : ∀ target, device = some target → target ≠ node.device →
      node.MayMove catalog knobs devices target) :
    node.MayBecome catalog knobs devices (node.moveTo device) := by
  cases device with
  | none => exact .refl node
  | some target => exact ⟨rfl, rfl, rfl, h target rfl⟩

theorem Graph.MayBecome.refl (graph : Graph) : graph.MayBecome catalog knobs devices graph :=
  ⟨rfl, rfl, List.forall₂_same.2 fun node _ => .refl node⟩

/-- A node may move if it is eligible and its device is not pinned, whatever the
    policy. -/
theorem Node.mayMove_of_eligible {eligibility : Eligibility} {node : Node} {target : String}
    (hcatalog : eligibility.catalog = catalog)
    (hrelocatable : eligibility.isRelocatable = knobs.isRelocatable)
    (h : eligibility.isEligible node = true)
    (hpinned : PinnedPattern.isPinned ⟨knobs.pinnedDevicePattern⟩ node.device = false)
    (htarget : target ∈ devices)
    (htarget' : PinnedPattern.isPinned ⟨knobs.pinnedDevicePattern⟩ target = false) :
    node.MayMove catalog knobs devices target := by
  obtain ⟨⟨hstateless, hmovable⟩, hassigned, _⟩ := Eligibility.isEligible_iff.1 h
  subst hcatalog
  rw [hrelocatable, Knobs.isRelocatable, List.contains_iff_mem] at hmovable
  exact ⟨hstateless, hmovable, of_decide_eq_true hassigned, hpinned, htarget, htarget'⟩

/-! ## Collapses -/

/-- The default device is in the inventory and is not pinned. -/
theorem PinnedPattern.of_defaultDevice? {pattern : PinnedPattern} {device : String}
    (h : pattern.defaultDevice? devices = some device) :
    device ∈ devices ∧ pattern.isPinned device = false :=
  ⟨List.mem_of_find?_eq_some h, by simpa using List.find?_some h⟩

/-- There is none only if all devices of the inventory are pinned. -/
theorem PinnedPattern.defaultDevice?_eq_none {pattern : PinnedPattern} :
    pattern.defaultDevice? devices = none ↔
      ∀ device ∈ devices, pattern.isPinned device = true := by
  rw [defaultDevice?, List.find?_eq_none]
  simp

/-- The strict eligibility of a collapse keeps nodes on pinned devices where they are. -/
theorem Collapse.mayBecome_placeNode {device : String} (hdevice : device ∈ devices)
    (hpinned : PinnedPattern.isPinned ⟨knobs.pinnedDevicePattern⟩ device = false) (node : Node) :
    node.MayBecome catalog knobs devices (placeNode
      ((Eligibility.ofKnobs catalog knobs ⟨knobs.pinnedDevicePattern⟩).withPolicy .strict)
      device node) := by
  rw [placeNode]
  split
  · next h =>
    have hstrict := (Eligibility.isEligible_iff.1 h).2.2 rfl
    exact ⟨rfl, rfl, rfl, fun _ => Node.mayMove_of_eligible rfl rfl h hstrict hdevice hpinned⟩
  · exact .refl node

/-- A collapse moves loose nodes only, to a device of the inventory that is not pinned. -/
theorem Collapse.mayBecome_run (catalog : OpCatalog) (knobs : Knobs) (graph : Graph)
    (devices : List String) :
    graph.MayBecome catalog knobs devices (run catalog knobs graph devices).graph := by
  rw [run]
  split
  · exact .refl graph
  · next device h =>
    obtain ⟨hdevice, hpinned⟩ := PinnedPattern.of_defaultDevice? h
    refine ⟨rfl, rfl, ?_⟩
    rw [List.forall₂_map_right_iff]
    exact List.forall₂_same.2 fun node _ => mayBecome_placeNode hdevice hpinned node

/-! ## Sweeps -/

namespace Sweep.Task

variable {task : Task} {before : Balance} {result : Result} {position : Nat}

/-- A node was on a device that is not pinned and is now on a candidate. -/
structure Relocated (task : Task) (placement : Placement) (position : Nat) : Prop where
  eligible : position ∈ task.positions
  origin : ∃ origin, task.placement.site position = some origin ∧
    task.pinned.isPinned (task.roster.nameOf origin) = false
  candidate : ∃ candidate ∈ task.sweep.candidates, placement.site position = some candidate

/-- Every node is where it was, or it was relocated. -/
def Kept (task : Task) (placement : Placement) : Prop :=
  ∀ position, placement.site position = task.placement.site position ∨
    task.Relocated placement position

/-- A visit ends where it began or on a candidate. -/
theorem current_of_search {sweep : Sweep} {state : State} {origin : Nat} {tried : List Nat}
    {visit : Visit} (h : sweep.search state position origin tried = .ok visit) :
    visit.current = origin ∨ visit.current ∈ tried :=
  search_keeps (P := fun visit => visit.current = origin ∨ visit.current ∈ tried)
    (fun _ _ _ hc _ hhop => .inr (hhop.current ▸ hc)) (fun _ _ => .inl rfl) h

/-- A visit relocates a node from where it was at first or from where it was relocated to before;
    either way it began on a device that is not pinned. -/
theorem kept_of_visited {state next : State} (hp : position ∈ task.positions)
    (h : task.Kept state.placement) (hv : task.sweep.Visited state position next) :
    task.Kept next.placement := by
  cases hv with
  | unassigned _ => exact h
  | pinned _ _ => exact h
  | @searched origin visit next hs =>
    have hupdate := hs.site_next
    intro other
    by_cases ho : other = position
    · subst ho
      -- The device the node began on is not pinned: either the visit has just
      -- looked, or the node was relocated before.
      have horigin : ∃ origin, task.placement.site other = some origin ∧
          task.pinned.isPinned (task.roster.nameOf origin) = false := by
        rcases h other with hsame | hrelocated
        · exact ⟨origin, hsame ▸ hs.site, hs.unpinned⟩
        · exact hrelocated.origin
      rcases current_of_search hs.search with hstay | hcandidate
      · rw [hstay, ← hs.site, update_eq_self] at hupdate
        rcases h other with hsame | hrelocated
        · exact .inl (by rw [hupdate, hsame])
        · exact .inr ⟨hp, horigin, by rw [hupdate]; exact hrelocated.candidate⟩
      · exact .inr ⟨hp, horigin, visit.current, hcandidate, by rw [hupdate, update_self]⟩
    · have hother : next.placement.site other = state.placement.site other := by
        rw [hupdate, update_of_ne ho]
      rcases h other with hsame | hrelocated
      · exact .inl (hother.trans hsame)
      · exact .inr ⟨hrelocated.eligible, hrelocated.origin, by
          rw [hother]; exact hrelocated.candidate⟩

/-- So it is after all visits. -/
theorem Finished.kept {final : State} (h : task.Finished before final result) :
    task.Kept final.placement :=
  visitAll_keeps (P := fun state => task.Kept state.placement)
    (fun _ _ _ hp hk hv => kept_of_visited hp hk hv) (fun _ => .inl rfl) h.swept

/-- A relocated node may move to where it is. -/
theorem Relocated.mayMove {placement : Placement} {node : Node} {target : String}
    (h : task.Relocated placement position) (hnode : task.graph.nodes[position]? = some node)
    (htarget : placement.siteName task.roster position = some target) :
    node.MayMove task.catalog task.knobs task.devices target := by
  obtain ⟨node', hnode', helig⟩ := mem_positions.1 h.eligible
  obtain ⟨origin, horigin, hpinned⟩ := h.origin
  obtain ⟨candidate, hcandidate, hsite⟩ := h.candidate
  cases hnode.symm.trans hnode'
  have hdevice := deviceAt_graph h.eligible
  rw [Graph.deviceAt, hnode, Placement.siteName, horigin, Option.map_some, Option.map_some,
    Option.some_inj] at hdevice
  rw [Placement.siteName, hsite, Option.map_some, Option.some_inj] at htarget
  obtain ⟨hmem, hunpinned⟩ := nameOf_candidate hcandidate
  exact Node.mayMove_of_eligible rfl rfl helig (hdevice ▸ hpinned) (htarget ▸ hmem)
    (htarget ▸ hunpinned)

/-- A sweep moves eligible nodes only, between devices that are not pinned. -/
theorem mayBecome_of_run (h : task.run = .ok result) :
    task.graph.MayBecome task.catalog task.knobs task.devices result.graph := by
  obtain ⟨before, final, hf⟩ := run_eq_ok h
  rw [hf.graph_eq hf.inv.length]
  refine ⟨rfl, rfl, List.forall₂_iff_get.2 ⟨List.length_mapIdx.symm, fun position hlt _ => ?_⟩⟩
  have hnode : task.graph.nodes[position]? = some task.graph.nodes[position] :=
    List.getElem?_eq_getElem hlt
  rw [List.get_eq_getElem, List.get_eq_getElem, List.getElem_mapIdx]
  refine Node.mayBecome_moveTo fun target htarget hne => ?_
  -- A node is given its last site. If this is another device, it was relocated.
  rcases hf.kept position with hsame | hrelocated
  · -- The node is where it was, so its site is the device it is assigned to.
    have hstart := task.siteName_placement position
    rw [Placement.siteName, ← hsame, ← Placement.siteName, htarget, hnode, Option.bind_some,
      Node.site?, eq_comm, Option.ite_none_right_eq_some, Option.some_inj] at hstart
    exact absurd hstart.2.symm hne
  · exact hrelocated.mayMove hnode htarget

end Sweep.Task

/-! ## Placers -/

namespace Placer

variable {placer : Placer} {graph : Graph} {estimate : Estimate} {placed : Placed}

/-- What a placer does with a graph: it leaves the nodes alone, collapses them or sweeps
    them. -/
inductive Treats (placer : Placer) (graph : Graph) (devices : List String)
    (estimate : Estimate) : List Node → Prop
  | left : Treats placer graph devices estimate graph.nodes
  | collapsed : estimate.nodes.isEmpty ∨ placer.knobs.strategy = .defaultDevice →
      Treats placer graph devices estimate
        (Collapse.run placer.catalog placer.knobs graph devices).graph.nodes
  | swept {result : Sweep.Result} :
      ¬ (estimate.nodes.isEmpty ∨ placer.knobs.strategy = .defaultDevice) →
      Sweep.Task.run ⟨placer.catalog, placer.knobs, graph, devices, estimate⟩ = .ok result →
      Treats placer graph devices estimate result.graph.nodes

/-- With an estimate at hand, the strategy decides between the two passes; without entries it is a
    collapse. -/
theorem placeWith_eq_ok (h : placer.placeWith graph devices estimate = .ok placed) :
    placer.Treats graph devices estimate placed.graph.nodes := by
  rw [placeWith] at h
  split at h
  · next hcollapse =>
    cases h
    exact .collapsed hcollapse
  next hsweep =>
  split at h
  · cases h
    exact .left
  · obtain ⟨result, hrun, h⟩ := bind_eq_ok.1 h
    rw [pure_eq_ok] at h
    subst h
    exact .swept hsweep hrun

/-- A placer changes nothing but the nodes. -/
theorem placeEstimated_eq_ok (h : placer.placeEstimated graph devices estimate = .ok placed) :
    placer.Treats graph devices estimate placed.graph.nodes ∧
      placed.graph = { graph with nodes := placed.graph.nodes } := by
  obtain ⟨_, _, h⟩ := bind_eq_ok.1 h
  dsimp only at h
  split at h
  · cases h
    exact ⟨.left, rfl⟩
  · obtain ⟨inner, hinner, h⟩ := bind_eq_ok.1 h
    rw [pure_eq_ok] at h
    subst h
    have htreats := placeWith_eq_ok hinner
    exact ⟨htreats, rfl⟩

/-- None of the three does to a graph what it must not. -/
theorem mayBecome_of_treats {nodes : List Node} (h : placer.Treats graph devices estimate nodes) :
    graph.MayBecome placer.catalog placer.knobs devices { graph with nodes := nodes } := by
  refine ⟨rfl, rfl, ?_⟩
  cases h with
  | left => exact (Graph.MayBecome.refl graph).nodes
  | collapsed _ => exact (Collapse.mayBecome_run ..).nodes
  | swept _ hrun => exact (Sweep.Task.mayBecome_of_run hrun).nodes

/-- This also holds when the graph is cheap and is passed through. -/
theorem mayBecome_of_placeEstimated
    (h : placer.placeEstimated graph devices estimate = .ok placed) :
    graph.MayBecome placer.catalog placer.knobs devices placed.graph := by
  obtain ⟨htreats, hgraph⟩ := placeEstimated_eq_ok h
  rw [hgraph]
  exact mayBecome_of_treats htreats

/-- Whatever a placer does to a graph, it only changes devices, and only moves nodes
    that may move to devices where they may go. -/
theorem contained_of_place {σ : Type} [Estimator σ] {cluster : Cluster} {estimator next : σ}
    (h : placer.place cluster estimator graph = .ok (placed, next)) :
    graph.MayBecome placer.catalog placer.knobs cluster.names placed.graph := by
  obtain ⟨prepared, _, h⟩ := bind_eq_ok.1 h
  obtain ⟨estimate, _, h⟩ := bind_eq_ok.1 h
  obtain ⟨placed', hplaced, h⟩ := bind_eq_ok.1 h
  cases h
  cases hp : placer.placeEstimated graph cluster.names estimate with
  | error fault => rw [hp] at hplaced; cases hplaced
  | ok placed' =>
    rw [hp] at hplaced
    cases hplaced
    exact mayBecome_of_placeEstimated hp

/-- Two nodes move in this graph, along what they consume. -/
theorem contained_of_place_relay : ∃ placer : Placer, ∃ placed next,
    placer.place (.ofNames Sweep.Task.relay.devices)
      (⟨Sweep.Task.relay.estimate.nodes, none⟩ : CostTable) Sweep.Task.relay.graph =
        .ok (placed, next) ∧
      placed.graph.nodes.map Node.device = ["dev1", "dev2", "dev2", "dev2"] ∧
      Sweep.Task.relay.graph.MayBecome placer.catalog placer.knobs Sweep.Task.relay.devices
        placed.graph := by
  let placer : Placer := ⟨Sweep.Task.relay.knobs, Sweep.Task.relay.catalog, by decide +kernel⟩
  let table : CostTable := ⟨Sweep.Task.relay.estimate.nodes, none⟩
  have hdevices : ((placer.place (.ofNames Sweep.Task.relay.devices) table
      Sweep.Task.relay.graph).toOption.map fun outcome =>
        outcome.1.graph.nodes.map Node.device) = some ["dev1", "dev2", "dev2", "dev2"] := by
    decide +kernel
  cases h : placer.place (.ofNames Sweep.Task.relay.devices) table Sweep.Task.relay.graph with
  | error failure => rw [h] at hdevices; cases hdevices
  | ok outcome =>
    rw [h] at hdevices
    exact ⟨placer, outcome.1, outcome.2, h, Option.some.inj hdevices, contained_of_place h⟩

end Placer

end DevicePlacement

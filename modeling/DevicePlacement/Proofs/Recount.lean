import DevicePlacement.Proofs.Sweep.Resumption
import DevicePlacement.Proofs.Sweep.Tour

/-!
# Figures counted again

What a report says of a graph can be counted again from the graph alone, without numbers for
devices and without tables: how many nodes are on another device than before
(`Graph.displaced`), and what nodes receive from other devices (`Graph.externalTraffic`).

A collapse counts the nodes that it is about to move, a sweep counts visits that end
elsewhere, and sums traffic over positions. Both come to the same figures:

* `Collapse.displaced_run` and `Sweep.Task.Finished.moved_eq`: the nodes that moved;
* `Sweep.Task.Finished.externalBefore_eq` and `Sweep.Task.Finished.externalAfter_eq`: the
  external traffic of the graph that a sweep was given and of the one that it returns.
-/

namespace DevicePlacement

open Checked Function

/-! ## Graphs -/

namespace Graph

/-- The number of positions with another device in another graph. -/
def displaced (graph placed : Graph) : Nat :=
  (List.range graph.nodes.length).countP fun position =>
    graph.deviceAt position ≠ placed.deviceAt position

/-- What a node receives from other devices, by the names of its data inputs. Nodes that
    are not assigned neither send nor receive. -/
def received (graph : Graph) (estimate : Estimate) (node : Node) : Int :=
  if node.isAssigned then
    (node.dataInputs.map fun input =>
      match graph.node? input.producer with
      | some producer =>
        if producer.isAssigned ∧ producer.device ≠ node.device then estimate.size producer else 0
      | none => 0).sum
  else 0

/-- What all nodes receive from other devices. -/
def externalTraffic (graph : Graph) (estimate : Estimate) : Int :=
  (graph.nodes.map (graph.received estimate)).sum

end Graph

/-- A list is gone through by its positions. -/
theorem map_getElem?_range {α : Type} (l : List α) :
    (List.range l.length).map (l[·]?) = l.map some := by
  refine List.ext_getElem (by simp) fun position _ _ => ?_
  simp

namespace Graph

variable {catalog : OpCatalog} {knobs : Knobs} {devices : List String} {graph placed : Graph}
  {estimate : Estimate}

/-- A graph with its nodes mapped. -/
theorem displaced_map (graph : Graph) (f : Node → Node) :
    graph.displaced { graph with nodes := graph.nodes.map f } =
      graph.nodes.countP fun node => node.device ≠ (f node).device := by
  have hpositions : graph.displaced { graph with nodes := graph.nodes.map f } =
      ((List.range graph.nodes.length).map (graph.nodes[·]?)).countP fun node =>
        node.map Node.device ≠ (node.map f).map Node.device := by
    rw [displaced, List.countP_map]
    refine List.countP_congr fun position _ => ?_
    simp [deviceAt]
  rw [hpositions, map_getElem?_range, List.countP_map]
  refine List.countP_congr fun node _ => ?_
  simp

/-- No node of a graph is elsewhere than in the graph itself. -/
theorem displaced_self (graph : Graph) : graph.displaced graph = 0 := by
  rw [displaced, List.countP_eq_zero]
  simp

end Graph

attribute [ext] Node Graph

section MayBecome

variable {catalog : OpCatalog} {knobs : Knobs} {devices : List String}

/-- Only the device of a node can change, so a node on its device is the same. -/
theorem Node.MayBecome.eq_of_device {node placed : Node}
    (h : node.MayBecome catalog knobs devices placed) (hdevice : placed.device = node.device) :
    placed = node :=
  Node.ext h.name h.op hdevice h.inputs

/-- Only the nodes of a graph can change. -/
theorem Graph.MayBecome.eq_of_nodes {graph placed : Graph}
    (h : graph.MayBecome catalog knobs devices placed) (hnodes : placed.nodes = graph.nodes) :
    placed = graph :=
  Graph.ext h.id h.versions hnodes

/-- If all nodes are where they were, nothing else has changed either. -/
theorem Graph.MayBecome.displaced_eq_zero_iff {graph placed : Graph}
    (h : graph.MayBecome catalog knobs devices placed) :
    graph.displaced placed = 0 ↔ placed = graph := by
  refine ⟨fun hzero => ?_, fun hsame => hsame ▸ displaced_self graph⟩
  rw [displaced, List.countP_eq_zero] at hzero
  have hdevices : ∀ position < graph.nodes.length,
      placed.deviceAt position = graph.deviceAt position := fun position hlt =>
    (not_ne_iff.1 (mt decide_eq_true (hzero position (List.mem_range.2 hlt)))).symm
  refine h.eq_of_nodes (List.ext_getElem h.nodes.length_eq.symm fun position hplaced hgraph => ?_)
  have hdevice := hdevices position hgraph
  rw [deviceAt, deviceAt, List.getElem?_eq_getElem hgraph, List.getElem?_eq_getElem hplaced,
    Option.map_some, Option.map_some, Option.some_inj] at hdevice
  exact (h.nodes.get hgraph hplaced).eq_of_device hdevice

end MayBecome

/-! ### External traffic by name and by position -/

namespace Graph

variable {graph : Graph} {estimate : Estimate}

/-- Where a graph has its nodes. -/
def siteAt (graph : Graph) (position : Nat) : Option String :=
  (graph.nodes[position]?).bind Node.site?

/-- What arrives by position is what is received by name, since a name means its first node. -/
theorem outer_arrivals (graph : Graph) (estimate : Estimate) (device : String)
    (inputs : List InputRef) :
    (arrivals (fun position => (graph.nodes[position]?).bind estimate.size?) graph.siteAt
        (inputs.filterMap fun input => graph.position? input.producer)).outer device =
      (inputs.map fun input =>
        match graph.node? input.producer with
        | some producer =>
          if producer.isAssigned ∧ producer.device ≠ device then estimate.size producer else 0
        | none => 0).sum := by
  induction inputs with
  | nil => rfl
  | cons input inputs ih =>
    rw [List.filterMap_cons, List.map_cons, List.sum_cons, node?_eq_bind]
    -- An input that names no node has no arrival, and it counts as zero in the sum over the text.
    cases hposition : graph.position? input.producer with
    | none => rw [ih]; simp
    | some position =>
      rw [arrivals_cons, Arrivals.outer_append, ih]
      congr 1
      rw [Option.bind_some, shipment?, siteAt]
      cases graph.nodes[position]? with
      | none => rfl
      | some producer =>
        simp only [Option.bind_some, Estimate.size, Node.site?]
        cases estimate.size? producer <;> cases producer.isAssigned <;>
          by_cases hd : producer.device = device <;> simp [Arrivals.outer, hd]

/-- Summed over positions, the external traffic is what it is by name. -/
theorem external_siteAt (graph : Graph) (estimate : Estimate) :
    (PricedGraph.ofGraph graph estimate).external graph.siteAt =
      graph.externalTraffic estimate := by
  have hsizes : (PricedGraph.ofGraph graph estimate).size? =
      fun position => (graph.nodes[position]?).bind estimate.size? :=
    funext fun position => PricedGraph.size?_ofGraph graph estimate position
  -- Both sides are sums over the nodes, so it is enough to compare what one node receives.
  have hreceived : ∀ position node, graph.nodes[position]? = some node →
      (PricedGraph.ofGraph graph estimate).inflow graph.siteAt position =
        graph.received estimate node := by
    intro position node hnode
    rw [PricedGraph.inflow, PricedGraph.producersOf_ofGraph estimate hnode, hsizes, producers,
      received]
    have hsite : graph.siteAt position = node.site? := by rw [siteAt, hnode, Option.bind_some]
    rw [hsite, Node.site?]
    split_ifs with hassigned
    · exact graph.outer_arrivals estimate node.device node.dataInputs
    · rfl
  change ((List.range graph.nodes.length).map _).sum = _
  rw [externalTraffic]
  refine congrArg List.sum (List.ext_getElem (by simp) fun position hposition hnode => ?_)
  rw [List.length_map] at hnode
  rw [List.getElem_map, List.getElem_map, List.getElem_range]
  exact hreceived position _ (List.getElem?_eq_getElem hnode)

end Graph

/-! ## Collapses -/

/-- A collapse counts the nodes that it moves. -/
theorem Collapse.displaced_run (catalog : OpCatalog) (knobs : Knobs) (graph : Graph)
    (devices : List String) :
    graph.displaced (run catalog knobs graph devices).graph =
      (run catalog knobs graph devices).moved := by
  rw [run]
  split
  · exact graph.displaced_self
  · next device _ =>
    dsimp only
    rw [Graph.displaced_map, List.countP_filter]
    refine List.countP_congr fun node _ => ?_
    rw [placeNode]
    split_ifs with heligible
    · simp [heligible]
    · simp [heligible]

/-! ## Sweeps -/

namespace Sweep.Task

variable {task : Task} {before : Balance} {final : State} {result : Result}

/-- A sweep counts the visits that leave their node elsewhere. -/
theorem Finished.moved_tour (hf : task.Finished before final result) :
    result.moved = task.tour.countP fun position =>
      final.placement.site position ≠ task.placement.site position := by
  rw [hf.moved]
  refine hf.along (P := fun done state => state.moved = done.countP fun position =>
    final.placement.site position ≠ task.placement.site position) rfl ?_
  intro done position state next hleg hmoved
  -- Nobody has moved the node before its own visit, so it still is where it started.
  have hstart : state.placement.site position = task.placement.site position :=
    hleg.site_todo position fun hdone => Nat.lt_irrefl _ (hleg.lt position hdone)
  rw [List.countP_append, ← hmoved, List.countP_singleton, ← hleg.site_next, ← hstart]
  cases hleg.visited with
  | unassigned _ => simp
  | pinned _ _ => simp
  | @searched origin visit next hs =>
    rw [hs.moved, hs.site_next, update_self, hs.site]
    by_cases hstay : visit.current = origin <;> simp [hstay]

/-- A node that ends where it began is returned on its device. -/
theorem Finished.deviceAt_eq_of_site (hf : task.Finished before final result) {position : Nat}
    (h : final.placement.site position = task.placement.site position) :
    result.graph.deviceAt position = task.graph.deviceAt position := by
  rw [Graph.deviceAt, Graph.deviceAt, hf.node_of_site h]

/-- A node is on another device exactly if it is elsewhere. -/
theorem Finished.deviceAt_ne_iff (hf : task.Finished before final result) (position : Nat) :
    task.graph.deviceAt position ≠ result.graph.deviceAt position ↔
      final.placement.site position ≠ task.placement.site position := by
  rcases hf.kept position with hsame | hrelocated
  · rw [hf.deviceAt_eq_of_site hsame]
    exact ⟨fun h => absurd rfl h, fun h => absurd hsame h⟩
  · have hp := hrelocated.eligible
    obtain ⟨origin, horigin, _⟩ := hrelocated.origin
    obtain ⟨candidate, _, hcandidate⟩ := hrelocated.candidate
    have hinj := Roster.nameOf_inj task.nodup_names_roster
      (task.within_placement position origin horigin)
      (hf.inv.within position candidate hcandidate)
    rw [Task.deviceAt_graph hp, hf.deviceAt_graph hp, Placement.siteName, horigin,
      Placement.siteName, hcandidate, Option.map_some, Option.map_some, ne_eq, Option.some_inj,
      hinj, ne_eq, Option.some_inj, eq_comm]

/-- The number of moved nodes is that of the nodes that are on another device than before. -/
theorem Finished.moved_eq (hf : task.Finished before final result) :
    result.moved = task.graph.displaced result.graph := by
  have hdisplaced : task.graph.displaced result.graph =
      (List.range task.graph.nodes.length).countP fun position =>
        final.placement.site position ≠ task.placement.site position :=
    List.countP_congr fun position _ => by
      rw [decide_eq_true_iff, decide_eq_true_iff]
      exact hf.deviceAt_ne_iff position
  rw [hf.moved_tour, hdisplaced, List.countP_eq_length_filter, List.countP_eq_length_filter]
  -- Nodes that are not on the tour stay, so they count neither way.
  refine List.Perm.length_eq ((List.perm_ext_iff_of_nodup ?_ ?_).2 fun position => ?_)
  · exact (task.pairwise_tour.imp Nat.ne_of_lt).filter _
  · exact List.nodup_range.filter _
  · rw [List.mem_filter, List.mem_filter]
    refine and_congr_left fun hmoved => ⟨fun htour => ?_, fun _ => ?_⟩
    · exact task.sublist_positions.subset (tour_subset htour)
    · by_contra htour
      exact of_decide_eq_true hmoved (site_of_not_mem hf.toured htour)

/-- The external traffic before a sweep is that of the graph it was given. -/
theorem Finished.externalBefore_eq (hf : task.Finished before final result) :
    result.externalBefore.toInt = task.graph.externalTraffic task.estimate := by
  have hsites : task.placement.siteName task.roster = task.graph.siteAt :=
    funext task.siteName_placement
  rw [PricedGraph.totalExternal_eq_ok hf.externalBefore,
    ← PricedGraph.external_siteName task.nodup_names_roster task.within_placement, hsites]
  exact task.graph.external_siteAt task.estimate

/-- The external traffic after a sweep is that of the graph it returns. -/
theorem Finished.externalAfter_eq (hf : task.Finished before final result)
    (hempty : "" ∉ task.devices) (h : task.run = .ok result) :
    result.externalAfter.toInt = result.graph.externalTraffic task.estimate := by
  have hsites : final.placement.siteName task.roster = result.graph.siteAt :=
    funext fun position => (hf.site?_graph hempty position).symm
  rw [PricedGraph.totalExternal_eq_ok hf.externalAfter,
    ← PricedGraph.external_siteName task.nodup_names_roster hf.inv.within, hsites,
    ← result.graph.external_siteAt, PricedGraph.external_of_mayBecome (mayBecome_of_run h)]
  rfl

end Sweep.Task

end DevicePlacement

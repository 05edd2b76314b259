import DevicePlacement.Proofs.Eligibility
import DevicePlacement.Proofs.Sweep.Steps

/-!
# A whole sweep

A `Task` is all that a sweep is given. From it come the fixed data of the sweep
(`Task.sweep`), the placement it starts from (`Task.placement`), the positions it
visits (`Task.positions`) and the loads at the start (`Task.opening`).

* `run_eq_ok`: a sweep that returns has gone through its phases one by one;
* `after_of_prefix`, `visit_of_prefix`, `search_of_prefix`: whatever comes before
  the end of it has returned as well;
* `after_keeps`: what every visit keeps holds after any number of them.

The task `relay` is a small one whose sweep hops more than once in a visit.
-/

namespace DevicePlacement.Sweep

open Checked Function

/-- What a sweep is given. -/
structure Task where
  catalog : OpCatalog
  knobs : Knobs
  graph : Graph
  /-- The inventory. -/
  devices : List String
  estimate : Estimate

namespace Task

/-- Sweeps the graph of a task. -/
def run (task : Task) : Except Fault Result :=
  Sweep.run task.catalog task.knobs task.graph task.devices task.estimate

/-- Which devices are pinned. -/
def pinned (task : Task) : PinnedPattern :=
  ⟨task.knobs.pinnedDevicePattern⟩

/-- Which nodes may move. -/
def eligibility (task : Task) : Eligibility :=
  Eligibility.ofKnobs task.catalog task.knobs task.pinned

/-- The devices of the inventory and of the graph. -/
def roster (task : Task) : Roster :=
  (Placement.ofGraph (Roster.ofInventory task.devices) task.graph).1

/-- Where the nodes are at the start. -/
def placement (task : Task) : Placement :=
  (Placement.ofGraph (Roster.ofInventory task.devices) task.graph).2

/-- What stays the same during the sweep. -/
def sweep (task : Task) : Sweep :=
  ⟨.ofGraph task.graph task.estimate, task.roster, task.pinned, task.roster.candidates task.pinned⟩

/-- The positions of the nodes that are eligible at the start. -/
def positions (task : Task) : List Nat :=
  eligiblePositions task.eligibility task.graph

/-- The loads at the start. -/
def opening (task : Task) : Except Fault Balance :=
  loadAll task.sweep.priced task.placement
    (.ofDevices task.roster.size task.devices.length task.knobs.computeMargin) task.positions

/-- The state of the sweep after the visits of some nodes. -/
def after (task : Task) (visited : List Nat) : Except Fault State := do
  task.sweep.visitAll ⟨task.placement, ← task.opening, [], 0⟩ visited

/-- The phases of a sweep that has returned. -/
structure Finished (task : Task) (before : Balance) (final : State) (result : Result) : Prop where
  opening : task.opening = .ok before
  swept : task.sweep.visitAll ⟨task.placement, before, [], 0⟩ task.positions = .ok final
  externalBefore : task.sweep.priced.totalExternal task.placement = .ok result.externalBefore
  externalAfter : task.sweep.priced.totalExternal final.placement = .ok result.externalAfter
  conserved : final.balance.isConserved = .ok true
  deviceLoads : (List.range task.roster.size).mapM (task.sweep.deviceLoad before final.balance) =
    .ok result.deviceLoads
  graph : final.placement.place task.roster task.graph = .ok result.graph
  moved : result.moved = final.moved
  moves : result.moves = final.moves
  eligible : result.eligible = task.positions.length
  totalComputeCost : result.totalComputeCost = final.balance.total
  idealShare : result.idealShare = final.balance.idealShare

variable {task : Task} {result : Result}

/-- A sweep that has returned has been through all of its phases. -/
theorem run_eq_ok (h : task.run = .ok result) :
    ∃ before final, task.Finished before final result := by
  obtain ⟨before, hbefore, h⟩ := bind_eq_ok.1 h
  obtain ⟨externalBefore, hexternalBefore, h⟩ := bind_eq_ok.1 h
  obtain ⟨final, hfinal, h⟩ := bind_eq_ok.1 h
  obtain ⟨externalAfter, hexternalAfter, h⟩ := bind_eq_ok.1 h
  obtain ⟨conserved, hconserved, h⟩ := bind_eq_ok.1 h
  split at h
  · obtain ⟨_, h, _⟩ := bind_eq_ok.1 h
    cases h
  next hc =>
  -- A run that has passed the check has conserved its loads.
  rw [Bool.not_eq_true', Bool.not_eq_false] at hc
  subst hc
  obtain ⟨deviceLoads, hdeviceLoads, h⟩ := bind_eq_ok.1 h
  obtain ⟨placed, hplaced, h⟩ := bind_eq_ok.1 h
  rw [pure_eq_ok] at h
  subst h
  exact ⟨before, final, hbefore, hfinal, hexternalBefore, hexternalAfter, hconserved, hdeviceLoads,
    hplaced, rfl, rfl, rfl, rfl, rfl⟩

/-! ### Devices -/

theorem roster_eq (task : Task) :
    task.roster =
      (Roster.ofInventory task.devices).enrollAll (Placement.mentioned task.graph.nodes) :=
  Placement.roster_ofGraph ..

/-- No device has two numbers. -/
theorem nodup_names_roster (task : Task) : task.roster.names.Nodup := by
  rw [roster_eq]
  exact Roster.nodup_enrollAll (Roster.nodup_ofInventory _)

/-- The roster has the devices of the inventory and those that nodes are on. -/
theorem mem_names_roster {name : String} :
    name ∈ task.roster.names ↔
      name ∈ task.devices ∨ ∃ node ∈ task.graph.nodes, node.site? = some name := by
  rw [roster_eq, Roster.mem_names_enrollAll, Roster.mem_names_ofInventory, Placement.mentioned,
    List.mem_map]
  refine or_congr_right (exists_congr fun node => ?_)
  rw [List.mem_filter, Node.site?, and_assoc, Option.ite_none_right_eq_some, Option.some_inj]

/-- The candidates are the devices of the inventory, each once, that are not pinned. -/
theorem map_nameOf_candidates (task : Task) :
    task.sweep.candidates.map task.roster.nameOf =
      task.devices.eraseDups.filter fun device => !task.pinned.isPinned device := by
  have htake : task.roster.names.take task.roster.inventorySize = task.devices.eraseDups := by
    rw [roster_eq, Roster.inventorySize_enrollAll, Roster.inventorySize_ofInventory,
      Roster.names_enrollAll, List.take_left, Roster.names_ofInventory]
  rw [← htake]
  exact Roster.map_nameOf_candidates ..

/-- Candidates are devices of the roster. -/
theorem candidate_lt {candidate : Nat} (h : candidate ∈ task.sweep.candidates) :
    candidate < task.roster.size :=
  (Roster.of_mem_candidates h).1

/-- A candidate is a device of the inventory that is not pinned. -/
theorem nameOf_candidate {candidate : Nat} (h : candidate ∈ task.sweep.candidates) :
    task.roster.nameOf candidate ∈ task.devices ∧
      task.pinned.isPinned (task.roster.nameOf candidate) = false := by
  have hname := List.mem_map_of_mem (f := task.roster.nameOf) h
  rw [map_nameOf_candidates, List.mem_filter, Bool.not_eq_true', ← Roster.names_ofInventory,
    Roster.mem_names_ofInventory] at hname
  exact hname

/-! ### Positions -/

theorem mem_positions {position : Nat} :
    position ∈ task.positions ↔ ∃ node, task.graph.nodes[position]? = some node ∧
      task.eligibility.isEligible node = true := by
  rw [positions, eligiblePositions, List.mem_map]
  constructor
  · rintro ⟨⟨node, _⟩, h, rfl⟩
    obtain ⟨hmem, helig⟩ := List.mem_filter.1 h
    exact ⟨node, List.mem_zipIdx_iff_getElem?.1 hmem, helig⟩
  · rintro ⟨node, hnode, helig⟩
    exact ⟨(node, position), List.mem_filter.2 ⟨List.mem_zipIdx_iff_getElem?.2 hnode, helig⟩, rfl⟩

/-- The eligible nodes are visited in the order of the graph, each at most once. -/
theorem sublist_positions (task : Task) :
    task.positions.Sublist (List.range task.graph.nodes.length) := by
  rw [List.range_eq_range', ← List.zipIdx_map_snd]
  exact List.filter_sublist.map _

theorem pairwise_positions (task : Task) : task.positions.Pairwise (· < ·) :=
  List.pairwise_lt_range.sublist task.sublist_positions

theorem nodup_positions (task : Task) : task.positions.Nodup :=
  task.pairwise_positions.imp Nat.ne_of_lt

/-! ### The start -/

theorem length_placement (task : Task) :
    task.placement.devices.length = task.graph.nodes.length :=
  Placement.length_ofGraph ..

/-- The nodes are on devices of the roster. -/
theorem within_placement (task : Task) : task.placement.Within task.roster :=
  Placement.within_ofGraph _ task.graph

theorem siteName_placement (task : Task) (position : Nat) :
    task.placement.siteName task.roster position =
      (task.graph.nodes[position]?).bind Node.site? :=
  Placement.siteName_ofGraph ..

/-- An eligible node is assigned. -/
theorem isSome_site_of_eligible {position : Nat} (h : position ∈ task.positions) :
    (task.placement.site position).isSome := by
  obtain ⟨node, hnode, helig⟩ := mem_positions.1 h
  have hname := task.siteName_placement position
  rw [hnode, Option.bind_some, Node.site?, if_pos (Eligibility.isEligible_iff.1 helig).2.1] at hname
  rw [← Option.isSome_map (f := task.roster.nameOf)]
  exact Option.isSome_iff_exists.2 ⟨_, hname⟩

/-! ### The end -/

/-- What a row of the returned loads says of a device. -/
structure Row (task : Task) (before after : Balance) (device : Nat) (row : DeviceLoad) : Prop where
  device_lt : device < task.roster.size
  name : row.device = task.roster.nameOf device
  pinned : row.pinned = task.pinned.isPinned row.device
  loadBefore : row.loadBefore.toInt = before.loadOf device
  loadAfter : row.loadAfter.toInt = after.loadOf device
  shareAfter : row.shareAfter = after.scale.share (after.loadOf device)

/-- A row is made of the two loads of a device. -/
theorem deviceLoad_eq_ok {before after : Balance} {device : Nat} {row : DeviceLoad}
    (h : task.sweep.deviceLoad before after device = .ok row) :
    task.Row before after device row := by
  obtain ⟨name, hname, h⟩ := bind_eq_ok.1 h
  obtain ⟨loadBefore, hbefore, h⟩ := bind_eq_ok.1 h
  obtain ⟨loadAfter, hafter, h⟩ := bind_eq_ok.1 h
  obtain ⟨shareAfter, hshare, h⟩ := bind_eq_ok.1 h
  rw [pure_eq_ok] at h
  subst h
  obtain ⟨hlt, hname⟩ := Roster.name_eq_ok_iff.1 hname
  exact ⟨hlt, hname.symm, rfl, (Balance.load_eq_ok hbefore).2, (Balance.load_eq_ok hafter).2,
    Balance.share_eq_ok hshare⟩

/-- There is one row for every device of the roster, in its order. -/
theorem Finished.rows {before : Balance} {final : State} (h : task.Finished before final result) :
    List.Forall₂ (task.Row before final.balance) (List.range task.roster.size)
      result.deviceLoads :=
  (mapM_eq_ok_iff.1 h.deviceLoads).imp fun _ _ => deviceLoad_eq_ok

/-- Every row that is returned is that of a device. -/
theorem Finished.row_of_mem {before : Balance} {final : State} {row : DeviceLoad}
    (h : task.Finished before final result) (hr : row ∈ result.deviceLoads) :
    ∃ device, task.Row before final.balance device row := by
  obtain ⟨i, hi, rfl⟩ := List.getElem_of_mem hr
  exact ⟨_, h.rows.get (h.rows.length_eq ▸ hi) hi⟩

/-- A column of the returned loads lists what its rows say. -/
theorem Finished.map_rows {before : Balance} {final : State} {β : Type} {f : DeviceLoad → β}
    {g : Nat → β} (h : task.Finished before final result)
    (hf : ∀ device row, task.Row before final.balance device row → f row = g device) :
    result.deviceLoads.map f = (List.range task.roster.size).map g := by
  rw [← List.forall₂_eq_eq_eq, List.forall₂_map_left_iff, List.forall₂_map_right_iff]
  exact h.rows.flip.imp fun row device hrow => hf device row hrow

/-- The nodes of the returned graph are those of the given one, where the sweep
    has put them. -/
theorem Finished.graph_eq {before : Balance} {final : State} (h : task.Finished before final result)
    (hl : final.placement.devices.length = task.graph.nodes.length) :
    result.graph = { task.graph with
      nodes := task.graph.nodes.mapIdx fun position node =>
        node.moveTo (final.placement.siteName task.roster position) } :=
  Placement.nodes_place h.graph hl

/-! ### Before the end -/

theorem after_eq_ok {visited : List Nat} {state : State} (h : task.after visited = .ok state) :
    ∃ before, task.opening = .ok before ∧
      task.sweep.visitAll ⟨task.placement, before, [], 0⟩ visited = .ok state :=
  bind_eq_ok.1 h

/-- Before the first visit no moves have been made. -/
theorem after_nil_eq_ok {state : State} (h : task.after [] = .ok state) : state.moves = [] := by
  obtain ⟨before, _, h⟩ := after_eq_ok h
  rw [visitAll, foldlM_nil_eq_ok.2 rfl, ite_self] at h
  cases h
  rfl

/-- One visit more comes after the visits before it, if nodes are visited at all. -/
theorem after_concat_eq_ok {visited : List Nat} {position : Nat} {next : State}
    (h : task.after (visited ++ [position]) = .ok next) :
    ∃ state, task.after visited = .ok state ∧
      (next = state ∨ task.sweep.visit state position = .ok next) := by
  obtain ⟨before, hbefore, h⟩ := after_eq_ok h
  rw [visitAll] at h
  split at h
  · next hc => exact ⟨next, bind_eq_ok.2 ⟨before, hbefore, (if_pos hc).trans h⟩, .inl rfl⟩
  · next hc =>
    obtain ⟨state, hstate, h⟩ := foldlM_append_eq_ok.1 h
    obtain ⟨next', hvisit, h⟩ := foldlM_cons_eq_ok.1 h
    rw [foldlM_nil_eq_ok] at h
    exact ⟨state, bind_eq_ok.2 ⟨before, hbefore, (if_neg hc).trans hstate⟩, .inr (h ▸ hvisit)⟩

/-- What every visit keeps holds after any number of them. -/
theorem after_keeps {P : State → Prop} {visited : List Nat} {state : State}
    (visit : ∀ state next position, position ∈ visited → P state →
      task.sweep.Visited state position next → P next)
    (start : ∀ before, task.opening = .ok before → P ⟨task.placement, before, [], 0⟩)
    (h : task.after visited = .ok state) : P state := by
  obtain ⟨before, hbefore, h⟩ := after_eq_ok h
  exact visitAll_keeps visit (start before hbefore) h

/-- After all visits the sweep is at its end. -/
theorem Finished.after {before : Balance} {final : State}
    (h : task.Finished before final result) : task.after task.positions = .ok final :=
  bind_eq_ok.2 ⟨before, h.opening, h.swept⟩

/-- A sweep that has returned has been through all states on its way. -/
theorem after_of_prefix {visited : List Nat} (h : task.run = .ok result)
    (hp : visited <+: task.positions) : ∃ state, task.after visited = .ok state := by
  obtain ⟨before, final, hf⟩ := run_eq_ok h
  obtain ⟨rest, hrest⟩ := hp
  have hswept := hf.swept
  rw [← hrest, visitAll] at hswept
  -- With fewer than two candidates no node is visited, however many are given.
  by_cases hc : task.sweep.candidates.length < 2
  · exact ⟨_, bind_eq_ok.2 ⟨before, hf.opening, if_pos hc⟩⟩
  · rw [if_neg hc] at hswept
    obtain ⟨state, hstate, _⟩ := foldlM_append_eq_ok.1 hswept
    exact ⟨state, bind_eq_ok.2 ⟨before, hf.opening, (if_neg hc).trans hstate⟩⟩

/-- With two candidates or more, every eligible node gets its visit. -/
theorem visit_of_prefix {visited : List Nat} {position : Nat} {state : State}
    (h : task.run = .ok result) (hp : visited ++ [position] <+: task.positions)
    (hc : 2 ≤ task.sweep.candidates.length) (hs : task.after visited = .ok state) :
    ∃ next, task.sweep.visit state position = .ok next := by
  -- The visits up to this one and with it have both returned.
  obtain ⟨next, hnext⟩ := after_of_prefix h hp
  obtain ⟨before, hbefore, hnext⟩ := after_eq_ok hnext
  obtain ⟨before', hbefore', hs⟩ := after_eq_ok hs
  rw [hbefore] at hbefore'
  cases hbefore'
  rw [visitAll, if_neg (not_lt.2 hc)] at hs hnext
  obtain ⟨state', hstate', hnext⟩ := foldlM_append_eq_ok.1 hnext
  rw [hs] at hstate'
  cases hstate'
  obtain ⟨next', hvisit, _⟩ := foldlM_cons_eq_ok.1 hnext
  exact ⟨next', hvisit⟩

/-! ### An example -/

/-- A graph where `c` hops twice, over `dev1` to `dev2`, and `d` follows it there
    from a device that only the graph mentions. -/
def relay : Task where
  catalog := OpRegistry.standard.catalog
  knobs := Knobs.alwaysOptimize.withComputeMargin 1
  graph := .ofNodes [⟨"p", "Const", "dev1", []⟩, ⟨"q", "Const", "dev2", []⟩,
    ⟨"c", "Add", "dev0", [.data "p" 0, .data "q" 0]⟩, ⟨"d", "MatMul", "dev9", [.data "c" 0]⟩]
  devices := ["dev0", "CPU", "dev1", "dev0", "dev2"]
  estimate := ⟨.ofList [("p", .ofCompute 1 10), ("q", .ofCompute 1 100), ("c", .ofCompute 3 5),
    ("d", .ofCompute 4 1)], .zero⟩

theorem run_relay : ∃ result, relay.run = .ok result ∧
    result.moves.map (fun made => (made.node, made.source, made.target)) =
      [("c", "dev0", "dev1"), ("c", "dev1", "dev2"), ("d", "dev9", "dev2")] ∧
    result.deviceLoads.map (fun row => (row.device, row.loadBefore, row.loadAfter)) =
      [("dev0", 3, 0), ("CPU", 0, 0), ("dev1", 0, 0), ("dev2", 0, 7), ("dev9", 4, 0)] := by
  have h : relay.run.toOption.map (fun result =>
      (result.moves.map fun made => (made.node, made.source, made.target),
        result.deviceLoads.map fun row => (row.device, row.loadBefore, row.loadAfter))) =
      some ([("c", "dev0", "dev1"), ("c", "dev1", "dev2"), ("d", "dev9", "dev2")],
        [("dev0", 3, 0), ("CPU", 0, 0), ("dev1", 0, 0), ("dev2", 0, 7), ("dev9", 4, 0)]) := by
    decide +kernel
  obtain ⟨result, hrun, h⟩ := exists_ok_of_toOption h
  obtain ⟨hmoves, hrows⟩ := Prod.mk.inj h
  exact ⟨result, hrun, hmoves, hrows⟩

end Task

/-- So has a search. -/
theorem search_of_prefix {sweep : Sweep} {state : State} {position origin : Nat}
    {tried candidates : List Nat} {visit : Visit}
    (h : sweep.search state position origin candidates = .ok visit) (hp : tried <+: candidates) :
    ∃ visit, sweep.search state position origin tried = .ok visit := by
  obtain ⟨rest, rfl⟩ := hp
  obtain ⟨traffic, htraffic, h⟩ := bind_eq_ok.1 h
  obtain ⟨visit, hvisit, _⟩ := foldlM_append_eq_ok.1 h
  exact ⟨visit, bind_eq_ok.2 ⟨traffic, htraffic, hvisit⟩⟩

end DevicePlacement.Sweep

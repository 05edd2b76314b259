import DevicePlacement.Proofs.Placement.Loads
import DevicePlacement.Proofs.Sweep.Run

/-!
# The load table of a sweep

The loads follow every hop at once, while the placement learns only at the end of
a visit where the node has come to. So during a visit the table is that of a
placement that does not exist yet, with the node where the visit has come
(`Amid`), and at its end the placement catches up (`Inv`).

* `amid_of_hop`, `inv_of_visited`: a hop and a visit keep their invariant;
* `loads_of_run`: the table is right between the visits and adds up throughout,
  and the rows that a sweep returns are those of the graph it was given and of
  the graph it returns.
-/

namespace DevicePlacement

/-- The device of the node at a position, as the graph has it. -/
def Graph.deviceAt (graph : Graph) (position : Nat) : Option String :=
  graph.nodes[position]?.map Node.device

namespace Sweep

open Checked Function

/-! ## Loading nodes -/

section loadAll

variable {priced : PricedGraph} {placement : Placement}

/-- The compute costs of the nodes at the given positions that are assigned. -/
def workload (compute : Nat → Int) (site : Nat → Option Nat) (positions : List Nat) : Int :=
  (positions.map fun position => if (site position).isSome then compute position else 0).sum

/-- A balance that nodes were added to, each where it is. -/
structure Loaded (priced : PricedGraph) (placement : Placement) (positions : List Nat)
    (balance next : Balance) : Prop where
  length : next.loads.length = balance.loads.length
  sum : next.sum = balance.sum + workload priced.compute placement.site positions
  scale : next.scale = { balance.scale with
    total := balance.scale.total + workload priced.compute placement.site positions }
  carries : ∀ done, balance.Carries priced.compute placement.site done →
    next.Carries priced.compute placement.site (done ++ positions)

/-- Nodes that are loaded in two parts are loaded together. -/
theorem Loaded.append {positions more : List Nat} {balance middle next : Balance}
    (h : Loaded priced placement positions balance middle)
    (h' : Loaded priced placement more middle next) :
    Loaded priced placement (positions ++ more) balance next := by
  have hsplit : workload priced.compute placement.site (positions ++ more) =
      workload priced.compute placement.site positions +
        workload priced.compute placement.site more := by
    rw [workload, List.map_append, List.sum_append, workload, workload]
  refine ⟨h'.length.trans h.length, ?_, ?_, fun done hc => ?_⟩
  · rw [h'.sum, h.sum, hsplit, add_assoc]
  · rw [h'.scale, h.scale, hsplit, add_assoc]
  · rw [← List.append_assoc]
    exact h'.carries _ (h.carries done hc)

/-- A node that is not assigned is on no device and adds no load. -/
theorem loaded_singleton {position : Nat} {balance next : Balance}
    (h : (do match ← placement.device position with
      | none => return balance
      | some device => balance.add device (← priced.computeCost position)) = .ok next) :
    Loaded priced placement [position] balance next := by
  obtain ⟨device, hdevice, h⟩ := bind_eq_ok.1 h
  obtain ⟨_, hsite⟩ := Placement.device_eq_ok_iff.1 hdevice
  cases device with
  | none =>
    cases h
    -- A node that is nowhere adds its cost to no device, and the balance stays.
    have hzero : workload priced.compute placement.site [position] = 0 := by
      simp [workload, hsite]
    refine ⟨rfl, by rw [hzero, add_zero], by rw [hzero, add_zero], fun done hc device => ?_⟩
    rw [hc, loadOn_append, left_eq_add, loadOn, List.map_singleton, List.sum_singleton, hsite]
    rfl
  | some device =>
    obtain ⟨cost, hcost, h⟩ := bind_eq_ok.1 h
    have hadded := Balance.add_eq_ok h
    rw [PricedGraph.computeCost_eq_ok hcost] at hadded
    have hcost : workload priced.compute placement.site [position] = priced.compute position := by
      simp [workload, hsite]
    exact ⟨hadded.length, hcost ▸ hadded.sum, hcost ▸ hadded.scale,
      fun done hc => hadded.carries hc hsite⟩

/-- By induction, all the nodes are loaded. -/
theorem loadAll_eq_ok {positions : List Nat} {balance next : Balance}
    (h : loadAll priced placement balance positions = .ok next) :
    Loaded priced placement positions balance next := by
  rw [loadAll] at h
  induction positions generalizing balance with
  | nil =>
    rw [foldlM_nil_eq_ok] at h
    subst h
    refine ⟨rfl, (add_zero _).symm, ?_, fun done hc => by rwa [List.append_nil]⟩
    rw [workload, List.map_nil, List.sum_nil, add_zero]
  | cons position positions ih =>
    obtain ⟨middle, hm, h⟩ := foldlM_cons_eq_ok.1 h
    exact (loaded_singleton hm).append (ih h)

end loadAll

namespace Task

variable {task : Task} {before : Balance} {result : Result}

/-- The compute cost of the node at a position. -/
def compute (task : Task) (position : Nat) : Int :=
  ((task.graph.nodes[position]?).map task.estimate.compute).getD 0

/-- The tables hold the compute costs that the estimate has. -/
theorem compute_eq (task : Task) : task.sweep.priced.compute = task.compute := by
  funext position
  rw [compute]
  cases h : task.graph.nodes[position]? with
  | none =>
    change (PricedGraph.ofGraph task.graph task.estimate).compute position = 0
    rw [PricedGraph.compute, PricedGraph.cost?_ofGraph, h]
    rfl
  | some node => exact PricedGraph.compute_ofGraph task.estimate h

/-- What shares are measured against: the eligible nodes make up the total, and the
    devices of the inventory should have it in equal shares. -/
def scale (task : Task) : Scale where
  total := (task.positions.map task.compute).sum
  idealShare := 1 / Float.ofNat (max task.devices.length 1)
  margin := task.knobs.computeMargin

/-- A balance accounts for sites: it has a row for every device with the load of the
    eligible nodes there, and the rows add up to the total. -/
structure Accounts (task : Task) (site : Nat → Option Nat) (balance : Balance) : Prop where
  rows : balance.loads.length = task.roster.size
  carries : balance.Carries task.compute site task.positions
  sum : balance.sum = task.scale.total
  scale : balance.scale = task.scale

/-- A balance that some of the eligible nodes were loaded on, as they are at the start. -/
structure Opens (task : Task) (positions : List Nat) (balance : Balance) : Prop where
  rows : balance.loads.length = task.roster.size
  carries : balance.Carries task.compute task.placement.site positions
  sum : balance.sum = (positions.map task.compute).sum
  scale : balance.scale = { task.scale with total := (positions.map task.compute).sum }

/-- Loaded on devices without load, the nodes make up the first balance. -/
theorem opens_of_loadAll {positions : List Nat} {balance : Balance}
    (hp : positions ⊆ task.positions)
    (h : loadAll task.sweep.priced task.placement
      (.ofDevices task.roster.size task.devices.length task.knobs.computeMargin) positions =
        .ok balance) : task.Opens positions balance := by
  have hloaded := loadAll_eq_ok h
  -- Eligible nodes are assigned, so none of their compute costs is left out.
  have hwork : workload task.sweep.priced.compute task.placement.site positions =
      (positions.map task.compute).sum := by
    rw [compute_eq]
    refine congrArg List.sum (List.map_congr_left fun position hposition => ?_)
    rw [if_pos (isSome_site_of_eligible (hp hposition))]
  have hscale := hloaded.scale
  have hsum := hloaded.sum
  rw [hwork] at hscale hsum
  refine ⟨?_, ?_, ?_, ?_⟩
  · rw [hloaded.length]
    exact List.length_replicate
  · have hc := hloaded.carries [] fun device => by
      rw [Balance.loadOf_ofDevices]
      rfl
    rwa [List.nil_append, compute_eq] at hc
  · rw [hsum, Balance.sum_ofDevices, zero_add]
  · rw [hscale]
    exact congrArg (Scale.mk · _ _) (zero_add _)

/-- The loads at the start are those of the graph. -/
theorem opening_eq_ok (h : task.opening = .ok before) :
    task.Accounts task.placement.site before :=
  have hopens := opens_of_loadAll (List.Subset.refl _) h
  ⟨hopens.rows, hopens.carries, hopens.sum, hopens.scale⟩

/-! ## The invariant -/

/-- The invariant of a sweep, between visits: all nodes that were assigned still
    are, and the loads are those of the placement. -/
structure Inv (task : Task) (state : State) : Prop where
  length : state.placement.devices.length = task.graph.nodes.length
  within : state.placement.Within task.roster
  assigned : ∀ position,
    (state.placement.site position).isSome = (task.placement.site position).isSome
  accounts : task.Accounts state.placement.site state.balance

/-- The invariant of a visit, between candidates: the loads are those of the
    placement with the node where the visit has come. -/
structure Amid (task : Task) (placement : Placement) (position : Nat) (visit : Visit) :
    Prop where
  current_lt : visit.current < task.roster.size
  accounts : task.Accounts (update placement.site position (some visit.current)) visit.balance

/-- The invariant holds before the first visit. -/
theorem inv_start (h : task.opening = .ok before) : task.Inv ⟨task.placement, before, [], 0⟩ :=
  ⟨task.length_placement, task.within_placement, fun _ => rfl, opening_eq_ok h⟩

/-- A visit starts with the loads of the placement. -/
theorem Inv.amid {state : State} {position origin : Nat} (h : task.Inv state)
    (hsite : state.placement.site position = some origin) (traffic : Traffic) :
    task.Amid state.placement position ⟨origin, traffic, state.balance, state.moves⟩ where
  current_lt := h.within position origin hsite
  accounts := by
    rw [← hsite, update_eq_self]
    exact h.accounts

/-- A hop keeps the invariant of the visit. -/
theorem amid_of_hop {placement : Placement} {position origin candidate : Nat} {visit next : Visit}
    (hp : position ∈ task.positions) (hc : candidate ∈ task.sweep.candidates)
    (h : task.Amid placement position visit)
    (hhop : task.sweep.Hop placement position origin candidate visit next) :
    task.Amid placement position next := by
  have hmoved := hhop.balance
  rw [compute_eq] at hmoved
  rw [← hhop.current] at hmoved hc
  exact {
    current_lt := candidate_lt hc
    accounts := {
      rows := hmoved.length.trans h.accounts.rows
      carries := hmoved.carries h.accounts.carries hp task.nodup_positions
      sum := hmoved.sum.trans h.accounts.sum
      scale := hmoved.scale.trans h.accounts.scale } }

/-- A search keeps the invariant of the visit, whatever it tries. -/
theorem amid_of_search {state : State} {position origin : Nat} {tried : List Nat} {visit : Visit}
    (h : task.Inv state) (hp : position ∈ task.positions)
    (hsite : state.placement.site position = some origin)
    (ht : ∀ candidate ∈ tried, candidate ∈ task.sweep.candidates)
    (hv : task.sweep.search state position origin tried = .ok visit) :
    task.Amid state.placement position visit :=
  search_keeps (fun _ _ candidate hc hamid hhop => amid_of_hop hp (ht candidate hc) hamid hhop)
    (fun traffic _ => h.amid hsite traffic) hv

/-- A visit keeps the invariant of the sweep. -/
theorem inv_of_visited {state next : State} {position : Nat} (hp : position ∈ task.positions)
    (h : task.Inv state) (hv : task.sweep.Visited state position next) : task.Inv next := by
  cases hv with
  | unassigned _ => exact h
  | pinned _ _ => exact h
  | searched hs =>
    have hamid := amid_of_search h hp hs.site (fun _ hc => hc) hs.search
    exact {
      length := hs.length.trans h.length
      within := h.within.update hamid.current_lt hs.site_next
      assigned := fun other => by
        rw [hs.site_next, update_apply, ← h.assigned]
        split
        · next ho => rw [ho, hs.site]; rfl
        · rfl
      -- The placement catches up with the loads.
      accounts := hs.balance ▸ hs.site_next ▸ hamid.accounts }

/-- By induction on the visits, the invariant of the sweep holds after any of them. -/
theorem inv_after {visited : List Nat} {state : State}
    (hv : ∀ position ∈ visited, position ∈ task.positions)
    (h : task.after visited = .ok state) : task.Inv state :=
  after_keeps (fun _ _ position hp => inv_of_visited (hv position hp)) (fun _ => inv_start) h

/-! ## The loads that are returned -/

/-- The loads of a placement, by number, are those of a graph that has its nodes
    there, by name. -/
theorem loadOn_deviceAt {placement : Placement} {graph : Graph} {device : Nat}
    (hw : placement.Within task.roster) (hd : device < task.roster.size)
    (hat : ∀ position ∈ task.positions,
      graph.deviceAt position = placement.siteName task.roster position) :
    loadOn task.compute graph.deviceAt task.positions (task.roster.nameOf device) =
      loadOn task.compute placement.site task.positions device := by
  rw [← loadOn_map (f := task.roster.nameOf) fun position _ other ho =>
    Roster.nameOf_inj task.nodup_names_roster (hw position other ho) hd]
  exact loadOn_congr fun position hp => by rw [hat position hp, Placement.siteName]

/-- An eligible node is assigned, so its device is its site. -/
theorem deviceAt_graph {position : Nat} (h : position ∈ task.positions) :
    task.graph.deviceAt position = task.placement.siteName task.roster position := by
  obtain ⟨node, hnode, helig⟩ := mem_positions.1 h
  rw [siteName_placement, Graph.deviceAt, hnode, Option.map_some, Option.bind_some, Node.site?,
    if_pos (Eligibility.isEligible_iff.1 helig).2.1]

/-- So it holds in the end. -/
theorem Finished.inv {final : State} (h : task.Finished before final result) : task.Inv final :=
  inv_after (fun _ hp => hp) h.after

/-- A node that is where it was is returned as it was. -/
theorem Finished.node_of_site {final : State} {position : Nat}
    (h : task.Finished before final result)
    (hsite : final.placement.site position = task.placement.site position) :
    result.graph.nodes[position]? = task.graph.nodes[position]? := by
  have hname := task.siteName_placement position
  rw [Placement.siteName, ← hsite, ← Placement.siteName] at hname
  rw [h.graph_eq h.inv.length, List.getElem?_mapIdx, hname]
  cases task.graph.nodes[position]? with
  | none => rfl
  | some node => rw [Option.map_some, Option.bind_some, Node.moveTo_site?]

theorem Finished.deviceAt_graph {final : State} {position : Nat}
    (h : task.Finished before final result) (hp : position ∈ task.positions) :
    result.graph.deviceAt position = final.placement.siteName task.roster position := by
  obtain ⟨node, hnode, _⟩ := mem_positions.1 hp
  have hsite : (final.placement.site position).isSome := by
    rw [h.inv.assigned]
    exact isSome_site_of_eligible hp
  obtain ⟨device, hdevice⟩ := Option.isSome_iff_exists.1 hsite
  rw [h.graph_eq h.inv.length, Graph.deviceAt, List.getElem?_mapIdx, hnode, Placement.siteName,
    hdevice]
  rfl

/-- The balances that a sweep goes through: those between visits, and those of a
    visit after some of the candidates. -/
inductive Passes (task : Task) : Balance → Prop
  | between {visited : List Nat} {state : State} : visited <+: task.positions →
      task.after visited = .ok state → Passes task state.balance
  | amid {visited tried : List Nat} {position origin : Nat} {state : State} {visit : Visit} :
      visited ++ [position] <+: task.positions → task.after visited = .ok state →
      state.placement.site position = some origin → tried <+: task.sweep.candidates →
      task.sweep.search state position origin tried = .ok visit → Passes task visit.balance

/-- Every balance that a sweep goes through accounts for some sites. -/
theorem Passes.accounts {balance : Balance} (h : task.Passes balance) :
    ∃ site, task.Accounts site balance := by
  cases h with
  | between hp hs => exact ⟨_, (inv_after (fun _ h => hp.subset h) hs).accounts⟩
  | amid hp hs hsite ht hv =>
    have hinv := inv_after (subset_of_prefix_concat hp) hs
    have hposition := mem_of_prefix_concat hp
    exact ⟨_, (amid_of_search hinv hposition hsite (fun _ h => ht.subset h) hv).accounts⟩

/-- What is true of the loads of a sweep that returns, from its start to its end. -/
structure LoadTable (task : Task) (result : Result) : Prop where
  /-- Between visits, a device has the load of the eligible nodes assigned to it. -/
  between : ∀ visited, visited <+: task.positions → ∃ state, task.after visited = .ok state ∧
    ∀ device, state.balance.loadOf device =
      loadOn task.compute state.placement.site task.positions device
  /-- Every candidate is reached in the visit of a node that may move. -/
  amid : ∀ visited position state origin, visited ++ [position] <+: task.positions →
    2 ≤ task.sweep.candidates.length → task.after visited = .ok state →
    state.placement.site position = some origin →
    task.pinned.isPinned (task.roster.nameOf origin) = false →
    ∀ tried, tried <+: task.sweep.candidates →
      ∃ visit, task.sweep.search state position origin tried = .ok visit
  /-- The loads add up to a total that never changes, also during a visit. -/
  conserved : ∀ balance, task.Passes balance →
    balance.sum = balance.total.toInt ∧ balance.total = result.totalComputeCost
  /-- No device has two rows. -/
  nodup : (result.deviceLoads.map DeviceLoad.device).Nodup
  /-- The rows are for the devices of the inventory and those that nodes are on. -/
  mem_iff : ∀ name, name ∈ result.deviceLoads.map DeviceLoad.device ↔
    name ∈ task.devices ∨ ∃ node ∈ task.graph.nodes, node.site? = some name
  loadBefore : ∀ row ∈ result.deviceLoads, row.loadBefore.toInt =
    loadOn task.compute task.graph.deviceAt task.positions row.device
  loadAfter : ∀ row ∈ result.deviceLoads, row.loadAfter.toInt =
    loadOn task.compute result.graph.deviceAt task.positions row.device
  sum_loadBefore : (result.deviceLoads.map fun row => row.loadBefore.toInt).sum =
    result.totalComputeCost.toInt
  sum_loadAfter : (result.deviceLoads.map fun row => row.loadAfter.toInt).sum =
    result.totalComputeCost.toInt

/-- A sweep that returns has been through every visit, and in between the loads are those of the
    sites. -/
theorem between_of_run {visited : List Nat} (h : task.run = .ok result)
    (hp : visited <+: task.positions) : ∃ state, task.after visited = .ok state ∧
      ∀ device, state.balance.loadOf device =
        loadOn task.compute state.placement.site task.positions device := by
  obtain ⟨state, hs⟩ := after_of_prefix h hp
  exact ⟨state, hs, (inv_after (fun _ h => hp.subset h) hs).accounts.carries⟩

/-- It has also been through every candidate of a visit. -/
theorem amid_of_run {visited tried : List Nat} {position origin : Nat} {state : State}
    (h : task.run = .ok result) (hp : visited ++ [position] <+: task.positions)
    (hc : 2 ≤ task.sweep.candidates.length) (hs : task.after visited = .ok state)
    (hsite : state.placement.site position = some origin)
    (hpinned : task.pinned.isPinned (task.roster.nameOf origin) = false)
    (ht : tried <+: task.sweep.candidates) :
    ∃ visit, task.sweep.search state position origin tried = .ok visit := by
  obtain ⟨next, hnext⟩ := visit_of_prefix h hp hc hs
  cases visit_eq_ok hnext with
  | unassigned hnone => rw [hsite] at hnone; cases hnone
  | pinned hsite' hyes =>
    cases hsite.symm.trans hsite'
    exact absurd (hpinned.symm.trans hyes) Bool.false_ne_true
  | searched hs =>
    -- The whole search has returned, and so has every part of it.
    cases hsite.symm.trans hs.site
    exact search_of_prefix hs.search ht

/-- The total never changes. -/
theorem Accounts.total_eq {site : Nat → Option Nat} {balance : Balance}
    (h : task.Accounts site balance) : balance.total.toInt = task.scale.total :=
  congrArg Scale.total h.scale

/-- So the total that is reported is that of all eligible nodes. -/
theorem Finished.totalComputeCost_eq {final : State} (h : task.Finished before final result) :
    result.totalComputeCost.toInt = task.scale.total := by
  rw [h.totalComputeCost, h.inv.accounts.total_eq]

/-- At any time the loads add up to the total that is reported. -/
theorem conserved_of_run {balance : Balance} (h : task.run = .ok result)
    (hb : task.Passes balance) :
    balance.sum = balance.total.toInt ∧ balance.total = result.totalComputeCost := by
  obtain ⟨before, final, hf⟩ := run_eq_ok h
  obtain ⟨site, haccounts⟩ := hb.accounts
  constructor
  · rw [haccounts.sum, haccounts.total_eq]
  · rw [← Int64.toInt_inj, haccounts.total_eq, hf.totalComputeCost_eq]

/-- Every device is reported once, in the order of the roster. -/
theorem Finished.map_device {final : State} (h : task.Finished before final result) :
    result.deviceLoads.map DeviceLoad.device = task.roster.names := by
  rw [h.map_rows (g := task.roster.nameOf) fun _ _ hrow => hrow.name]
  exact task.roster.map_nameOf_range

/-- The load before is that of the graph that was given. -/
theorem Finished.loadBefore {final : State} {row : DeviceLoad}
    (h : task.Finished before final result) (hr : row ∈ result.deviceLoads) :
    row.loadBefore.toInt = loadOn task.compute task.graph.deviceAt task.positions row.device := by
  obtain ⟨device, hrow⟩ := h.row_of_mem hr
  rw [hrow.loadBefore, hrow.name, (opening_eq_ok h.opening).carries,
    loadOn_deviceAt task.within_placement hrow.device_lt fun _ => Task.deviceAt_graph]

/-- The load after is that of the graph that is returned. -/
theorem Finished.loadAfter {final : State} {row : DeviceLoad}
    (h : task.Finished before final result) (hr : row ∈ result.deviceLoads) :
    row.loadAfter.toInt =
      loadOn task.compute result.graph.deviceAt task.positions row.device := by
  obtain ⟨device, hrow⟩ := h.row_of_mem hr
  rw [hrow.loadAfter, hrow.name, h.inv.accounts.carries,
    loadOn_deviceAt h.inv.within hrow.device_lt fun _ => h.deviceAt_graph]

/-- The rows of a balance, read one by one, add up to the total. -/
theorem Accounts.sum_map_loadOf {site : Nat → Option Nat} {balance : Balance}
    (h : task.Accounts site balance) :
    ((List.range task.roster.size).map balance.loadOf).sum = task.scale.total := by
  rw [← h.sum, Balance.sum, ← h.rows]
  congr 1
  -- The default of `loadOf` is never used: there is a row for every device.
  refine List.ext_getElem (by simp) fun device hd _ => ?_
  rw [List.length_map, List.length_range] at hd
  rw [List.getElem_map, List.getElem_range, List.getElem_map, Balance.loadOf,
    List.getElem?_eq_getElem hd, Option.map_some, Option.getD_some]

/-- The loads before add up to the reported total. -/
theorem Finished.sum_loadBefore {final : State} (h : task.Finished before final result) :
    (result.deviceLoads.map fun row => row.loadBefore.toInt).sum =
      result.totalComputeCost.toInt := by
  rw [h.map_rows fun _ _ hrow => hrow.loadBefore, (opening_eq_ok h.opening).sum_map_loadOf,
    h.totalComputeCost_eq]

/-- So do the loads after. -/
theorem Finished.sum_loadAfter {final : State} (h : task.Finished before final result) :
    (result.deviceLoads.map fun row => row.loadAfter.toInt).sum =
      result.totalComputeCost.toInt := by
  rw [h.map_rows fun _ _ hrow => hrow.loadAfter, h.inv.accounts.sum_map_loadOf,
    h.totalComputeCost_eq]

/-- The load table is right throughout a sweep, and what is returned of it is
    what the two graphs say. -/
theorem loads_of_run (h : task.run = .ok result) : task.LoadTable result := by
  obtain ⟨before, final, hf⟩ := run_eq_ok h
  exact {
    between := fun visited hp => between_of_run h hp
    amid := fun visited position state origin hp hc hs hsite hpinned tried ht =>
      amid_of_run h hp hc hs hsite hpinned ht
    conserved := fun balance hb => conserved_of_run h hb
    nodup := hf.map_device ▸ task.nodup_names_roster
    mem_iff := fun name => by rw [hf.map_device, mem_names_roster]
    loadBefore := fun row hr => hf.loadBefore hr
    loadAfter := fun row hr => hf.loadAfter hr
    sum_loadBefore := hf.sum_loadBefore
    sum_loadAfter := hf.sum_loadAfter }

theorem loads_of_relay : ∃ result, relay.run = .ok result ∧ relay.LoadTable result ∧
    result.deviceLoads.map (fun row => (row.device, row.loadBefore, row.loadAfter)) =
      [("dev0", 3, 0), ("CPU", 0, 0), ("dev1", 0, 0), ("dev2", 0, 7), ("dev9", 4, 0)] := by
  obtain ⟨result, h, _, hrows⟩ := run_relay
  exact ⟨result, h, loads_of_run h, hrows⟩

end Task

end Sweep

end DevicePlacement

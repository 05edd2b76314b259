import DevicePlacement.Proofs.Placement.Alike
import DevicePlacement.Proofs.Sweep.Loads

/-!
# Sweeps in step

Two sweeps are alike (`Sweep.Alike`) if their priced graphs are and their devices
have the same numbers, whatever their names. They go through the same candidates, make
the same moves and stop with the same fault, if any; only the names in their records
differ. This is shown step by step:

* `Alike.inStep_consider`, `Alike.inStep_visit`: for a candidate and a visit;
* `Alike.inStep_visitAll`: for all visits;
* `Task.Alike.inStep_run`: for a whole run, of two tasks that are alike (`Task.Alike`)
  up to a renaming that keeps all names apart (`Renaming.Faithful`).
-/

namespace DevicePlacement

open Checked

/-- The record of the move of a renamed node between renamed devices. -/
def MoveRecord.rename (names : Renaming) (made : MoveRecord) : MoveRecord :=
  { made with
    node := names.node made.node
    source := names.device made.source
    target := names.device made.target }

/-- The load of a renamed device. -/
def DeviceLoad.rename (names : Renaming) (row : DeviceLoad) : DeviceLoad :=
  { row with device := names.device row.device }

namespace Sweep

/-- A visit with the moves of renamed nodes. -/
def Visit.rename (names : Renaming) (visit : Visit) : Visit :=
  { visit with moves := visit.moves.map (MoveRecord.rename names) }

/-- A state with the moves of renamed nodes. -/
def State.rename (names : Renaming) (state : State) : State :=
  { state with moves := state.moves.map (MoveRecord.rename names) }

/-- A sweep over renamed devices and nodes. The compute costs of the nodes at the given
    positions count. -/
structure Alike (names : Renaming) (counting : List Nat) (sweep other : Sweep) : Prop where
  priced : sweep.priced.Alike names.node counting other.priced
  counting_lt : ∀ position ∈ counting, position < sweep.priced.size
  roster : other.roster = sweep.roster.rename names.device
  pinned : ∀ name ∈ sweep.roster.names,
    other.pinned.isPinned (names.device name) = sweep.pinned.isPinned name
  candidates : other.candidates = sweep.candidates

namespace Alike

variable {names : Renaming} {counting positions : List Nat} {sweep other : Sweep}
  {placement : Placement} {position : Nat} (h : sweep.Alike names counting other)

include h

/-- A move is recorded with the renamed node and the renamed devices. -/
theorem inStep_record (position : Nat) (move : Relocation) (balance : Balance) :
    InStep (fun made made' => made' = made.rename names) (sweep.record position move balance)
      (other.record position move balance) := by
  rw [record, record, h.roster]
  refine (h.priced.inStep_name position).bind fun node node' hnode => ?_
  refine (Roster.inStep_name ..).bind fun source source' hsource => ?_
  refine (Roster.inStep_name ..).bind fun target target' htarget => ?_
  refine inStep_bind_left fun deltaBefore _ => inStep_bind_left fun deltaAfter _ => ?_
  refine inStep_bind_left fun originShare _ => inStep_bind_left fun destinationShare _ => ?_
  refine inStep_pure ?_
  rw [hnode, hsource.2, htarget.2, MoveRecord.rename]

/-- A candidate is taken in both visits or in neither: devices are compared by their numbers. -/
theorem inStep_consider (hl : placement.devices.length = sweep.priced.size)
    (hp : position ∈ counting) (origin : Nat) (visit : Visit) (candidate : Nat) :
    InStep (fun next next' => next' = next.rename names)
      (sweep.consider placement position origin visit candidate)
      (other.consider placement position origin (visit.rename names) candidate) := by
  have htraffic := h.priced.traffic_eq hl (h.counting_lt position hp) hp candidate
  rw [consider, consider, ← htraffic]
  refine inStep_ite (fun _ => inStep_pure rfl) fun _ => ?_
  refine inStep_bind_left fun traffic _ => inStep_bind_left fun answer _ => ?_
  refine inStep_ite (fun _ => ?_) fun _ => inStep_pure rfl
  refine inStep_bind_left fun balance _ => ?_
  refine (h.inStep_record position _ balance).bind fun made made' hmade => ?_
  refine inStep_pure ?_
  simp [Visit.rename, hmade]

/-- So the two searches take the same devices, one after the other. -/
theorem inStep_search (hl : placement.devices.length = sweep.priced.size)
    (hp : position ∈ counting) (origin : Nat) (visit : Visit) (candidates : List Nat) :
    InStep (fun next next' => next' = next.rename names)
      (candidates.foldlM (sweep.consider placement position origin) visit)
      (candidates.foldlM (other.consider placement position origin) (visit.rename names)) := by
  refine InStep.foldlM (fun visit visit' candidate _ hvisit => ?_) rfl
  rw [hvisit]
  exact h.inStep_consider hl hp origin visit candidate

/-- A visit does the same to both placements, and they keep their length. -/
theorem inStep_visit {state : State} (hl : state.placement.devices.length = sweep.priced.size)
    (hp : position ∈ counting) :
    InStep (fun next next' => next' = next.rename names ∧
        next.placement.devices.length = sweep.priced.size)
      (sweep.visit state position) (other.visit (state.rename names) position) := by
  rw [visit, visit, h.roster, h.candidates]
  refine inStep_bind_left fun device _ => ?_
  cases device with
  | none => exact inStep_pure ⟨rfl, hl⟩
  | some origin =>
    refine (Roster.inStep_name ..).bind fun name name' hname => ?_
    rw [hname.2, h.pinned name hname.1]
    refine inStep_ite (fun _ => inStep_pure ⟨rfl, hl⟩) fun _ => ?_
    refine InStep.bind (h.priced.inStep_traffic hl (h.counting_lt position hp) origin) ?_
    intro traffic traffic' htraffic
    -- The traffic is the same number for number, as the position is one of those that are counted.
    rw [← htraffic.eq hp]
    refine (h.inStep_search hl hp origin _ _).bind fun visit visit' hvisit => ?_
    rw [hvisit]
    refine inStep_ite (fun _ => inStep_pure ⟨rfl, hl⟩) fun _ => ?_
    refine inStep_bind_left fun placement hplacement => ?_
    exact inStep_pure ⟨rfl, (Placement.assign_eq_ok hplacement).2.1.trans hl⟩

/-- All visits do, by induction on the positions. -/
theorem inStep_visitAll {state : State} (hl : state.placement.devices.length = sweep.priced.size)
    (hpositions : ∀ position ∈ positions, position ∈ counting) :
    InStep (fun final final' => final' = final.rename names ∧
        final.placement.devices.length = sweep.priced.size)
      (sweep.visitAll state positions) (other.visitAll (state.rename names) positions) := by
  rw [visitAll, visitAll, h.candidates]
  refine inStep_ite (fun _ => .returned ⟨rfl, hl⟩) fun _ => ?_
  refine InStep.foldlM (fun state state' position hp hstate => ?_) ⟨rfl, hl⟩
  rw [hstate.1]
  exact h.inStep_visit hstate.2 (hpositions position hp)

/-- The loads that are added up have no names in them, so they are equal. -/
theorem inStep_loadAll (hpositions : ∀ position ∈ positions, position ∈ counting)
    (balance : Balance) :
    InStep Eq (loadAll sweep.priced placement balance positions)
      (loadAll other.priced placement balance positions) := by
  refine InStep.foldlM (fun balance balance' position hp hbalance => ?_) rfl
  subst hbalance
  refine inStep_bind_left fun device _ => ?_
  cases device with
  | none => exact .refl _
  | some device =>
    have hp := hpositions position hp
    refine (h.priced.inStep_computeCost (h.counting_lt position hp)).bind fun cost cost' hcost => ?_
    rw [hcost hp]
    exact .refl _

/-- The load of a device is reported under its new name. -/
theorem inStep_deviceLoad (before after : Balance) (device : Nat) :
    InStep (fun row row' => row' = row.rename names) (sweep.deviceLoad before after device)
      (other.deviceLoad before after device) := by
  rw [deviceLoad, deviceLoad, h.roster]
  refine (Roster.inStep_name ..).bind fun name name' hname => ?_
  refine inStep_bind_left fun loadBefore _ => inStep_bind_left fun loadAfter _ => ?_
  refine inStep_bind_left fun shareAfter _ => inStep_pure ?_
  rw [hname.2, h.pinned name hname.1, DeviceLoad.rename]

/-- All loads are reported in the same order, under the new names. -/
theorem inStep_deviceLoads (before after : Balance) (devices : List Nat) :
    InStep (fun rows rows' => rows' = rows.map (DeviceLoad.rename names))
      (devices.mapM (sweep.deviceLoad before after))
      (devices.mapM (other.deviceLoad before after)) := by
  have hrows := inStep_mapM (List.forall₂_same.2 fun device (_ : device ∈ devices) =>
    h.inStep_deviceLoad before after device)
  refine hrows.imp fun rows rows' hrows => ?_
  rw [← map_eq_map_of_forall₂ (g := id) hrows, List.map_id]

end Alike

end Sweep

/-! ## Tasks -/

namespace Sweep.Task

variable {task : Task} {node : Node} {name : String}

/-- The names of devices in a task, and the name that stands for no device. -/
def deviceNames (task : Task) : List String :=
  "" :: (task.devices ++ task.graph.nodes.map Node.device)

/-- The names of nodes in a task: of the nodes themselves, of the producers that inputs
    refer to, and of the entries of the estimate. -/
def nodeNames (task : Task) : List String :=
  task.graph.nodes.map Node.name ++
    (task.graph.nodes.flatMap fun node => node.inputs.map InputRef.producer) ++
    task.estimate.nodes.entries.map Prod.fst

theorem mem_deviceNames_of_inventory (h : name ∈ task.devices) : name ∈ task.deviceNames := by
  simp [deviceNames, h]

theorem device_mem_deviceNames (h : node ∈ task.graph.nodes) : node.device ∈ task.deviceNames := by
  simp only [deviceNames, List.mem_cons, List.mem_append, List.mem_map]
  exact .inr (.inr ⟨node, h, rfl⟩)

/-- Only the devices of the inventory and of nodes are enrolled. -/
theorem mem_deviceNames_of_roster (h : name ∈ task.roster.names) : name ∈ task.deviceNames := by
  rcases mem_names_roster.1 h with hname | ⟨node, hnode, hsite⟩
  · exact mem_deviceNames_of_inventory hname
  · rw [Node.site?, Option.ite_none_right_eq_some, Option.some_inj] at hsite
    exact hsite.2 ▸ device_mem_deviceNames hnode

theorem name_mem_nodeNames (h : node ∈ task.graph.nodes) : node.name ∈ task.nodeNames := by
  simp only [nodeNames, List.mem_append, List.mem_map]
  exact .inl (.inl ⟨node, h, rfl⟩)

theorem producer_mem_nodeNames {input : InputRef} (h : node ∈ task.graph.nodes)
    (hinput : input ∈ node.dataInputs) : input.producer ∈ task.nodeNames := by
  simp only [nodeNames, List.mem_append, List.mem_flatMap, List.mem_map]
  exact .inl (.inr ⟨node, h, input, (List.mem_filter.1 hinput).1, rfl⟩)

theorem key_mem_nodeNames (h : name ∈ task.estimate.nodes.entries.map Prod.fst) :
    name ∈ task.nodeNames :=
  List.mem_append_right _ h

end Sweep.Task

/-- A renaming is faithful to a task if it keeps apart all names in it, with the empty
    name of a device staying empty, and leaves the pinned devices pinned and no others. -/
structure Renaming.Faithful (names : Renaming) (task : Sweep.Task) : Prop where
  device : Set.InjOn names.device {name | name ∈ task.deviceNames}
  empty : names.device "" = ""
  pinned : ∀ name ∈ task.deviceNames,
    task.pinned.isPinned (names.device name) = task.pinned.isPinned name
  node : Set.InjOn names.node {name | name ∈ task.nodeNames}

instance (names : Renaming) (task : Sweep.Task) : Decidable (names.Faithful task) :=
  decidable_of_iff
    ((∀ name ∈ task.deviceNames, ∀ other ∈ task.deviceNames,
        names.device name = names.device other → name = other) ∧
      names.device "" = "" ∧
      (∀ name ∈ task.deviceNames,
        task.pinned.isPinned (names.device name) = task.pinned.isPinned name) ∧
      ∀ name ∈ task.nodeNames, ∀ other ∈ task.nodeNames,
        names.node name = names.node other → name = other)
    ⟨fun ⟨hdevice, hempty, hpinned, hnode⟩ => ⟨hdevice, hempty, hpinned, hnode⟩,
      fun h => ⟨h.device, h.empty, h.pinned, h.node⟩⟩

/-- A node is eligible under new names exactly if it was: its op type is the same, and what is
    empty or pinned has stayed so. -/
theorem Renaming.Faithful.isEligible_eq {names : Renaming} {task : Sweep.Task} {node other : Node}
    (h : names.Faithful task) (hnode : node ∈ task.graph.nodes) (halike : node.Alike names other) :
    task.eligibility.isEligible other = task.eligibility.isEligible node := by
  have hdevice := Sweep.Task.device_mem_deviceNames hnode
  have hpinned : task.eligibility.pinned.isPinned (names.device node.device) =
      task.eligibility.pinned.isPinned node.device := h.pinned _ hdevice
  rw [Bool.eq_iff_iff, Eligibility.isEligible_iff, Eligibility.isEligible_iff, halike.op,
    halike.isAssigned_eq h.device h.empty List.mem_cons_self hdevice, halike.device, hpinned]

/-- A node ships data to a node of the graph. -/
def Graph.Ships (graph : Graph) (node : Node) : Prop :=
  ∃ consumer ∈ graph.nodes, ∃ input ∈ consumer.dataInputs, input.producer = node.name

instance (graph : Graph) (node : Node) : Decidable (graph.Ships node) :=
  inferInstanceAs (Decidable (∃ consumer ∈ graph.nodes, ∃ input ∈ consumer.dataInputs,
    input.producer = node.name))

namespace Sweep

/-- The devices of the nodes are renamed, and so are the devices and the nodes in the
    records; all else is the same. -/
structure Result.Alike (names : Renaming) (result other : Result) : Prop where
  devices : List.Forall₂ (fun node node' => node'.device = names.device node.device)
    result.graph.nodes other.graph.nodes
  rest : { other with graph := result.graph } = { result with
    moves := result.moves.map (MoveRecord.rename names)
    deviceLoads := result.deviceLoads.map (DeviceLoad.rename names) }

namespace Task

/-- The last phase of a sweep, which puts its result together. -/
def conclude (task : Task) (before : Balance) (final : State)
    (externalBefore externalAfter : Int64) : Except Fault Result := do
  let deviceLoads ← (List.range task.roster.size).mapM
    (task.sweep.deviceLoad before final.balance)
  let placed ← final.placement.place task.roster task.graph
  return {
    graph := placed
    moved := final.moved
    moves := final.moves
    eligible := task.positions.length
    totalComputeCost := final.balance.total
    idealShare := final.balance.idealShare
    deviceLoads := deviceLoads
    externalBefore := externalBefore
    externalAfter := externalAfter }

/-- The phases of a sweep. -/
theorem run_eq (task : Task) : task.run = (do
    let before ← task.opening
    let externalBefore ← task.sweep.priced.totalExternal task.placement
    let final ← task.sweep.visitAll ⟨task.placement, before, [], 0⟩ task.positions
    let externalAfter ← task.sweep.priced.totalExternal final.placement
    if !(← final.balance.isConserved) then
      throw .unbalanced
    task.conclude before final externalBefore externalAfter) := rfl

/-- The other task is a task with its names renamed, as far as a sweep looks at it. The
    compute costs of eligible nodes count, and the sizes of nodes that ship data. -/
structure Alike (names : Renaming) (task other : Task) : Prop where
  catalog : other.catalog = task.catalog
  knobs : other.knobs = task.knobs
  devices : other.devices = task.devices.map names.device
  nodes : List.Forall₂ (Node.Alike names) task.graph.nodes other.graph.nodes
  compute : ∀ node ∈ task.graph.nodes, task.eligibility.isEligible node = true →
    other.estimate.compute (node.rename names) = task.estimate.compute node
  size : ∀ node ∈ task.graph.nodes, task.graph.Ships node →
    other.estimate.size (node.rename names) = task.estimate.size node

namespace Alike

variable {names : Renaming} {task other : Task} (h : task.Alike names other)

include h

/-- Nodes that correspond, with one of them known to be in the graph. -/
theorem forall₂_nodes :
    List.Forall₂ (fun node node' => node ∈ task.graph.nodes ∧ node.Alike names node')
      task.graph.nodes other.graph.nodes :=
  (List.forall₂_and_left _ _).2 ⟨fun _ hnode => hnode, h.nodes⟩

theorem pinned_eq : other.pinned = task.pinned := by
  rw [pinned, pinned, h.knobs]

/-- What makes nodes eligible is told by the op types and the knobs, which are the same. -/
theorem eligibility_eq : other.eligibility = task.eligibility := by
  rw [eligibility, eligibility, h.catalog, h.knobs, h.pinned_eq]

variable (hnames : names.Faithful task)

include hnames

/-- Renamed devices have the numbers of the devices, and all nodes stand where they stood. -/
theorem ofGraph_eq :
    Placement.ofGraph (Roster.ofInventory other.devices) other.graph =
      (task.roster.rename names.device, task.placement) := by
  have hroster : ∀ name ∈ (Roster.ofInventory task.devices).names, name ∈ task.deviceNames :=
    fun name hname => mem_deviceNames_of_inventory (Roster.mem_names_ofInventory.1 hname)
  rw [Placement.ofGraph, h.devices,
    Roster.ofInventory_rename hnames.device fun _ => mem_deviceNames_of_inventory,
    Placement.enrollNodes_rename hnames.device hnames.empty List.mem_cons_self hroster
      (fun _ => device_mem_deviceNames) h.nodes]
  rfl

/-- The devices come up in the same order, under their new names. -/
theorem roster_eq : other.roster = task.roster.rename names.device := by
  rw [roster, h.ofGraph_eq hnames]

/-- There are as many devices. -/
theorem size_roster_eq : other.roster.size = task.roster.size := by
  rw [h.roster_eq hnames, Roster.size, Roster.rename, List.length_map, Roster.size]

/-- The nodes are on the devices with the same numbers. -/
theorem placement_eq : other.placement = task.placement := by
  rw [placement, h.ofGraph_eq hnames]

/-- The same positions hold eligible nodes. -/
theorem positions_eq : other.positions = task.positions := by
  rw [positions, h.eligibility_eq]
  refine map_snd_filter_zipIdx_eq (h.forall₂_nodes.imp ?_) 0
  intro node node' hnode
  exact hnames.isEligible_eq hnode.1 hnode.2

/-- The graphs of two tasks that are alike are priced alike. -/
theorem alike_priced :
    task.sweep.priced.Alike names.node task.positions other.sweep.priced where
  closed := PricedGraph.closed_ofGraph ..
  closed' := PricedGraph.closed_ofGraph ..
  names := h.nodes.imp fun _ _ halike => halike.name
  producers := by
    rw [sweep, sweep, PricedGraph.producers_ofGraph, PricedGraph.producers_ofGraph]
    refine map_eq_map_of_forall₂ (h.forall₂_nodes.imp fun node node' hnode => ?_)
    exact Graph.producers_of_names (h.nodes.imp fun _ _ halike => halike.name) hnames.node
      (fun _ => name_mem_nodeNames) (fun _ => producer_mem_nodeNames hnode.1) hnode.2.producers
  output position producer hproducer := by
    obtain ⟨consumer, hconsumer, hproducer⟩ :=
      Graph.mem_edges.1 (PricedGraph.mem_edges_of_mem_producersOf hproducer)
    obtain ⟨node, hnode, hinput⟩ := Graph.exists_of_mem_producers hproducer
    obtain ⟨node', hnode', halike⟩ := getElem?_of_forall₂ h.nodes hnode
    -- The estimates agree on the sizes of the nodes that ship something, and this node does.
    have hships : task.graph.Ships node := ⟨consumer, List.mem_of_getElem? hconsumer, hinput⟩
    rw [← Int64.toInt_inj, sweep, sweep, PricedGraph.toInt_output_ofGraph _ hnode,
      PricedGraph.toInt_output_ofGraph _ hnode', ← h.size node (List.mem_of_getElem? hnode) hships]
    exact (Estimate.eq_of_name halike.name).2
  compute position hposition := by
    obtain ⟨node, hnode, helig⟩ := mem_positions.1 hposition
    obtain ⟨node', hnode', halike⟩ := getElem?_of_forall₂ h.nodes hnode
    rw [sweep, sweep, PricedGraph.compute_ofGraph _ hnode, PricedGraph.compute_ofGraph _ hnode',
      ← h.compute node (List.mem_of_getElem? hnode) helig]
    exact (Estimate.eq_of_name halike.name).1

/-- Their sweeps are alike, since devices are numbered by the order in which they come up. -/
theorem alike_sweep : task.sweep.Alike names task.positions other.sweep where
  priced := h.alike_priced hnames
  counting_lt position hposition := List.mem_range.1 (task.sublist_positions.subset hposition)
  roster := h.roster_eq hnames
  pinned name hname := by
    rw [sweep, h.pinned_eq]
    exact hnames.pinned name (mem_deviceNames_of_roster hname)
  candidates := by
    rw [sweep, sweep, h.pinned_eq, h.roster_eq hnames]
    exact Roster.candidates_rename fun name hname =>
      hnames.pinned name (mem_deviceNames_of_roster hname)

/-- Both sweeps begin with the same loads. -/
theorem inStep_opening : InStep Eq task.opening other.opening := by
  have hdevices : other.devices.length = task.devices.length := by
    rw [h.devices, List.length_map]
  rw [opening, opening, h.placement_eq hnames, h.positions_eq hnames, h.size_roster_eq hnames,
    hdevices, h.knobs]
  exact (h.alike_sweep hnames).inStep_loadAll (fun _ hposition => hposition) _

/-- The external cost is a sum over numbers, so it is the same. -/
theorem inStep_external {placement : Placement}
    (hl : placement.devices.length = task.sweep.priced.size) :
    InStep Eq (task.sweep.priced.totalExternal placement)
      (other.sweep.priced.totalExternal placement) := by
  rw [(h.alike_sweep hnames).priced.totalExternal_eq hl]
  exact .refl _

/-- What is made of the last state is alike if the states are. -/
theorem inStep_conclude (before : Balance) (final : State) (externalBefore externalAfter : Int64) :
    InStep (Result.Alike names) (task.conclude before final externalBefore externalAfter)
      (other.conclude before (final.rename names) externalBefore externalAfter) := by
  have hdevices : List.Forall₂ (fun node node' => node'.device = names.device node.device)
      task.graph.nodes other.graph.nodes := h.nodes.imp fun _ _ halike => halike.device
  rw [conclude, conclude, h.size_roster_eq hnames, h.roster_eq hnames, h.positions_eq hnames]
  refine ((h.alike_sweep hnames).inStep_deviceLoads ..).bind fun rows rows' hrows => ?_
  refine (Placement.inStep_place hdevices ..).bind fun placed placed' hplaced => ?_
  rw [hrows]
  exact inStep_pure ⟨hplaced, rfl⟩

/-- Alike tasks are swept alike. -/
theorem inStep_run : InStep (Result.Alike names) task.run other.run := by
  have hstart : task.placement.devices.length = task.sweep.priced.size := task.length_placement
  rw [run_eq, run_eq, h.placement_eq hnames, h.positions_eq hnames]
  refine (h.inStep_opening hnames).bind fun before before' hbefore => ?_
  subst hbefore
  refine (h.inStep_external hnames hstart).bind fun externalBefore externalBefore' hexternal => ?_
  subst hexternal
  -- The loops start in one state and go over the same positions.
  have hswept : InStep _ (task.sweep.visitAll ⟨task.placement, before, [], 0⟩ task.positions)
      (other.sweep.visitAll ⟨task.placement, before, [], 0⟩ task.positions) :=
    (h.alike_sweep hnames).inStep_visitAll hstart fun _ hp => hp
  refine hswept.bind fun final final' hfinal => ?_
  obtain ⟨rfl, hend⟩ := hfinal
  refine (h.inStep_external hnames hend).bind fun externalAfter externalAfter' hexternal => ?_
  subst hexternal
  refine inStep_bind_left fun conserved _ => inStep_ite (fun _ => .stopped _) fun _ => ?_
  exact h.inStep_conclude hnames before final externalBefore externalAfter

end Alike

end Task

end Sweep

end DevicePlacement

import DevicePlacement.Proofs.Placement.Extension
import DevicePlacement.Proofs.Sweep.Tour

/-!
# Graphs with further nodes

A sweep looks at eligible nodes, at their producers, and at nothing else. So nodes that come
after the others in a graph make no difference to them if they are not eligible and no data
input of the others means one of them (`Task.Outside`), whatever they consume themselves. They
may bring further devices, which are numbered last, and they add to the external traffic.

Everything that a sweep does on its tables it does on the longer ones as well:

* `Prefix.follows_consider`, `Prefix.follows_visit`, `Prefix.follows_visitAll`: the steps;
* `Task.run_append`: the results, if both sweeps return.
-/

namespace DevicePlacement.Sweep

open Checked Function

/-- A visit with rows for further devices. -/
def Visit.extend (visit : Visit) (rows : List Int64) : Visit :=
  { visit with balance := visit.balance.extend rows }

/-- A state with further nodes and with rows for further devices. -/
def State.extend (state : State) (rest : List (Option Nat)) (rows : List Int64) : State :=
  { state with placement := state.placement.extend rest, balance := state.balance.extend rows }

/-- The tables of a sweep are the beginnings of those of another one, with the same
    candidates. -/
structure Prefix (sweep other : Sweep) : Prop where
  priced : sweep.priced.Prefix other.priced
  names : sweep.roster.names <+: other.roster.names
  pinned : other.pinned = sweep.pinned
  candidates : other.candidates = sweep.candidates

namespace Prefix

variable {sweep other : Sweep} {placement : Placement} {rest : List (Option Nat)}
  {rows : List Int64} (h : sweep.Prefix other)

include h

/-- The devices that were there keep their names. -/
theorem follows_name (device : Nat) :
    Follows id (sweep.roster.name device) (other.roster.name device) :=
  follows_row h.names device

/-- A move is recorded alike, with the further rows standing by. -/
theorem follows_record (position : Nat) (move : Relocation) (balance : Balance) :
    Follows id (sweep.record position move balance)
      (other.record position move (balance.extend rows)) := by
  rw [record, record]
  refine (follows_row h.priced.nodes position).bind_same fun node => ?_
  refine (h.follows_name move.origin).bind_same fun source => ?_
  refine (h.follows_name move.destination).bind_same fun target => ?_
  refine (follows_refl _).bind_same fun deltaBefore => ?_
  refine (follows_refl _).bind_same fun deltaAfter => ?_
  refine (Balance.follows_share move.origin).bind_same fun originShare => ?_
  exact (Balance.follows_share move.destination).bind_same fun destinationShare => follows_refl _

/-- A candidate is taken with further rows exactly if it is without them. -/
theorem follows_consider (position origin : Nat) (visit : Visit) (candidate : Nat) :
    Follows (·.extend rows) (sweep.consider placement position origin visit candidate)
      (other.consider (placement.extend rest) position origin (visit.extend rows) candidate) := by
  rw [consider, consider]
  refine follows_ite (fun _ => follows_pure _) fun _ => ?_
  refine (h.priced.follows_traffic position candidate).bind_same fun traffic => ?_
  refine (Balance.follows_isBeneficial _).bind_same fun answer => ?_
  refine follows_ite (fun _ => ?_) fun _ => follows_pure _
  refine (Balance.follows_apply _).bind fun balance => ?_
  exact (h.follows_record position _ balance).bind_same fun made => follows_pure _

/-- So the search takes the same devices. -/
theorem follows_search (position origin : Nat) (visit : Visit) (candidates : List Nat) :
    Follows (·.extend rows)
      (candidates.foldlM (sweep.consider placement position origin) visit)
      (candidates.foldlM (other.consider (placement.extend rest) position origin)
        (visit.extend rows)) :=
  Follows.foldlM (h.follows_consider position origin) visit

/-- A visit of a node that was there leaves the further nodes where they are. -/
theorem follows_visit (state : State) (position : Nat) :
    Follows (·.extend rest rows) (sweep.visit state position)
      (other.visit (state.extend rest rows) position) := by
  rw [visit, visit, h.pinned, h.candidates]
  refine (Placement.follows_device position).bind_same fun device => ?_
  cases device with
  | none => exact follows_pure _
  | some origin =>
    refine (h.follows_name origin).bind_same fun name => ?_
    refine follows_ite (fun _ => follows_pure _) fun _ => ?_
    refine (h.priced.follows_traffic position origin).bind_same fun traffic => ?_
    refine (h.follows_search position origin _ sweep.candidates).bind fun visit => ?_
    refine follows_ite (fun _ => follows_pure _) fun _ => ?_
    refine (Placement.follows_assign position visit.current).bind fun placement => ?_
    exact follows_pure _

/-- So do all visits. -/
theorem follows_visitAll (state : State) (positions : List Nat) :
    Follows (·.extend rest rows) (sweep.visitAll state positions)
      (other.visitAll (state.extend rest rows) positions) := by
  rw [visitAll, visitAll, h.candidates]
  refine follows_ite (fun _ => follows_pure state) fun _ => ?_
  exact Follows.foldlM h.follows_visit state

/-- The loads of the nodes that count are added up alike. -/
theorem follows_loadAll (balance : Balance) (positions : List Nat) :
    Follows (·.extend rows) (loadAll sweep.priced placement balance positions)
      (loadAll other.priced (placement.extend rest) (balance.extend rows) positions) := by
  refine Follows.foldlM (fun balance position => ?_) balance
  refine (Placement.follows_device position).bind_same fun device => ?_
  cases device with
  | none => exact follows_pure balance
  | some device =>
    refine (h.priced.follows_computeCost position).bind_same fun cost => ?_
    exact Balance.follows_add device cost

/-- A device that was there is reported alike. -/
theorem follows_deviceLoad (before after : Balance) (device : Nat) :
    Follows id (sweep.deviceLoad before after device)
      (other.deviceLoad (before.extend rows) (after.extend rows) device) := by
  rw [deviceLoad, deviceLoad, h.pinned]
  refine (h.follows_name device).bind_same fun name => ?_
  refine (Balance.follows_load device).bind_same fun loadBefore => ?_
  refine (Balance.follows_load device).bind_same fun loadAfter => ?_
  exact (Balance.follows_share device).bind_same fun shareAfter => follows_refl _

end Prefix

/-- What comes out with further nodes: the same, with those nodes where they were and the
    rows of further devices at the end. Nothing is said of the external traffic. -/
structure Result.Extends (more : List Node) (result other : Result) : Prop where
  graph : other.graph = result.graph.append more
  moved : other.moved = result.moved
  moves : other.moves = result.moves
  eligible : other.eligible = result.eligible
  totalComputeCost : other.totalComputeCost = result.totalComputeCost
  idealShare : other.idealShare = result.idealShare
  deviceLoads : result.deviceLoads <+: other.deviceLoads

namespace Task

variable {task : Task} {more : List Node} {result other : Result}

/-- The task with further nodes after those of its graph. -/
def append (task : Task) (more : List Node) : Task :=
  { task with graph := task.graph.append more }

/-- Further nodes that the others do not see: they are not eligible, and no data input of the
    others means one of them. -/
structure Outside (task : Task) (more : List Node) : Prop where
  ineligible : ∀ node ∈ more, task.eligibility.isEligible node = false
  unread : ∀ other ∈ more, ∀ node ∈ task.graph.nodes, ∀ input ∈ node.dataInputs,
    input.producer ≠ other.name

/-! ## The tables -/

/-- The devices of further nodes come after all others. -/
theorem roster_append (task : Task) (more : List Node) :
    (task.append more).roster = task.roster.enrollAll (Placement.mentioned more) := by
  rw [← Placement.roster_enrollNodes]
  exact congrArg Prod.fst (Placement.enrollNodes_append _ task.graph.nodes more)

/-- The further nodes stand behind all others. -/
theorem placement_append (task : Task) (more : List Node) :
    (task.append more).placement =
      task.placement.extend (Placement.enrollNodes task.roster more).2 :=
  congrArg (fun enrolled : Roster × List (Option Nat) => Placement.mk enrolled.2)
    (Placement.enrollNodes_append (Roster.ofInventory task.devices) task.graph.nodes more)

/-- Nodes outside are not eligible, so none of them is visited. -/
theorem positions_append (h : task.Outside more) :
    (task.append more).positions = task.positions := by
  have hmore : (more.zipIdx task.graph.nodes.length).filter
      (fun entry => task.eligibility.isEligible entry.1) = [] := by
    refine List.filter_eq_nil_iff.2 fun entry hmem => ?_
    exact Bool.eq_false_iff.1 (h.ineligible entry.1 (List.fst_mem_of_mem_zipIdx hmem))
  change ((task.graph.nodes ++ more).zipIdx.filter
    fun entry => task.eligibility.isEligible entry.1).map Prod.snd = _
  rw [List.zipIdx_append, List.filter_append, Nat.zero_add, hmore, List.append_nil]
  rfl

theorem inventorySize_le (task : Task) : task.roster.inventorySize ≤ task.roster.size := by
  rw [roster_eq, Roster.inventorySize_enrollAll]
  exact (Roster.names_prefix_enrollAll (Roster.ofInventory task.devices) _).length_le

/-- The tables of the sweep are the beginnings of those with the nodes outside. -/
theorem prefix_append (h : task.Outside more) : task.sweep.Prefix (task.append more).sweep where
  priced := PricedGraph.prefix_append task.estimate h.unread
  names := by
    change task.roster.names <+: (task.append more).roster.names
    rw [roster_append]
    exact Roster.names_prefix_enrollAll ..
  pinned := rfl
  candidates := by
    change (task.append more).roster.candidates task.pinned = task.roster.candidates task.pinned
    rw [roster_append, Roster.candidates_enrollAll task.inventorySize_le]

/-- Both sweeps open with the same loads, and the rows of further devices are empty. -/
theorem exists_follows_opening (h : task.Outside more) :
    ∃ rows, Follows (·.extend rows) task.opening (task.append more).opening := by
  obtain ⟨names, hnames⟩ := (prefix_append h).names
  have hsize : (task.append more).roster.size = task.roster.size + names.length := by
    change (task.append more).sweep.roster.names.length = task.sweep.roster.names.length + _
    rw [← hnames, List.length_append]
  -- No eligible node is on a further device, so its load is zero.
  refine ⟨List.replicate names.length 0, ?_⟩
  rw [opening, opening, positions_append h, placement_append, hsize, Balance.extend_ofDevices]
  exact (prefix_append h).follows_loadAll _ _

/-! ## The results -/

/-- The nodes are where they were. -/
theorem siteName_extend {placement : Placement} {position : Nat} (rest : List (Option Nat))
    (houtside : task.Outside more) (hw : placement.Within task.roster)
    (hlt : position < placement.devices.length) :
    (placement.extend rest).siteName (task.append more).roster position =
      placement.siteName task.roster position := by
  rw [Placement.siteName, Placement.siteName, Placement.site_extend hlt]
  cases hsite : placement.site position with
  | none => rfl
  | some device =>
    have hname := Roster.nameOf_of_prefix (prefix_append houtside).names (hw position device hsite)
    exact congrArg some hname

/-- The nodes outside are returned where they were, after the others. -/
theorem Finished.graph_append {before before' : Balance} {final : State}
    {rest : List (Option Nat)} {rows : List Int64} (houtside : task.Outside more)
    (hf : task.Finished before final result)
    (hf' : (task.append more).Finished before' (final.extend rest rows) other) :
    other.graph = result.graph.append more := by
  have hlength : result.graph.nodes.length = task.graph.nodes.length := by
    rw [hf.graph_eq hf.inv.length, List.length_mapIdx]
  have hnodes : other.graph.nodes = result.graph.nodes ++ more := by
    refine List.ext_getElem? fun position => ?_
    by_cases hlt : position < task.graph.nodes.length
    · have hnode : (task.append more).graph.nodes[position]? = task.graph.nodes[position]? :=
        List.getElem?_append_left hlt
      have hname := siteName_extend rest houtside hf.inv.within (hf.inv.length ▸ hlt)
      rw [List.getElem?_append_left (hlength ▸ hlt), hf'.graph_eq hf'.inv.length,
        hf.graph_eq hf.inv.length, List.getElem?_mapIdx, List.getElem?_mapIdx, hnode,
        State.extend, hname]
    · -- The further nodes are not visited.
      have hge : task.graph.nodes.length ≤ position := Nat.le_of_not_lt hlt
      have hp : position ∉ (task.append more).positions := fun hmem =>
        hlt (List.mem_range.1 (task.sublist_positions.subset (positions_append houtside ▸ hmem)))
      rw [hf'.node_of_not_mem hp, List.getElem?_append_right (hlength ▸ hge), hlength]
      exact List.getElem?_append_right hge
  rw [Graph.append, ← hnodes, hf'.graph_eq hf'.inv.length, hf.graph_eq hf.inv.length]
  rfl

/-- Nodes outside do not influence a sweep, if it returns with them and without. -/
theorem run_append (houtside : task.Outside more) (h : task.run = .ok result)
    (h' : (task.append more).run = .ok other) : result.Extends more other := by
  obtain ⟨before, final, hf⟩ := run_eq_ok h
  obtain ⟨before', final', hf'⟩ := run_eq_ok h'
  have hbegins := prefix_append houtside
  -- Each phase of the longer sweep has returned, and it follows the same phase of the other.
  obtain ⟨rows, hopening⟩ := exists_follows_opening houtside
  cases (hopening before hf.opening).symm.trans hf'.opening
  have hswept := hf'.swept
  rw [positions_append houtside, placement_append] at hswept
  cases (hbegins.follows_visitAll _ _ final hf.swept).symm.trans hswept
  exact {
    graph := hf.graph_append houtside hf'
    moved := by rw [hf'.moved, hf.moved]; rfl
    moves := by rw [hf'.moves, hf.moves]; rfl
    eligible := by rw [hf'.eligible, hf.eligible, positions_append houtside]
    totalComputeCost := by rw [hf'.totalComputeCost, hf.totalComputeCost]; rfl
    idealShare := by rw [hf'.idealShare, hf.idealShare]; rfl
    deviceLoads := by
      refine prefix_of_mapM (fun device => hbegins.follows_deviceLoad _ _ device) ?_
        hf.deviceLoads hf'.deviceLoads
      have hsize : task.roster.size ≤ (task.append more).roster.size := hbegins.names.length_le
      rw [← Nat.min_eq_left hsize, ← List.take_range]
      exact List.take_prefix .. }

/-- Nodes that consume what the nodes of `relay` compute, one of them on a further device. -/
def onlookers : List Node :=
  [⟨"e", "Const", "dev7", [.data "c" 0]⟩, ⟨"f", "MatMul", "", [.data "d" 0, .data "e" 0]⟩]

/-- The onlookers see the moves of `relay`, but do not change them. -/
theorem run_append_relay : relay.Outside onlookers ∧
    ∃ result other, relay.run = .ok result ∧ (relay.append onlookers).run = .ok other ∧
      result.Extends onlookers other ∧ result.moved = 2 ∧
      (result.deviceLoads.length, result.externalAfter) = (5, 10) ∧
      (other.deviceLoads.length, other.externalAfter) = (6, 15) := by
  have houtside : relay.Outside onlookers := ⟨by decide +kernel, by decide +kernel⟩
  have hrun : relay.run.toOption.map (fun result =>
      (result.moved, result.deviceLoads.length, result.externalAfter)) = some (2, 5, 10) := by
    decide +kernel
  have hrun' : (relay.append onlookers).run.toOption.map (fun other =>
      (other.deviceLoads.length, other.externalAfter)) = some (6, 15) := by
    decide +kernel
  obtain ⟨result, h, hfigures⟩ := exists_ok_of_toOption hrun
  obtain ⟨other, h', hfigures'⟩ := exists_ok_of_toOption hrun'
  obtain ⟨hmoved, hfigures⟩ := Prod.mk.inj hfigures
  exact ⟨houtside, result, other, h, h', run_append houtside h h', hmoved, hfigures, hfigures'⟩

end Task

end DevicePlacement.Sweep

import DevicePlacement.Proofs.Sweep.Loads

/-!
# Replaying moves

The records of a sweep say enough to make its moves again, without looking at costs
of transport or at shares. A `Scene` is a graph with the loads of the devices; a
record is replayed on it by name: the node must be where the record says, goes where
the record says, and takes its compute cost along (`Scene.replay`).

If the nodes of the graph have different names, then every hop of a sweep is the
replay of its record (`replay_of_hop`), and right after it the record has the shares
of both devices (`Recounted`).
-/

namespace DevicePlacement

open Checked Function

/-- The compute cost of the node of a name, zero if it has no entry. -/
def Estimate.computeOf (estimate : Estimate) (name : String) : Int :=
  ((estimate.cost? name).map fun cost => cost.computeCost.toInt).getD 0

/-- A graph and the loads of the devices. -/
structure Scene where
  graph : Graph
  /-- The loads, each with the name of its device. -/
  loads : List (String × Int)

/-- Makes a recorded move once more, given the compute costs by name. This fails if
    the node is not on the device it should leave, or if one of the two devices is
    not known. -/
def Scene.replay (compute : String → Int) (scene : Scene) (made : MoveRecord) : Option Scene :=
  match scene.graph.node? made.node with
  | none => none
  | some node =>
    let devices := scene.loads.map Prod.fst
    if node.device = made.source ∧ made.source ∈ devices ∧ made.target ∈ devices then
      some
        { graph := scene.graph.assign made.node made.target
          loads := scene.loads.map fun (device, load) =>
            (device, load - (if device = made.source then compute made.node else 0) +
              if device = made.target then compute made.node else 0) }
    else none

/-- The load in the row of a device, of which there is only one. -/
theorem lookup_of_mem {loads : List (String × Int)} {device : String} {load : Int}
    (hnodup : (loads.map Prod.fst).Nodup) (h : (device, load) ∈ loads) :
    loads.lookup device = some load := by
  obtain ⟨before, after, rfl⟩ := List.append_of_mem h
  refine List.lookup_eq_some_iff.2 ⟨before, after, rfl, fun row hrow => ?_⟩
  rw [List.map_append, List.nodup_append] at hnodup
  have hne := hnodup.2.2 row.1 (List.mem_map_of_mem hrow) device (by simp)
  simpa using hne.symm

/-! ## Graphs with nodes of different names -/

namespace Graph

variable {graph : Graph} {position : Nat} {node : Node}

/-- The graph with its nodes on the given sites. -/
def settle (graph : Graph) (site : Nat → Option String) : Graph :=
  { graph with nodes := graph.nodes.mapIdx fun position node => node.moveTo (site position) }

/-- Nodes that are settled keep their names. -/
theorem map_name_settle (graph : Graph) (site : Nat → Option String) :
    (graph.settle site).nodes.map Node.name = graph.nodes.map Node.name := by
  refine List.ext_getElem (by simp [settle]) fun index _ _ => ?_
  simp [settle, Node.moveTo]

theorem getElem?_settle (site : Nat → Option String) (h : graph.nodes[position]? = some node) :
    (graph.settle site).nodes[position]? = some (node.moveTo (site position)) := by
  rw [settle, List.getElem?_mapIdx, h, Option.map_some]

/-- A name means the node that has it. -/
theorem node?_name (hnames : (graph.nodes.map Node.name).Nodup)
    (h : graph.nodes[position]? = some node) : graph.node? node.name = some node := by
  obtain ⟨hlt, hget⟩ := List.getElem?_eq_some_iff.1 h
  refine List.find?_eq_some_iff_getElem.2 ⟨decide_eq_true rfl, position, hlt, hget, ?_⟩
  intro earlier hearlier
  have hlt' : position < (graph.nodes.map Node.name).length := by rwa [List.length_map]
  have hearlier' := hearlier.trans hlt'
  have hne : (graph.nodes.map Node.name)[earlier] ≠ (graph.nodes.map Node.name)[position] :=
    fun e => hearlier.ne ((hnames.getElem_inj_iff).1 e)
  rw [List.getElem_map, List.getElem_map, hget] at hne
  simpa using hne

/-- If names differ, the first node of a name is the only one. -/
theorem assignFirst_eq_set {name device : String} {nodes : List Node}
    (hnames : (nodes.map Node.name).Nodup) (h : nodes[position]? = some node)
    (hname : node.name = name) :
    assign.assignFirst name device nodes = nodes.set position { node with device := device } := by
  induction nodes generalizing position with
  | nil => cases h
  | cons first rest ih =>
    rw [List.map_cons, List.nodup_cons] at hnames
    rw [assign.assignFirst]
    cases position with
    | zero =>
      cases h
      rw [if_pos hname, List.set_cons_zero]
    | succ position =>
      rw [List.getElem?_cons_succ] at h
      -- The name occurs once, and further back, so it is not that of the first node.
      have hne : first.name ≠ name := fun e =>
        hnames.1 (e ▸ hname ▸ List.mem_map_of_mem (List.mem_of_getElem? h))
      rw [if_neg hne, List.set_cons_succ, ih hnames.2 h]

/-- Assigning a node by its name changes its site. -/
theorem assign_settle (hnames : (graph.nodes.map Node.name).Nodup)
    (h : graph.nodes[position]? = some node) (site : Nat → Option String) (device : String) :
    (graph.settle site).assign node.name device =
      graph.settle (update site position (some device)) := by
  have hset : assign.assignFirst node.name device (graph.settle site).nodes = _ :=
    assignFirst_eq_set (by rwa [map_name_settle]) (getElem?_settle site h) rfl
  rw [assign, hset, settle, settle]
  congr 1
  refine List.ext_getElem? fun other => ?_
  obtain ⟨hlt, rfl⟩ := List.getElem?_eq_some_iff.1 h
  by_cases ho : position = other
  · subst ho
    simp [hlt, Node.moveTo]
  · rw [List.getElem?_set_ne ho, List.getElem?_mapIdx, List.getElem?_mapIdx,
      update_of_ne (Ne.symm ho)]

end Graph

namespace Sweep.Task

variable {task : Task} {before : Balance} {placement : Placement} {position origin : Nat}

/-- The graph with its nodes on the given sites, and the loads of a balance. -/
def scene (task : Task) (site : Nat → Option Nat) (balance : Balance) : Scene where
  graph := task.graph.settle fun position => (site position).map task.roster.nameOf
  loads := (List.range task.roster.size).map fun device =>
    (task.roster.nameOf device, balance.loadOf device)

/-- The rows of a scene are those of the devices of the roster. -/
theorem map_fst_scene (site : Nat → Option Nat) (balance : Balance) :
    (task.scene site balance).loads.map Prod.fst = task.roster.names := by
  rw [scene, List.map_map]
  exact task.roster.map_nameOf_range

/-- The row of a device has its load. -/
theorem lookup_scene {device : Nat} (site : Nat → Option Nat) (balance : Balance)
    (h : device < task.roster.size) :
    (task.scene site balance).loads.lookup (task.roster.nameOf device) =
      some (balance.loadOf device) := by
  refine lookup_of_mem ?_ (List.mem_map_of_mem (List.mem_range.2 h))
  rw [map_fst_scene]
  exact task.nodup_names_roster

/-- A graph has its nodes where they are. -/
theorem settle_placement (task : Task) :
    (task.graph.settle fun position => (task.placement.site position).map task.roster.nameOf) =
      task.graph := by
  have hnodes : task.graph.nodes.mapIdx (fun position node =>
      node.moveTo ((task.placement.site position).map task.roster.nameOf)) = task.graph.nodes := by
    refine List.ext_getElem (by simp) fun position _ hlt => ?_
    have hsite := task.siteName_placement position
    rw [Placement.siteName, List.getElem?_eq_getElem hlt, Option.bind_some] at hsite
    rw [List.getElem_mapIdx, hsite, Node.moveTo_site?]
  rw [Graph.settle, hnodes]

/-- A node that goes from one site to another, with the loads following it, is the
    replay of a record that says so. -/
theorem replay_scene {site : Nat → Option Nat} {balance next : Balance} {node : Node}
    {current target : Nat} {made : MoveRecord}
    (hnames : (task.graph.nodes.map Node.name).Nodup)
    (hnode : task.graph.nodes[position]? = some node) (hsite : site position = some current)
    (hcurrent : current < task.roster.size) (htarget : target < task.roster.size)
    (hmoved : Balance.Moved current target (task.compute position) balance next)
    (hmadeNode : made.node = node.name) (hmadeSource : made.source = task.roster.nameOf current)
    (hmadeTarget : made.target = task.roster.nameOf target) :
    (task.scene site balance).replay task.estimate.computeOf made =
      some (task.scene (update site position (some target)) next) := by
  have hcompute : task.estimate.computeOf node.name = task.compute position := by
    rw [compute, hnode]
    rfl
  have hfound : (task.scene site balance).graph.node? made.node =
      some (node.moveTo (some (task.roster.nameOf current))) := by
    have hget :=
      Graph.getElem?_settle (fun position => (site position).map task.roster.nameOf) hnode
    rw [hsite] at hget
    rw [hmadeNode]
    exact Graph.node?_name (by rwa [Graph.map_name_settle]) hget
  have hinj {device other : Nat} (hd : device < task.roster.size) (ho : other < task.roster.size) :
      task.roster.nameOf device = task.roster.nameOf other ↔ device = other :=
    Roster.nameOf_inj task.nodup_names_roster hd ho
  -- The record is not refused: its node is at its source, and both devices have a row.
  rw [Scene.replay, hfound, map_fst_scene]
  dsimp only
  rw [hmadeNode, hmadeSource, hmadeTarget, hcompute, if_pos
    ⟨rfl, Roster.nameOf_mem hcurrent, Roster.nameOf_mem htarget⟩, scene,
    Graph.assign_settle hnames hnode, scene]
  congr 2
  · congr 1
    funext other
    rw [update_apply, update_apply]
    split <;> rfl
  · rw [List.map_map]
    refine List.map_congr_left fun device hdevice => ?_
    have hdevice := List.mem_range.1 hdevice
    rw [comp_apply, hmoved.loadOf]
    simp only [hinj hdevice hcurrent, hinj hdevice htarget]

/-! ## The replay of a sweep -/

/-- The replay of some moves, from the start of the sweep, arrives at the given sites
    and loads, and every record has the shares that its replay leaves. -/
structure Recounted (task : Task) (before : Balance) (site : Nat → Option Nat) (balance : Balance)
    (moves : List MoveRecord) : Prop where
  replays : moves.foldlM (Scene.replay task.estimate.computeOf)
    (task.scene task.placement.site before) = some (task.scene site balance)
  shares : ∀ earlier made, earlier ++ [made] <+: moves → ∃ scene,
    (earlier ++ [made]).foldlM (Scene.replay task.estimate.computeOf)
      (task.scene task.placement.site before) = some scene ∧
    (scene.loads.lookup made.source).map task.scale.share = some made.originShare ∧
    (scene.loads.lookup made.target).map task.scale.share = some made.destinationShare

/-- To replay nothing is to stay at the start. -/
theorem recounted_start (task : Task) (before : Balance) :
    task.Recounted before task.placement.site before [] where
  replays := rfl
  shares earlier made h := by simp at h

/-- The record of a hop replays it: the node goes to the candidate and the loads follow. -/
theorem recounted_of_hop {candidate : Nat} {visit next : Visit}
    (hnames : (task.graph.nodes.map Node.name).Nodup)
    (hamid : task.Amid placement position visit) (hnext : task.Amid placement position next)
    (h : task.Recounted before (update placement.site position (some visit.current))
      visit.balance visit.moves)
    (hhop : task.sweep.Hop placement position origin candidate visit next) :
    task.Recounted before (update placement.site position (some next.current))
      next.balance next.moves := by
  obtain ⟨made, hmoves, hmade⟩ := hhop.moves
  obtain ⟨node, hnode, hname⟩ := hmade.node
  have hmoved := hhop.balance
  rw [compute_eq, ← hhop.current] at hmoved
  have hsite : update placement.site position (some visit.current) position =
      some visit.current := update_self ..
  have hreplay := replay_scene hnames hnode hsite
    hamid.current_lt hnext.current_lt hmoved hname hmade.source hmade.target
  rw [update_idem] at hreplay
  have hreplays : (visit.moves ++ [made]).foldlM (Scene.replay task.estimate.computeOf)
      (task.scene task.placement.site before) =
      some (task.scene (update placement.site position (some next.current)) next.balance) := by
    rw [List.foldlM_append, h.replays, Option.bind_eq_bind, Option.bind_some, List.foldlM_cons,
      hreplay]
    rfl
  rw [hmoves]
  refine ⟨hreplays, fun earlier last hbegin => ?_⟩
  rcases List.prefix_concat_iff.1 hbegin with heq | hbegin
  · -- The last record is the new one.
    obtain ⟨rfl, hlast⟩ := List.append_inj' heq rfl
    cases hlast
    refine ⟨_, hreplays, ?_, ?_⟩
    · rw [hmade.source, hmade.originShare, hnext.accounts.scale]
      exact congrArg (Option.map task.scale.share) (lookup_scene _ _ hamid.current_lt)
    · rw [hmade.target, hmade.destinationShare, hnext.accounts.scale]
      exact congrArg (Option.map task.scale.share) (lookup_scene _ _ hnext.current_lt)
  · exact h.shares earlier last hbegin

/-- By induction on its hops, a visit is replayed by what it has recorded. -/
theorem recounted_of_visited {state next : State}
    (hnames : (task.graph.nodes.map Node.name).Nodup) (hp : position ∈ task.positions)
    (hinv : task.Inv state)
    (h : task.Recounted before state.placement.site state.balance state.moves)
    (hv : task.sweep.Visited state position next) :
    task.Recounted before next.placement.site next.balance next.moves := by
  cases hv with
  | unassigned _ => exact h
  | pinned _ _ => exact h
  | @searched origin visit _ hs =>
    -- The scene on the way has the node at the device that leads, and it ends where the node stays.
    have hvisit := search_keeps
      (P := fun visit => task.Amid state.placement position visit ∧
        task.Recounted before (update state.placement.site position (some visit.current))
          visit.balance visit.moves)
      (fun visit next candidate hc ⟨hamid, h⟩ hhop =>
        have hnext := amid_of_hop hp hc hamid hhop
        ⟨hnext, recounted_of_hop hnames hamid hnext h hhop⟩)
      (fun traffic _ => ⟨hinv.amid hs.site traffic, by rwa [← hs.site, update_eq_self]⟩)
      hs.search
    rw [hs.site_next, hs.balance, hs.moves]
    exact hvisit.2

/-- By induction on the visits, so is the sweep. -/
theorem Finished.recounted {final : State} {result : Result}
    (h : task.Finished before final result)
    (hnames : (task.graph.nodes.map Node.name).Nodup) :
    task.Recounted before final.placement.site final.balance final.moves := by
  have hfinal := visitAll_keeps
    (P := fun state => task.Inv state ∧
      task.Recounted before state.placement.site state.balance state.moves)
    (fun state next position hp ⟨hinv, h⟩ hv =>
      ⟨inv_of_visited hp hinv hv, recounted_of_visited hnames hp hinv h hv⟩)
    ⟨inv_start h.opening, task.recounted_start before⟩ h.swept
  exact hfinal.2

end Sweep.Task

end DevicePlacement

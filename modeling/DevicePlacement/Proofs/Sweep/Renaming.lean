import DevicePlacement.Proofs.Containment
import DevicePlacement.Proofs.Sweep.Alike

/-!
# A sweep does not depend on names

Devices and nodes are told apart by their names and by nothing else: a sweep of a task
with other names gives the result with other names, or stops with the same fault
(`Task.run_rename`). The names must still be apart, unassigned nodes must stay unassigned
and pinned devices pinned (`Renaming.Faithful`). In particular the order of names makes no
difference, nor does any name that happens to be part of another one.
-/

namespace DevicePlacement

open Checked

/-! ## Graphs that came out of renamed ones -/

variable {catalog : OpCatalog} {knobs : Knobs} {devices devices' : List String} {names : Renaming}

/-- Nodes that can differ in their device alone are told by it, renamed or not. -/
theorem Node.MayBecome.eq_rename {node placed placed' : Node}
    (h : node.MayBecome catalog knobs devices placed)
    (h' : (node.rename names).MayBecome catalog knobs devices' placed')
    (hdevice : placed'.device = names.device placed.device) : placed' = placed.rename names := by
  obtain ⟨name, op, device, inputs⟩ := placed'
  rw [Node.rename, Node.mk.injEq, h.name, h.op, h.inputs]
  exact ⟨h'.name, h'.op, hdevice, h'.inputs⟩

/-- So are graphs. -/
theorem Graph.MayBecome.eq_rename {graph placed placed' : Graph}
    (h : graph.MayBecome catalog knobs devices placed)
    (h' : (graph.rename names).MayBecome catalog knobs devices' placed')
    (hdevices : List.Forall₂ (fun node node' => node'.device = names.device node.device)
      placed.nodes placed'.nodes) : placed' = placed.rename names := by
  -- Only devices can differ between a graph and what it may become, and these are given.
  obtain ⟨id, versions, nodes⟩ := placed'
  rw [Graph.rename, Graph.mk.injEq, h.id, h.versions]
  refine ⟨h'.id, h'.versions, List.ext_getElem ?_ fun position hlt' hlt => ?_⟩
  · rw [List.length_map, hdevices.length_eq]
  · rw [List.length_map] at hlt
    have hgraph : position < graph.nodes.length := h.nodes.length_eq ▸ hlt
    have hrenamed : position < (graph.rename names).nodes.length := by
      rwa [Graph.rename, List.length_map]
    have hnode := h.nodes.get hgraph hlt
    have hnode' := h'.nodes.get hrenamed hlt'
    simp only [Graph.rename, List.get_eq_getElem, List.getElem_map] at hnode hnode' ⊢
    exact hnode.eq_rename hnode' (hdevices.get hlt hlt')

namespace Sweep

/-- The result with all names renamed. -/
def Result.rename (names : Renaming) (result : Result) : Result :=
  { result with
    graph := result.graph.rename names
    moves := result.moves.map (MoveRecord.rename names)
    deviceLoads := result.deviceLoads.map (DeviceLoad.rename names) }

namespace Task

variable {task : Task}

/-- The task with all names renamed: in its graph, its inventory and its estimate. -/
def rename (names : Renaming) (task : Task) : Task :=
  { task with
    graph := task.graph.rename names
    devices := task.devices.map names.device
    estimate := task.estimate.rename names }

/-- A task and its renamed form are alike if the new names keep all apart. -/
theorem alike_rename (h : names.Faithful task) : task.Alike names (task.rename names) where
  catalog := rfl
  knobs := rfl
  devices := rfl
  nodes := List.forall₂_map_right_iff.2 (List.forall₂_same.2 fun node _ => node.alike_rename names)
  compute node hnode _ := by
    have hcost := Estimate.cost?_rename h.node (fun _ => key_mem_nodeNames)
      (name_mem_nodeNames hnode)
    rw [Estimate.compute, Estimate.compute, ← hcost]
    rfl
  size node hnode _ := by
    have hcost := Estimate.cost?_rename h.node (fun _ => key_mem_nodeNames)
      (name_mem_nodeNames hnode)
    rw [Estimate.size, Estimate.size, Estimate.size?, Estimate.size?, ← hcost]
    rfl

/-- Sweeping a task with other names gives the result with other names. -/
theorem run_rename (h : names.Faithful task) :
    (task.rename names).run = task.run.map (Result.rename names) := by
  refine InStep.eq_map (((alike_rename h).inStep_run h).and_ok.imp ?_)
  rintro result result' ⟨halike, hrun, hrun'⟩
  have hgraph : result'.graph = result.graph.rename names :=
    (mayBecome_of_run hrun).eq_rename (mayBecome_of_run hrun') halike.devices
  calc result' = { result' with graph := result.graph.rename names } := by rw [← hgraph]
    _ = result.rename names :=
      congrArg (fun result' => { result' with graph := result.graph.rename names }) halike.rest

/-- Two devices swap their names, and so do two nodes. -/
def swapped : Renaming where
  device
    | "dev0" => "dev2"
    | "dev2" => "dev0"
    | "CPU" => "CPU:1"
    | "dev9" => "gpu"
    | name => name
  node
    | "p" => "q"
    | "q" => "p"
    | name => name

/-- With its names swapped, `relay` makes the same moves under the new names. -/
theorem run_rename_relay : ∃ result, swapped.Faithful relay ∧
    (relay.rename swapped).run = .ok result ∧
    result.moves.map (fun made => (made.node, made.source, made.target)) =
      [("c", "dev2", "dev1"), ("c", "dev1", "dev0"), ("d", "gpu", "dev0")] := by
  have h : swapped.Faithful relay := by decide +kernel
  obtain ⟨result, hrun, hmoves, _⟩ := run_relay
  refine ⟨result.rename swapped, h, ?_, ?_⟩
  · rw [run_rename h, hrun]
    rfl
  · have hrenamed : (result.rename swapped).moves.map
          (fun made => (made.node, made.source, made.target)) =
        (result.moves.map fun made => (made.node, made.source, made.target)).map
          fun (node, source, target) =>
            (swapped.node node, swapped.device source, swapped.device target) := by
      rw [List.map_map, Result.rename, List.map_map]
      rfl
    rw [hrenamed, hmoves]
    rfl

end Task

end Sweep

end DevicePlacement

import DevicePlacement.Proofs.Sweep.Alike

/-!
# What a sweep does not look at

Of a graph, a sweep looks at the names, the op types and the devices of its nodes and at
the producers of their data inputs, in order. Of an estimate, it looks at the compute
costs of eligible nodes and at the sizes of nodes that ship data, where no entry is as
good as zero. Tasks that agree on this are *indistinct* (`Task.Indistinct`): they stop
with the same fault, or put all nodes on the same devices with the same figures
(`Task.inStep_run_of_indistinct`).

So control inputs, output ports, the identifier and the versions of a graph make no
difference, nor do times, costs of nodes that neither move nor ship, and entries for
names that no node has.
-/

namespace DevicePlacement

open Checked

/-- Nodes that differ in control inputs and output ports alone. -/
structure Node.Indistinct (node other : Node) : Prop where
  name : other.name = node.name
  op : other.op = node.op
  device : other.device = node.device
  producers : other.dataInputs.map InputRef.producer = node.dataInputs.map InputRef.producer

namespace Sweep

/-- Results with all nodes on the same devices and all figures the same. -/
structure Result.Indistinct (result other : Result) : Prop where
  devices : other.graph.nodes.map Node.device = result.graph.nodes.map Node.device
  /-- All but the graph is the same. -/
  rest : { other with graph := result.graph } = result

namespace Task

/-- Tasks that a sweep cannot tell apart. -/
structure Indistinct (task other : Task) : Prop where
  catalog : other.catalog = task.catalog
  knobs : other.knobs = task.knobs
  devices : other.devices = task.devices
  nodes : List.Forall₂ Node.Indistinct task.graph.nodes other.graph.nodes
  compute : ∀ node ∈ task.graph.nodes, task.eligibility.isEligible node = true →
    other.estimate.compute node = task.estimate.compute node
  size : ∀ node ∈ task.graph.nodes, task.graph.Ships node →
    other.estimate.size node = task.estimate.size node

variable {task other : Task}

/-- To leave all names as they are is to keep them apart. -/
theorem faithful_same (task : Task) : Renaming.same.Faithful task where
  device := Set.injOn_id _
  empty := rfl
  pinned _ _ := rfl
  node := Set.injOn_id _

/-- Tasks that cannot be told apart are alike without any renaming. -/
theorem Indistinct.alike (h : task.Indistinct other) : task.Alike .same other where
  catalog := h.catalog
  knobs := h.knobs
  devices := by rw [h.devices, Renaming.same, List.map_id]
  nodes := h.nodes.imp fun node node' hnode =>
    ⟨hnode.name, hnode.op, hnode.device, by rw [hnode.producers, Renaming.same, List.map_id]⟩
  compute node hnode helig := by
    rw [← h.compute node hnode helig]
    exact (Estimate.eq_of_name rfl).1
  size node hnode hships := by
    rw [← h.size node hnode hships]
    exact (Estimate.eq_of_name rfl).2

/-- Tasks that a sweep cannot tell apart are swept the same. -/
theorem inStep_run_of_indistinct (h : task.Indistinct other) :
    InStep Result.Indistinct task.run other.run := by
  refine (h.alike.inStep_run task.faithful_same).imp fun result result' halike => ?_
  have hmoves : result.moves.map (MoveRecord.rename .same) = result.moves := List.map_id _
  have hloads : result.deviceLoads.map (DeviceLoad.rename .same) = result.deviceLoads :=
    List.map_id _
  have hrest := halike.rest
  rw [hmoves, hloads] at hrest
  exact ⟨map_eq_map_of_forall₂ halike.devices, hrest⟩

/-- The task `relay` with other control inputs and ports, another identifier and other
    versions, and an estimate with other times, other costs of nodes that neither move nor
    ship, and an entry that no node has. -/
def cluttered : Task where
  catalog := relay.catalog
  knobs := relay.knobs
  graph := {
    id := some "cluttered"
    versions := ⟨27, 12⟩
    nodes := [⟨"p", "Const", "dev1", [.control "d"]⟩, ⟨"q", "Const", "dev2", []⟩,
      ⟨"c", "Add", "dev0", [.control "q", .data "p" 3, .control "p", .data "q" 0]⟩,
      ⟨"d", "MatMul", "dev9", [.data "c" 1, .control "none"]⟩] }
  devices := relay.devices
  estimate := ⟨.ofList [("p", ⟨70, 10, 1, 2⟩), ("q", ⟨-5, 100, 0, 0⟩), ("c", ⟨3, 5, 8, 9⟩),
    ("d", ⟨4, -1000, 6, 0⟩), ("none", .ofCompute 1000 1000)], ⟨7, 8, 9⟩⟩

/-- In spite of all that is different, `cluttered` is swept like `relay`. -/
theorem inStep_run_of_cluttered : ∃ result other, relay.Indistinct cluttered ∧
    relay.run = .ok result ∧ cluttered.run = .ok other ∧ result.Indistinct other ∧
    other.graph.nodes.map Node.device = ["dev1", "dev2", "dev2", "dev2"] := by
  have h : relay.Indistinct cluttered := {
    catalog := rfl
    knobs := rfl
    devices := rfl
    nodes := .cons ⟨rfl, rfl, rfl, rfl⟩ (.cons ⟨rfl, rfl, rfl, rfl⟩
      (.cons ⟨rfl, rfl, rfl, rfl⟩ (.cons ⟨rfl, rfl, rfl, rfl⟩ .nil)))
    compute := by decide +kernel
    size := by decide +kernel }
  have hdevices : cluttered.run.toOption.map (fun other => other.graph.nodes.map Node.device) =
      some ["dev1", "dev2", "dev2", "dev2"] := by
    decide +kernel
  obtain ⟨result, hrun, _⟩ := run_relay
  obtain ⟨other, hother, hdevices⟩ := exists_ok_of_toOption hdevices
  have hstep := inStep_run_of_indistinct h
  rw [hrun, hother] at hstep
  cases hstep with
  | returned hsame => exact ⟨result, other, h, hrun, hother, hsame, hdevices⟩

end Task

end Sweep

end DevicePlacement

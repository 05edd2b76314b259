import DevicePlacement.Proofs.Assignment
import DevicePlacement.Proofs.Recount
import DevicePlacement.Stats
import Mathlib.Data.String.Basic

/-!
# Statistics account for every node

The statistics of a graph are collected in one loop over its nodes, in four counters and two
tallies. Each of them is a count of its own (`GraphStats.ofGraph_eq`). Together they divide
up the nodes and the inputs of the graph, and the devices in the tally are those that a search
through the nodes finds (`GraphStats.Describes`).

A tally has its names in increasing order, and this is what keeps a name from coming twice:
a name is looked for only until a greater one is met (`Tally.countOf_add`).

A sweep moves nodes and does nothing else to them. So of the statistics only the tally of the
devices changes, and every device gains the nodes that come to it and loses those that leave it
(`GraphStats.Transfers`).
-/

namespace DevicePlacement

open Checked

/-! ## Names in order -/

section InsertName

variable {name other : String} {names : List String}

/-- A name is inserted and none is lost. -/
theorem mem_insertName : other ∈ insertName name names ↔ other = name ∨ other ∈ names := by
  induction names with
  | nil => simp [insertName]
  | cons key names ih =>
    rw [insertName]
    split_ifs with hlt heq
    · exact List.mem_cons
    · rw [heq, List.mem_cons, or_self_left]
    · rw [List.mem_cons, List.mem_cons, ih, or_left_comm]

/-- A name that is there is not inserted again, so the names keep increasing. -/
theorem pairwise_insertName (h : names.Pairwise (· < ·)) :
    (insertName name names).Pairwise (· < ·) := by
  induction names with
  | nil => exact List.pairwise_singleton _ name
  | cons key names ih =>
    obtain ⟨hkey, hnames⟩ := List.pairwise_cons.1 h
    rw [insertName]
    -- The name belongs before the first one, is the first one, or belongs further back.
    split_ifs with hlt heq
    · refine List.pairwise_cons.2 ⟨List.forall_mem_cons.2 ⟨hlt, fun other hother => ?_⟩, h⟩
      exact lt_trans hlt (hkey other hother)
    · exact h
    · have hgt : key < name := lt_of_le_of_ne (not_lt.1 hlt) (Ne.symm heq)
      refine List.pairwise_cons.2 ⟨fun other hother => ?_, ih hnames⟩
      rcases mem_insertName.1 hother with rfl | hother
      · exact hgt
      · exact hkey other hother

end InsertName

/-! ## Tallies -/

namespace Tally

variable {tally : Tally} {name other : String}

/-- The names that occur. -/
def names (tally : Tally) : List String :=
  tally.map Prod.fst

/-- How often a name occurs. -/
def countOf (tally : Tally) (name : String) : Nat :=
  (NameMap.lookup name tally).getD 0

/-- How often all names occur together. -/
def total (tally : Tally) : Nat :=
  (tally.map Prod.snd).sum

/-- The tally of a list of names. -/
def ofNames (names : List String) : Tally :=
  names.foldl (fun tally name => tally.add name) []

/-- The names are in increasing order, so each has one entry. -/
def Increasing (tally : Tally) : Prop :=
  tally.names.Pairwise (· < ·)

/-- A tally takes in a name as a set of names does. -/
theorem names_add (name : String) (tally : Tally) :
    (tally.add name).names = insertName name tally.names := by
  induction tally with
  | nil => rfl
  | cons entry tally ih =>
    obtain ⟨key, count⟩ := entry
    change _ = insertName name (key :: names tally)
    rw [Tally.add, insertName]
    split_ifs with hlt heq
    · rfl
    · rfl
    · exact congrArg (key :: ·) ih

/-- Every name that is added counts once. -/
theorem total_add (name : String) (tally : Tally) :
    (tally.add name).total = tally.total + 1 := by
  induction tally with
  | nil => rfl
  | cons entry tally ih =>
    obtain ⟨key, count⟩ := entry
    have hcons (tally : Tally) (count : Nat) : total ((key, count) :: tally) =
        count + tally.total := rfl
    rw [Tally.add, hcons]
    split_ifs with hlt heq
    · exact Nat.add_comm 1 _
    · rw [hcons, Nat.add_right_comm]
    · rw [hcons, ih, Nat.add_assoc]

/-- A tally is extended at the place where the name belongs. -/
theorem Increasing.add (h : tally.Increasing) (name : String) : (tally.add name).Increasing := by
  rw [Increasing, names_add]
  exact pairwise_insertName h

theorem Increasing.nodup (h : tally.Increasing) : tally.names.Nodup :=
  h.imp ne_of_lt

theorem countOf_eq_zero (h : name ∉ tally.names) : tally.countOf name = 0 := by
  rw [countOf, NameMap.lookup_eq_none h, Option.getD_none]

theorem countOf_cons (key : String) (count : Nat) (tally : Tally) (name : String) :
    countOf ((key, count) :: tally) name = if key = name then count else tally.countOf name := by
  rw [countOf, NameMap.lookup, countOf]
  split_ifs <;> rfl

/-- A name occurs once more, and all others as often as before. -/
theorem countOf_add (h : tally.Increasing) (name other : String) :
    (tally.add name).countOf other = tally.countOf other + if name = other then 1 else 0 := by
  induction tally with
  | nil => rw [Tally.add, countOf_cons]; split_ifs <;> rfl
  | cons entry tally ih =>
    obtain ⟨key, count⟩ := entry
    obtain ⟨hkey, htally⟩ := List.pairwise_cons.1 h
    rw [Tally.add]
    by_cases hlt : name < key
    · -- All names of the tally are greater, so this one is not among them.
      have hnew : name ∉ names ((key, count) :: tally) :=
        List.not_mem_cons_of_ne_of_not_mem (ne_of_lt hlt) fun hmem =>
          lt_asymm hlt (hkey name hmem)
      rw [if_pos hlt, countOf_cons]
      split_ifs with ho
      · rw [← ho, countOf_eq_zero hnew]
      · rfl
    by_cases heq : name = key
    · subst heq
      rw [if_neg hlt, if_pos rfl, countOf_cons, countOf_cons]
      split_ifs <;> rfl
    · rw [if_neg hlt, if_neg heq, countOf_cons, countOf_cons, ih htally]
      by_cases ho : key = other
      · rw [if_pos ho, if_pos ho, if_neg fun h => heq (h.trans ho.symm)]
        rfl
      · rw [if_neg ho, if_neg ho]

/-- Names are counted from the first one on. -/
theorem ofNames_concat (names : List String) (name : String) :
    ofNames (names ++ [name]) = (ofNames names).add name := by
  rw [ofNames, List.foldl_append]
  rfl

theorem increasing_ofNames (names : List String) : (ofNames names).Increasing := by
  induction names using List.reverseRecOn with
  | nil => exact .nil
  | append_singleton names name ih =>
    rw [ofNames_concat]
    exact ih.add name

/-- The names of a tally are those of the list, as a set. -/
theorem names_ofNames (names : List String) :
    (ofNames names).names = names.foldl (fun names name => insertName name names) [] := by
  induction names using List.reverseRecOn with
  | nil => rfl
  | append_singleton names name ih => rw [ofNames_concat, names_add, ih, List.foldl_append]; rfl

theorem mem_names_ofNames {names : List String} : name ∈ (ofNames names).names ↔ name ∈ names := by
  induction names using List.reverseRecOn with
  | nil => rfl
  | append_singleton names last ih =>
    rw [ofNames_concat, names_add, mem_insertName, ih, List.mem_append, List.mem_singleton, or_comm]

/-- All names together occur as often as the list is long. -/
theorem total_ofNames (names : List String) : (ofNames names).total = names.length := by
  induction names using List.reverseRecOn with
  | nil => rfl
  | append_singleton names name ih =>
    rw [ofNames_concat, total_add, ih, List.length_append, List.length_singleton]

/-- A name is counted as often as it is in the list. -/
theorem countOf_ofNames (names : List String) (name : String) :
    (ofNames names).countOf name = names.count name := by
  induction names using List.reverseRecOn with
  | nil => rfl
  | append_singleton names last ih =>
    rw [ofNames_concat, countOf_add (increasing_ofNames names), ih, List.count_append,
      List.count_singleton]
    simp only [beq_iff_eq]

/-- An entry holds how often its name occurs, and it does occur. -/
theorem snd_of_mem_ofNames {names : List String} {entry : String × Nat}
    (h : entry ∈ ofNames names) : entry.2 = names.count entry.1 ∧ 0 < entry.2 := by
  have hlookup : NameMap.lookup entry.1 (ofNames names) = some entry.2 :=
    (NameMap.lookup_eq_some_iff (increasing_ofNames names).nodup).2 h
  have hcount : entry.2 = names.count entry.1 := by
    rw [← countOf_ofNames, countOf, hlookup, Option.getD_some]
  have hmem : entry.1 ∈ names := mem_names_ofNames.1 (List.mem_map_of_mem h)
  exact ⟨hcount, hcount ▸ List.count_pos_iff.2 hmem⟩

end Tally

/-! ## The statistics of a graph -/

namespace GraphStats

/-- What one loop collects are six counts of their own. -/
theorem ofGraph_eq (graph : Graph) : ofGraph graph =
    { nodes := graph.nodes.length
      dataEdges := (graph.nodes.map fun node => node.dataInputs.length).sum
      controlEdges := (graph.nodes.map Node.controlCount).sum
      unassigned := graph.nodes.countP fun node => !node.isAssigned
      perDevice := .ofNames (Placement.mentioned graph.nodes)
      perOp := .ofNames (graph.nodes.map Node.op) } := by
  rw [ofGraph]
  induction graph.nodes using List.reverseRecOn with
  | nil => rfl
  | append_singleton nodes node ih =>
    rw [List.foldl_append, ih, List.foldl_cons, List.foldl_nil, add, Placement.mentioned,
      Placement.mentioned]
    cases hassigned : node.isAssigned <;>
      simp [hassigned, Tally.ofNames_concat]

/-- What the statistics of a graph say of it. -/
structure Describes (stats : GraphStats) (graph : Graph) : Prop where
  nodes : stats.nodes = graph.nodes.length
  /-- Every node is not assigned or counts for its device. -/
  split_device : stats.nodes = stats.unassigned + stats.perDevice.total
  /-- Every node counts for its op type. -/
  split_op : stats.nodes = stats.perOp.total
  /-- Every input carries data or only orders. -/
  split_input : stats.dataEdges + stats.controlEdges =
    (graph.nodes.map fun node => node.inputs.length).sum
  dataEdges : stats.dataEdges =
    (graph.nodes.map fun node => node.inputs.countP fun input => !input.isControl).sum
  unassigned : stats.unassigned = graph.nodes.countP fun node => node.device = ""
  devices : stats.perDevice.names = graph.devices
  mem_devices : ∀ device, device ∈ stats.perDevice.names ↔
    ∃ node ∈ graph.nodes, node.site? = some device
  /-- The number of nodes on a device is positive. -/
  perDevice : ∀ entry ∈ stats.perDevice, 0 < entry.2 ∧
    entry.2 = graph.nodes.countP fun node => node.device = entry.1
  perOp : ∀ entry ∈ stats.perOp, 0 < entry.2 ∧
    entry.2 = graph.nodes.countP fun node => node.op = entry.1

end GraphStats

/-- The devices of a graph are those that nodes are assigned to, in increasing order. -/
theorem Graph.names_perDevice (graph : Graph) :
    (Tally.ofNames (Placement.mentioned graph.nodes)).names = graph.devices := by
  rw [Tally.names_ofNames, Placement.mentioned, List.foldl_map, Graph.devices]

/-- A device is mentioned as often as nodes are on it, except for the empty name. -/
theorem Placement.count_mentioned (nodes : List Node) {device : String} (h : device ≠ "") :
    (mentioned nodes).count device = nodes.countP fun node => node.device = device := by
  rw [mentioned, List.count_eq_countP, List.countP_map, List.countP_filter]
  refine List.countP_congr fun node _ => ?_
  rw [Function.comp_apply, Bool.and_eq_true, beq_iff_eq, decide_eq_true_iff, Node.isAssigned,
    decide_eq_true_iff]
  exact and_iff_left_of_imp fun heq => heq ▸ h

theorem Placement.empty_not_mem_mentioned (nodes : List Node) : "" ∉ mentioned nodes := by
  intro h
  obtain ⟨node, hnode, hdevice⟩ := List.mem_map.1 h
  exact of_decide_eq_true (List.mem_filter.1 hnode).2 hdevice

/-- Nodes mention the devices that they are on. -/
theorem Placement.mem_mentioned {nodes : List Node} {device : String} :
    device ∈ mentioned nodes ↔ ∃ node ∈ nodes, node.site? = some device := by
  rw [mentioned, List.mem_map]
  refine exists_congr fun node => ?_
  rw [List.mem_filter, Node.site?, and_assoc, Option.ite_none_right_eq_some, Option.some_inj]

/-- Every node goes to one device or none and to one op type, and every input is of one of two
    kinds. -/
theorem GraphStats.describes_ofGraph (graph : Graph) : (ofGraph graph).Describes graph := by
  rw [ofGraph_eq]
  -- Each of the six counts is told by its own list of names or numbers.
  exact {
    nodes := rfl
    split_device := by
      change graph.nodes.length = _ + (Tally.ofNames _).total
      rw [Tally.total_ofNames, Placement.mentioned, List.length_map, ← List.countP_eq_length_filter,
        List.length_eq_countP_add_countP Node.isAssigned, Nat.add_comm]
      simp
    split_op := by
      change graph.nodes.length = (Tally.ofNames _).total
      rw [Tally.total_ofNames, List.length_map]
    split_input := by
      rw [← List.sum_map_add]
      refine congrArg List.sum (List.map_congr_left fun node _ => ?_)
      exact Nat.add_sub_of_le (List.length_filter_le _ _)
    dataEdges := by
      refine congrArg List.sum (List.map_congr_left fun node _ => ?_)
      exact List.countP_eq_length_filter.symm
    unassigned := List.countP_congr fun node _ => by simp [Node.isAssigned]
    devices := graph.names_perDevice
    mem_devices := fun device => Tally.mem_names_ofNames.trans Placement.mem_mentioned
    perDevice := fun entry hentry => by
      obtain ⟨hcount, hpos⟩ := Tally.snd_of_mem_ofNames hentry
      refine ⟨hpos, hcount.trans (Placement.count_mentioned graph.nodes ?_)⟩
      intro hempty
      have hmem := Tally.mem_names_ofNames.1 (List.mem_map_of_mem hentry)
      exact Placement.empty_not_mem_mentioned graph.nodes (hempty ▸ hmem)
    perOp := fun entry hentry => by
      obtain ⟨hcount, hpos⟩ := Tally.snd_of_mem_ofNames hentry
      rw [List.count_eq_countP, List.countP_map] at hcount
      refine ⟨hpos, hcount.trans (List.countP_congr fun node _ => ?_)⟩
      rw [Function.comp_apply, beq_iff_eq, decide_eq_true_iff] }

/-! ## Statistics before and after -/

namespace Graph

variable {graph placed : Graph} {catalog : OpCatalog} {knobs : Knobs} {devices : List String}

/-- The number of positions whose node has come to a device. -/
def gained (graph placed : Graph) (device : String) : Nat :=
  (List.range graph.nodes.length).countP fun position =>
    placed.deviceAt position = some device ∧ graph.deviceAt position ≠ some device

/-- The number of positions whose node has left a device. -/
def lost (graph placed : Graph) (device : String) : Nat :=
  (List.range graph.nodes.length).countP fun position =>
    graph.deviceAt position = some device ∧ placed.deviceAt position ≠ some device

/-- Counted by position or by node, as many nodes are on a device. -/
theorem countP_deviceAt (graph : Graph) (device : String) :
    ((List.range graph.nodes.length).countP fun position =>
        graph.deviceAt position = some device) =
      graph.nodes.countP fun node => node.device = device := by
  have hpositions : ((List.range graph.nodes.length).countP fun position =>
        graph.deviceAt position = some device) =
      ((List.range graph.nodes.length).map (graph.nodes[·]?)).countP fun node =>
        node.map Node.device = some device := by
    rw [List.countP_map]
    rfl
  rw [hpositions, map_getElem?_range, List.countP_map]
  refine List.countP_congr fun node _ => ?_
  simp

/-- The nodes that are on a device now are those that were there, with those that came and
    without those that left. -/
theorem gained_sub_lost (h : placed.nodes.length = graph.nodes.length) (device : String) :
    (graph.gained placed device : Int) - graph.lost placed device =
      (placed.nodes.countP fun node => node.device = device) -
        graph.nodes.countP fun node => node.device = device := by
  -- Of the nodes that are on the device in one graph, some are there in the other and some are not.
  have hsplit (p q : Nat → Prop) [DecidablePred p] [DecidablePred q] (l : List Nat) :
      l.countP (fun position => p position) =
        l.countP (fun position => p position ∧ q position) +
          l.countP (fun position => p position ∧ ¬ q position) := by
    rw [List.countP_eq_countP_filter_add _ _ fun position => q position, List.countP_filter,
      List.countP_filter]
    simp
  have hplaced := hsplit (fun position => placed.deviceAt position = some device)
    (fun position => graph.deviceAt position = some device) (List.range graph.nodes.length)
  have hgraph := hsplit (fun position => graph.deviceAt position = some device)
    (fun position => placed.deviceAt position = some device) (List.range graph.nodes.length)
  have hboth : ((List.range graph.nodes.length).countP fun position =>
        graph.deviceAt position = some device ∧ placed.deviceAt position = some device) =
      (List.range graph.nodes.length).countP fun position =>
        placed.deviceAt position = some device ∧ graph.deviceAt position = some device :=
    List.countP_congr fun position _ => by simp [and_comm]
  rw [countP_deviceAt, hboth] at hgraph
  rw [← h, countP_deviceAt, h] at hplaced
  change _ = _ + graph.gained placed device at hplaced
  change _ = _ + graph.lost placed device at hgraph
  omega

end Graph

/-- How the statistics of a graph change when its nodes are moved. -/
structure GraphStats.Transfers (before after : GraphStats) (graph placed : Graph) : Prop where
  /-- Nothing but the tally of the devices is different. -/
  same : after = { before with perDevice := after.perDevice }
  /-- A device gains the nodes that come to it and loses those that leave it. -/
  perDevice : ∀ device, (after.perDevice.countOf device : Int) - before.perDevice.countOf device =
    graph.gained placed device - graph.lost placed device

/-- The statistics count a device as often as it is mentioned. -/
theorem GraphStats.countOf_perDevice (graph : Graph) (device : String) :
    (ofGraph graph).perDevice.countOf device = (Placement.mentioned graph.nodes).count device := by
  rw [ofGraph_eq]
  exact Tally.countOf_ofNames _ device

section MayBecome

variable {graph placed : Graph} {catalog : OpCatalog} {knobs : Knobs} {devices : List String}

/-- No node loses its device if no device has the empty name. -/
theorem Graph.MayBecome.stayAssigned (h : graph.MayBecome catalog knobs devices placed)
    (hempty : "" ∉ devices) : StayAssigned graph.nodes placed.nodes :=
  h.nodes.imp fun node placed hnode hassigned hplaced => by
    have hmove := hnode.moved fun hsame => hassigned (hsame ▸ hplaced)
    exact hempty (hplaced ▸ hmove.target_mem)

/-- The statistics only look at names, op types and inputs besides devices, and those stay. -/
theorem Graph.MayBecome.transfers (h : graph.MayBecome catalog knobs devices placed)
    (hempty : "" ∉ devices) :
    (GraphStats.ofGraph graph).Transfers (.ofGraph placed) graph placed := by
  have hassigned := h.sameAssigned (h.stayAssigned hempty)
  have hunassigned : (placed.nodes.countP fun node => !node.isAssigned) =
      graph.nodes.countP fun node => !node.isAssigned := by
    have hcount := congrArg (List.countP (! ·)) hassigned
    rwa [List.countP_map, List.countP_map] at hcount
  refine ⟨?_, fun device => ?_⟩
  · -- What the other counts look at is the same in both graphs, node by node.
    have hlength := h.nodes.length_eq.symm
    have hops : placed.nodes.map Node.op = graph.nodes.map Node.op :=
      map_eq_map_of_forall₂ (h.nodes.imp fun _ _ hnode => hnode.op)
    have hdata : (placed.nodes.map fun node => node.dataInputs.length) =
        graph.nodes.map fun node => node.dataInputs.length :=
      map_eq_map_of_forall₂ (h.nodes.imp fun _ _ hnode => by
        rw [Node.dataInputs, Node.dataInputs, hnode.inputs])
    have hcontrol : placed.nodes.map Node.controlCount = graph.nodes.map Node.controlCount :=
      map_eq_map_of_forall₂ (h.nodes.imp fun _ _ hnode => by
        rw [Node.controlCount, Node.controlCount, Node.dataInputs, Node.dataInputs, hnode.inputs])
    rw [GraphStats.ofGraph_eq, GraphStats.ofGraph_eq, hlength, hops, hdata, hcontrol, hunassigned]
  · rw [Graph.gained_sub_lost h.nodes.length_eq.symm, GraphStats.countOf_perDevice,
      GraphStats.countOf_perDevice]
    by_cases hdevice : device = ""
    · -- The empty name is tallied for no graph, and as many nodes have it before and after.
      subst hdevice
      rw [List.count_eq_zero.2 (Placement.empty_not_mem_mentioned _),
        List.count_eq_zero.2 (Placement.empty_not_mem_mentioned _), sub_self, eq_comm, sub_eq_zero,
        Nat.cast_inj]
      simpa [Node.isAssigned] using hunassigned
    · rw [Placement.count_mentioned _ hdevice, Placement.count_mentioned _ hdevice]

end MayBecome

namespace Sweep.Task

/-- The statistics of a graph divide up its nodes and inputs, and those of the graph that a
    sweep returns differ only where nodes have come or gone. -/
theorem stats_of_run (task : Task) : (GraphStats.ofGraph task.graph).Describes task.graph ∧
    ∀ result, "" ∉ task.devices → task.run = .ok result →
      (GraphStats.ofGraph task.graph).Transfers (.ofGraph result.graph) task.graph result.graph := by
  refine ⟨GraphStats.describes_ofGraph task.graph, fun result hempty h => ?_⟩
  exact (mayBecome_of_run h).transfers hempty

theorem stats_of_relay : ∃ result, relay.run = .ok result ∧
    (GraphStats.ofGraph relay.graph).Transfers (.ofGraph result.graph) relay.graph result.graph ∧
    (GraphStats.ofGraph relay.graph).perDevice =
      [("dev0", 1), ("dev1", 1), ("dev2", 1), ("dev9", 1)] ∧
    (GraphStats.ofGraph result.graph).perDevice = [("dev1", 1), ("dev2", 3)] := by
  have htally : relay.run.toOption.map (fun result => (GraphStats.ofGraph result.graph).perDevice) =
      some [("dev1", 1), ("dev2", 3)] := by
    decide +kernel
  obtain ⟨result, h, htally⟩ := exists_ok_of_toOption htally
  have hempty : "" ∉ relay.devices := by decide +kernel
  exact ⟨result, h, (stats_of_run relay).2 result hempty h, by decide +kernel, htally⟩

end Sweep.Task

end DevicePlacement

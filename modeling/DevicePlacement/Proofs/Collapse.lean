import DevicePlacement.Proofs.Recount

/-!
# Collapsing once and again

A collapse sends the nodes that may move to the first device of the inventory that is not
pinned and leaves all else as it is (`Collapse.Collapsed`). Which nodes may move does not
depend on the policy of the knobs: none of them is on a pinned device (`Node.Loose`).

A node that has been sent is where a second collapse would send it, and one that was left is
left again. So the second collapse finds nothing to do (`Collapse.Collapsed.again`), whatever
the devices are called: if the first one has the empty name, the nodes sent there are not
assigned any more, and stay.
-/

namespace DevicePlacement

/-! ## Pinned devices -/

/-- The search for a pattern finds every part of a text that stands together. -/
theorem PinnedPattern.occurs_iff {part chars : List Char} :
    occurs part chars = true ↔ part <:+: chars := by
  induction chars with
  | nil => simp [occurs]
  | cons c chars ih =>
    rw [occurs, Bool.or_eq_true, ih, List.isPrefixOf_iff_prefix, List.infix_cons_iff]

namespace Knobs

variable {knobs : Knobs} {devices : List String} {device : String}

/-- A device has the pinned pattern in its name. The empty pattern pins none. -/
def Pins (knobs : Knobs) (device : String) : Prop :=
  knobs.pinnedDevicePattern ≠ "" ∧ knobs.pinnedDevicePattern.toList <:+: device.toList

/-- The pattern is searched for in the whole name. -/
theorem isPinned_iff :
    PinnedPattern.isPinned ⟨knobs.pinnedDevicePattern⟩ device = true ↔ knobs.Pins device := by
  rw [PinnedPattern.isPinned, Bool.and_eq_true, PinnedPattern.occurs_iff, decide_eq_true_iff]
  rfl

theorem isPinned_eq_false_iff :
    PinnedPattern.isPinned ⟨knobs.pinnedDevicePattern⟩ device = false ↔ ¬ knobs.Pins device := by
  rw [← isPinned_iff, Bool.not_eq_true]

/-- The first device of an inventory that is not pinned. -/
theorem defaultDevice?_eq_some_iff :
    PinnedPattern.defaultDevice? ⟨knobs.pinnedDevicePattern⟩ devices = some device ↔
      ¬ knobs.Pins device ∧ ∃ before after, devices = before ++ device :: after ∧
        ∀ other ∈ before, knobs.Pins other := by
  rw [PinnedPattern.defaultDevice?, List.find?_eq_some_iff_append]
  simp only [Bool.not_not, Bool.not_eq_true', isPinned_eq_false_iff, isPinned_iff]

end Knobs

variable {catalog : OpCatalog} {knobs : Knobs} {devices : List String} {graph : Graph}
  {device : String}

/-! ## Nodes that are sent -/

/-- The strict policy lets a node move: its op type is known, holds no state and may move, and
    it is on a device that is not pinned. -/
structure Node.Loose (catalog : OpCatalog) (knobs : Knobs) (node : Node) : Prop where
  stateless : ∃ traits, catalog node.op = some traits ∧ traits.isStateful = false
  relocatable : node.op ∈ knobs.relocatableOps
  assigned : node.device ≠ ""
  unpinned : ¬ knobs.Pins node.device

/-- The eligibility that a collapse goes by. -/
def Collapse.eligibility (catalog : OpCatalog) (knobs : Knobs) : Eligibility :=
  (Eligibility.ofKnobs catalog knobs ⟨knobs.pinnedDevicePattern⟩).withPolicy .strict

/-- A collapse always goes by the strict policy, whichever the knobs name. -/
theorem Collapse.isEligible_iff {node : Node} :
    (eligibility catalog knobs).isEligible node = true ↔ node.Loose catalog knobs := by
  have hmovable : (eligibility catalog knobs).Movable node.op ↔
      (∃ traits, catalog node.op = some traits ∧ traits.isStateful = false) ∧
        node.op ∈ knobs.relocatableOps := by
    rw [← List.contains_iff_mem]
    rfl
  -- The policy is strict by construction, so what holds under it holds.
  have hstrict : ((eligibility catalog knobs).policy = .strict →
      (eligibility catalog knobs).pinned.isPinned node.device = false) ↔
        ¬ knobs.Pins node.device := by
    rw [← Knobs.isPinned_eq_false_iff]
    exact ⟨fun h => h rfl, fun h _ => h⟩
  have hassigned : node.isAssigned = true ↔ node.device ≠ "" := decide_eq_true_iff
  rw [Eligibility.isEligible_iff, hmovable, hstrict, hassigned]
  constructor
  · rintro ⟨⟨hstateless, hrelocatable⟩, hassigned, hunpinned⟩
    exact ⟨hstateless, hrelocatable, hassigned, hunpinned⟩
  · rintro ⟨hstateless, hrelocatable, hassigned, hunpinned⟩
    exact ⟨⟨hstateless, hrelocatable⟩, hassigned, hunpinned⟩

instance (node : Node) : Decidable (node.Loose catalog knobs) :=
  decidable_of_iff _ Collapse.isEligible_iff

/-- What becomes of a node when the loose ones are sent to a device. -/
structure Node.Sent (catalog : OpCatalog) (knobs : Knobs) (device : String)
    (node placed : Node) : Prop where
  name : placed.name = node.name
  op : placed.op = node.op
  inputs : placed.inputs = node.inputs
  device : placed.device = if node.Loose catalog knobs then device else node.device

/-- A node that has been sent is there already, and one that was left is not loose. -/
theorem Node.Sent.eq_of_sent {node placed again : Node}
    (h : node.Sent catalog knobs device placed) (h' : placed.Sent catalog knobs device again) :
    again = placed := by
  have hdevice : again.device = placed.device := by
    rw [h'.device]
    split
    · next hplaced =>
      -- Had the node been left, it would be as loose as it is now.
      have hnode : node.Loose catalog knobs := by
        by_contra hleft
        have hsame : placed.device = node.device := by rw [h.device, if_neg hleft]
        exact hleft ⟨h.op ▸ hplaced.stateless, h.op ▸ hplaced.relocatable,
          hsame ▸ hplaced.assigned, hsame ▸ hplaced.unpinned⟩
      rw [h.device, if_pos hnode]
    · rfl
  exact Node.ext h'.name h'.op hdevice h'.inputs

namespace Collapse

/-- What comes out of a collapse. -/
inductive Collapsed (catalog : OpCatalog) (knobs : Knobs) (devices : List String)
    (graph : Graph) : Result → Prop
  /-- All devices are pinned, and nothing happens. -/
  | stuck (hpinned : ∀ device ∈ devices, knobs.Pins device) :
      Collapsed catalog knobs devices graph ⟨graph, none, 0, 0⟩
  /-- The first device that is not pinned takes the loose nodes. -/
  | sent {before after : List String} {device : String} {nodes : List Node}
      (hdevices : devices = before ++ device :: after)
      (hbefore : ∀ other ∈ before, knobs.Pins other) (hdevice : ¬ knobs.Pins device)
      (hnodes : List.Forall₂ (Node.Sent catalog knobs device) graph.nodes nodes) :
      Collapsed catalog knobs devices graph
        { graph := { graph with nodes := nodes }
          device := some device
          moved := graph.displaced { graph with nodes := nodes }
          eligible := graph.nodes.countP (Node.Loose catalog knobs) }

/-- A node that is loose is put on the device, and nothing else about it changes. -/
theorem sent_placeNode (device : String) (node : Node) :
    node.Sent catalog knobs device (placeNode (eligibility catalog knobs) device node) := by
  rw [placeNode]
  split
  · next h => exact ⟨rfl, rfl, rfl, (if_pos (isEligible_iff.1 h)).symm⟩
  · next h => exact ⟨rfl, rfl, rfl, (if_neg (mt isEligible_iff.2 h)).symm⟩

/-- A collapse looks for the first device that is not pinned and sends the loose nodes there. -/
theorem collapsed_run (catalog : OpCatalog) (knobs : Knobs) (graph : Graph)
    (devices : List String) :
    Collapsed catalog knobs devices graph (run catalog knobs graph devices) := by
  cases hdefault : PinnedPattern.defaultDevice? ⟨knobs.pinnedDevicePattern⟩ devices with
  | none =>
    rw [run, hdefault]
    exact .stuck fun device hmem =>
      Knobs.isPinned_iff.1 (PinnedPattern.defaultDevice?_eq_none.1 hdefault device hmem)
  | some device =>
    obtain ⟨hdevice, before, after, hdevices, hbefore⟩ :=
      Knobs.defaultDevice?_eq_some_iff.1 hdefault
    -- The nodes that are counted and those that are sent are the loose ones.
    have heligible : (graph.nodes.filter (eligibility catalog knobs).isEligible).length =
        graph.nodes.countP (Node.Loose catalog knobs) := by
      rw [← List.countP_eq_length_filter]
      exact List.countP_congr fun node _ => by rw [isEligible_iff, decide_eq_true_iff]
    have hnodes : List.Forall₂ (Node.Sent catalog knobs device) graph.nodes
        (graph.nodes.map (placeNode (eligibility catalog knobs) device)) :=
      List.forall₂_map_right_iff.2 (List.forall₂_same.2 fun node _ => sent_placeNode device node)
    -- A collapse counts what it moves, node by node, and so what is elsewhere.
    have hrun : run catalog knobs graph devices =
        { graph := (run catalog knobs graph devices).graph
          device := some device
          moved := graph.displaced (run catalog knobs graph devices).graph
          eligible := graph.nodes.countP (Node.Loose catalog knobs) } := by
      rw [displaced_run, ← heligible, run, hdefault]
      rfl
    have hgraph : (run catalog knobs graph devices).graph =
        { graph with nodes := graph.nodes.map (placeNode (eligibility catalog knobs) device) } := by
      rw [run, hdefault]
      rfl
    rw [hrun, hgraph]
    exact .sent hdevices hbefore hdevice hnodes

/-- A second collapse finds nothing to do. -/
theorem Collapsed.again {first second : Result} (h : Collapsed catalog knobs devices graph first)
    (h' : Collapsed catalog knobs devices first.graph second) :
    second.graph = first.graph ∧ second.moved = 0 ∧ second.device = first.device := by
  cases h with
  | stuck hpinned =>
    cases h' with
    | stuck _ => exact ⟨rfl, rfl, rfl⟩
    | sent hdevices _ hdevice _ => exact absurd (hpinned _ (by simp [hdevices])) hdevice
  | sent hdevices hbefore hdevice hnodes =>
    cases h' with
    | stuck hpinned => exact absurd (hpinned _ (by simp [hdevices])) hdevice
    | sent hdevices' hbefore' hdevice' hnodes' =>
      -- The inventory has one first device that is not pinned, so both send to the same.
      have hdefault := Knobs.defaultDevice?_eq_some_iff.2 ⟨hdevice, _, _, hdevices, hbefore⟩
      have hdefault' := Knobs.defaultDevice?_eq_some_iff.2 ⟨hdevice', _, _, hdevices', hbefore'⟩
      cases hdefault.symm.trans hdefault'
      cases eq_of_forall₂_of_forall₂ (fun _ _ _ => Node.Sent.eq_of_sent) hnodes hnodes'
      exact ⟨rfl, Graph.displaced_self _, rfl⟩

/-- A collapse sends the loose nodes to the first device that is not pinned, and counts them
    and those that move. Collapsing what came out of it changes nothing. -/
theorem collapsed_run_run (catalog : OpCatalog) (knobs : Knobs) (graph : Graph)
    (devices : List String) :
    let first := run catalog knobs graph devices
    let second := run catalog knobs first.graph devices
    Collapsed catalog knobs devices graph first ∧
      second.graph = first.graph ∧ second.moved = 0 ∧ second.device = first.device :=
  ⟨collapsed_run catalog knobs graph devices,
    (collapsed_run catalog knobs graph devices).again (collapsed_run catalog knobs _ devices)⟩

end Collapse

end DevicePlacement

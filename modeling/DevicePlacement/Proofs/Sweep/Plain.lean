import DevicePlacement.Proofs.Sweep.Loads

/-!
# The plain sweep

What a sweep is meant to do, without tables. The plain sweep knows where the nodes
are, by name, and nothing else. For every eligible node that is not on a pinned
device it tries all devices of the inventory that are not pinned, the one from
which the node came among them. Each time it works out the traffic of the node and
the loads of the devices anew, from the graph and the estimate, in exact integers;
if the node is better off, it moves there and then.

* `Plain.attempt`: one device for one node;
* `Plain.visit`: one node;
* `Plain.run`: the whole graph.
-/

namespace DevicePlacement

/-- No node of the graph is the producer of one of its own data inputs. -/
def Graph.Loopless (graph : Graph) : Prop :=
  ∀ position node, graph.nodes[position]? = some node → position ∉ graph.producers node

/-- A graph has finitely many nodes, so this can be decided. -/
theorem Graph.loopless_iff {graph : Graph} :
    graph.Loopless ↔ ∀ entry ∈ graph.nodes.zipIdx, entry.2 ∉ graph.producers entry.1 := by
  constructor
  · intro h entry he
    exact h entry.2 entry.1 (List.mem_zipIdx_iff_getElem?.1 he)
  · intro h position node hn
    exact h (node, position) (List.mem_zipIdx_iff_getElem?.2 hn)

instance (graph : Graph) : Decidable graph.Loopless :=
  decidable_of_iff _ Graph.loopless_iff.symm

namespace Sweep

/-- A move, with exact deltas. -/
structure Move where
  /-- The name of the node. -/
  node : String
  /-- The device it left. -/
  source : String
  /-- The device it went to. -/
  target : String
  /-- The delta of its traffic on the device it left. -/
  deltaBefore : Int
  /-- The delta of its traffic on the device it went to. -/
  deltaAfter : Int
  /-- The share of the device it left, after the move. -/
  originShare : Float
  /-- The share of the device it went to, after the move. -/
  destinationShare : Float

/-- What the record of a move says, with exact deltas. -/
def exact (made : MoveRecord) : Move where
  node := made.node
  source := made.source
  target := made.target
  deltaBefore := made.deltaBefore.toInt
  deltaAfter := made.deltaAfter.toInt
  originShare := made.originShare
  destinationShare := made.destinationShare

namespace Task

/-- The producers of the node at a position. -/
def producers (task : Task) (position : Nat) : List Nat :=
  ((task.graph.nodes[position]?).map task.graph.producers).getD []

/-- The size of the output of the node at a position, if it has an entry. -/
def size? (task : Task) (position : Nat) : Option Int :=
  (task.graph.nodes[position]?).bind task.estimate.size?

/-- What comes in at the node at a position, with the nodes at the given sites. -/
def arrivals (task : Task) (site : Nat → Option String) (position : Nat) : Arrivals String :=
  DevicePlacement.arrivals task.size? site (task.producers position)

/-- The load of a device, with the nodes at the given sites. -/
def load (task : Task) (site : Nat → Option String) (device : String) : Int :=
  loadOn task.compute site task.positions device

/-- The devices that nodes may move to: those of the inventory, each once, that are
    not pinned. -/
def targets (task : Task) : List String :=
  task.devices.eraseDups.filter fun device => !task.pinned.isPinned device

/-- The name of the node at a position. -/
def nodeName (task : Task) (position : Nat) : String :=
  ((task.graph.nodes[position]?).map Node.name).getD ""

/-- Whether a node is better off on another device: this strictly lowers the delta of
    its traffic and leaves both devices near their ideal share. -/
def isBetter (task : Task) (site : Nat → Option String) (position : Nat)
    (current target : String) : Bool :=
  (task.arrivals site position).gap target < (task.arrivals site position).gap current &&
    task.scale.isNear (task.load site current - task.compute position) &&
    task.scale.isNear (task.load site target + task.compute position)

end Task

/-- How far a plain sweep has come. -/
structure Plain where
  /-- Where the nodes are. -/
  site : Nat → Option String
  /-- The moves that were made. -/
  moves : List Move

namespace Plain

open Function

/-- The plain sweep at its start. -/
def start (task : Task) : Plain where
  site position := (task.graph.nodes[position]?).bind Node.site?
  moves := []

/-- The move of a node, with the nodes where they are before and after it. -/
def move (task : Task) (position : Nat) (site site' : Nat → Option String)
    (current target : String) : Move where
  node := task.nodeName position
  source := current
  target := target
  deltaBefore := (task.arrivals site position).gap current
  deltaAfter := (task.arrivals site position).gap target
  originShare := task.scale.share (task.load site' current)
  destinationShare := task.scale.share (task.load site' target)

/-- Tries a device for a node. -/
def attempt (task : Task) (position : Nat) (plain : Plain) (target : String) : Plain :=
  match plain.site position with
  | none => plain
  | some current =>
    if target ≠ current ∧ task.isBetter plain.site position current target then
      let site := update plain.site position (some target)
      ⟨site, plain.moves ++ [move task position plain.site site current target]⟩
    else plain

/-- Visits a node. -/
def visit (task : Task) (plain : Plain) (position : Nat) : Plain :=
  match plain.site position with
  | none => plain
  | some device =>
    if task.pinned.isPinned device then plain
    else task.targets.foldl (attempt task position) plain

/-- Sweeps a graph. -/
def run (task : Task) : Plain :=
  if task.targets.length < 2 then start task
  else task.positions.foldl (visit task) (start task)

/-- The graph with its nodes where the plain sweep has put them. -/
def graph (plain : Plain) (graph : Graph) : Graph :=
  { graph with nodes := graph.nodes.mapIdx fun position node => node.moveTo (plain.site position) }

variable {task : Task} {plain : Plain} {position : Nat} {current target : String}

/-- If the node is better off, it moves and the move is noted. -/
theorem attempt_of_better (hsite : plain.site position = some current) (hne : target ≠ current)
    (hbetter : task.isBetter plain.site position current target = true) :
    attempt task position plain target =
      ⟨update plain.site position (some target), plain.moves ++
        [move task position plain.site (update plain.site position (some target)) current
          target]⟩ := by
  rw [attempt, hsite]
  exact if_pos ⟨hne, hbetter⟩

/-- A node is left alone on the device it is on, and where it is not better off. -/
theorem attempt_of_not_better (hsite : plain.site position = some current)
    (h : target = current ∨ task.isBetter plain.site position current target = false) :
    attempt task position plain target = plain := by
  rw [attempt, hsite]
  refine if_neg fun hyes => ?_
  rcases h with h | h
  · exact hyes.1 h
  · exact Bool.false_ne_true (h.symm.trans hyes.2)

/-- A node that is on no device is passed over. -/
theorem visit_of_unassigned (hsite : plain.site position = none) :
    visit task plain position = plain := by
  rw [visit, hsite]

/-- So is a node on a pinned device. -/
theorem visit_of_pinned (hsite : plain.site position = some current)
    (hpinned : task.pinned.isPinned current = true) : visit task plain position = plain := by
  rw [visit, hsite]
  exact if_pos hpinned

/-- For all other nodes every target is tried, in the order of the inventory. -/
theorem visit_of_not_pinned (hsite : plain.site position = some current)
    (hpinned : task.pinned.isPinned current = false) :
    visit task plain position = task.targets.foldl (attempt task position) plain := by
  rw [visit, hsite]
  exact if_neg (by rw [hpinned]; exact Bool.false_ne_true)

end Plain

end Sweep

end DevicePlacement

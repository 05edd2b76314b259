import DevicePlacement.Eligibility
import DevicePlacement.Placement.Balance
import DevicePlacement.Report.Basic

/-!
# The sweep

A sweep visits every eligible node once, in the order of the graph. For each
node it goes through the candidates, the devices of the inventory that are not
pinned, in their order, and makes every move there that is beneficial. The next
candidate is compared with the device the node has reached by then. The device
from which the visit began is not a candidate, so a node that has left it does
not come back.

The loads follow every move at once, but the placement learns only at the end of
the visit where the node has come to: its own device does not matter for its own
traffic.

* `Sweep.consider`: one candidate for one node;
* `Sweep.visit`: one node;
* `Sweep.run`: the whole graph, with its report figures.

Nodes on pinned devices count in the loads if the policy makes them eligible,
but they are passed over, and with fewer than two candidates all nodes are.
-/

namespace DevicePlacement

/-- What stays the same during a sweep. -/
structure Sweep where
  /-- The graph with its costs. -/
  priced : PricedGraph
  /-- The devices by number. -/
  roster : Roster
  /-- Which devices are pinned. -/
  pinned : PinnedPattern
  /-- The devices that nodes may move to, in order. -/
  candidates : List Nat

namespace Sweep

/-- How far the visit of a node has come. -/
structure Visit where
  /-- The device the node has reached. -/
  current : Nat
  /-- The traffic of the node there. -/
  traffic : Traffic
  /-- The loads of the devices. -/
  balance : Balance
  /-- The moves that were made, earlier ones of other nodes included. -/
  moves : List MoveRecord

/-- How far a sweep has come. -/
structure State where
  /-- Where the nodes are. -/
  placement : Placement
  /-- The loads of the devices. -/
  balance : Balance
  /-- The moves that were made. -/
  moves : List MoveRecord
  /-- The number of nodes that were moved. -/
  moved : Nat

/-- The record of a move of a node, after which the loads are as given. -/
def record (sweep : Sweep) (position : Nat) (move : Relocation) (balance : Balance) :
    Except Fault MoveRecord := do
  return {
    node := (← sweep.priced.node position).name
    source := ← sweep.roster.name move.origin
    target := ← sweep.roster.name move.destination
    deltaBefore := ← move.before.delta
    deltaAfter := ← move.after.delta
    originShare := ← balance.share move.origin
    destinationShare := ← balance.share move.destination }

/-- Considers a candidate for a node that began its visit on the device `origin`. -/
def consider (sweep : Sweep) (placement : Placement) (position origin : Nat) (visit : Visit)
    (candidate : Nat) : Except Fault Visit := do
  if candidate = origin ∨ candidate = visit.current then
    return visit
  let traffic ← sweep.priced.traffic placement position candidate
  let move : Relocation :=
    { computeCost := traffic.computeCost
      before := visit.traffic
      after := traffic
      origin := visit.current
      destination := candidate }
  if ← visit.balance.isBeneficial move then
    let balance ← visit.balance.apply move
    let made ← sweep.record position move balance
    return ⟨candidate, traffic, balance, visit.moves ++ [made]⟩
  else
    return visit

/-- Visits a node. -/
def visit (sweep : Sweep) (state : State) (position : Nat) : Except Fault State := do
  match ← state.placement.device position with
  | none => return state
  | some origin =>
    if sweep.pinned.isPinned (← sweep.roster.name origin) then
      return state
    let traffic ← sweep.priced.traffic state.placement position origin
    let result ← sweep.candidates.foldlM (sweep.consider state.placement position origin)
      ⟨origin, traffic, state.balance, state.moves⟩
    if result.current = origin then
      return { state with balance := result.balance, moves := result.moves }
    else
      return {
        placement := ← state.placement.assign position result.current
        balance := result.balance
        moves := result.moves
        moved := state.moved + 1 }

/-- The positions of the eligible nodes. -/
def eligiblePositions (eligibility : Eligibility) (graph : Graph) : List Nat :=
  (graph.nodes.zipIdx.filter fun (node, _) => eligibility.isEligible node).map Prod.snd

/-- The loads that a list of nodes puts on the devices. -/
def loadAll (priced : PricedGraph) (placement : Placement) (balance : Balance)
    (positions : List Nat) : Except Fault Balance :=
  positions.foldlM (fun balance position => do
    match ← placement.device position with
    | none => return balance
    | some device => balance.add device (← priced.computeCost position)) balance

/-- Visits a list of nodes, unless there are fewer than two candidates. -/
def visitAll (sweep : Sweep) (state : State) (positions : List Nat) : Except Fault State :=
  if sweep.candidates.length < 2 then .ok state
  else positions.foldlM sweep.visit state

/-- The load of a device before and after the sweep. -/
def deviceLoad (sweep : Sweep) (before after : Balance) (device : Nat) :
    Except Fault DeviceLoad := do
  let name ← sweep.roster.name device
  return {
    device := name
    pinned := sweep.pinned.isPinned name
    loadBefore := ← before.load device
    loadAfter := ← after.load device
    shareAfter := ← after.share device }

/-- What came out of a sweep. -/
structure Result where
  /-- The graph with its nodes where the sweep has put them. -/
  graph : Graph
  /-- The number of nodes that moved. -/
  moved : Nat
  /-- Every move, in the order in which it was made. -/
  moves : List MoveRecord
  /-- The number of eligible nodes. -/
  eligible : Nat
  /-- The loads of all devices together. -/
  totalComputeCost : Int64
  /-- The share that each device should have. -/
  idealShare : Float
  /-- The loads of the devices, by number. -/
  deviceLoads : List DeviceLoad
  /-- The external traffic before the sweep. -/
  externalBefore : Int64
  /-- The external traffic after the sweep. -/
  externalAfter : Int64

/-- Sweeps a graph over the devices of an inventory. -/
def run (catalog : OpCatalog) (knobs : Knobs) (graph : Graph) (devices : List String)
    (estimate : Estimate) : Except Fault Result := do
  let pinned : PinnedPattern := ⟨knobs.pinnedDevicePattern⟩
  let priced := PricedGraph.ofGraph graph estimate
  let (roster, placement) := Placement.ofGraph (Roster.ofInventory devices) graph
  let sweep : Sweep := ⟨priced, roster, pinned, roster.candidates pinned⟩
  let positions := eligiblePositions (Eligibility.ofKnobs catalog knobs pinned) graph
  let before ← loadAll priced placement
    (Balance.ofDevices roster.size devices.length knobs.computeMargin) positions
  let externalBefore ← priced.totalExternal placement
  let final ← sweep.visitAll ⟨placement, before, [], 0⟩ positions
  let externalAfter ← priced.totalExternal final.placement
  if !(← final.balance.isConserved) then
    throw .unbalanced
  let deviceLoads ← (List.range roster.size).mapM (sweep.deviceLoad before final.balance)
  let placed ← final.placement.place roster graph
  return {
    graph := placed
    moved := final.moved
    moves := final.moves
    eligible := positions.length
    totalComputeCost := final.balance.total
    idealShare := final.balance.idealShare
    deviceLoads := deviceLoads
    externalBefore := externalBefore
    externalAfter := externalAfter }

end Sweep

end DevicePlacement

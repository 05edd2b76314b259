import DevicePlacement.Placement.Basic
import DevicePlacement.Placement.PricedGraph

/-!
# Traffic

The traffic of a node is what its data inputs bring in: from producers on other
devices (`external`) and from those on its own (`internal`). It can be asked for
any device, as if the node were there, and the placement stays as it is.

Producers that are not assigned or have no cost bring in nothing. The *delta* of
the traffic, external less internal, is what a move has to lower.
-/

namespace DevicePlacement

/-- What flows into a node. -/
structure Traffic where
  /-- The compute cost of the node itself. -/
  computeCost : Int64
  /-- What comes from other devices. -/
  external : Int64
  /-- What comes from the device of the node. -/
  internal : Int64
  deriving DecidableEq, Repr

namespace Traffic

/-- External traffic less internal traffic. -/
def delta (traffic : Traffic) : Except Fault Int64 :=
  Checked.minus traffic.external traffic.internal

/-- The traffic with a producer that sends `size` from its device to `device`. -/
def add (traffic : Traffic) (device source : Nat) (size : Int64) : Except Fault Traffic :=
  if source = device then do
    return { traffic with internal := ← Checked.plus traffic.internal size }
  else do
    return { traffic with external := ← Checked.plus traffic.external size }

end Traffic

namespace PricedGraph

/-- The traffic with one more data input of the node. -/
def addInput (priced : PricedGraph) (placement : Placement) (device : Nat) (traffic : Traffic)
    (producer : Nat) : Except Fault Traffic := do
  match ← priced.cost producer with
  | none => return traffic
  | some cost =>
    match ← placement.device producer with
    | none => return traffic
    | some source => traffic.add device source cost.maxMemorySize

/-- The traffic of the node at a position if it ran on the given device. -/
def traffic (priced : PricedGraph) (placement : Placement) (position device : Nat) :
    Except Fault Traffic := do
  let computeCost ← priced.computeCost position
  let inputs ← priced.inputs position
  inputs.foldlM (priced.addInput placement device) ⟨computeCost, 0, 0⟩

/-- The external traffic with that of the node at one more position. -/
def addExternal (priced : PricedGraph) (placement : Placement) (sum : Int64) (position : Nat) :
    Except Fault Int64 := do
  match ← placement.device position with
  | none => return sum
  | some device =>
    let traffic ← priced.traffic placement position device
    Checked.plus sum traffic.external

/-- The external traffic of all nodes that are assigned, each on its device. -/
def totalExternal (priced : PricedGraph) (placement : Placement) : Except Fault Int64 :=
  (List.range priced.size).foldlM (priced.addExternal placement) 0

end PricedGraph

end DevicePlacement

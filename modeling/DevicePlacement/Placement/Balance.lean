import DevicePlacement.Placement.Traffic

/-!
# Balance

The load of a device is the compute cost of the eligible nodes on it, and its
share is its load in proportion to all loads. A `Balance` keeps the loads while
nodes move. A move is only made if it lowers the delta of the node's traffic and
if afterwards the shares of both devices are near the ideal one, which is one
over the number of devices in the inventory (`Balance.isBeneficial`).

Moves never change the total, so the loads always add up to it
(`Balance.isConserved`).
-/

namespace DevicePlacement

/-- A move that is considered. -/
structure Relocation where
  /-- The compute cost of the node. -/
  computeCost : Int64
  /-- The traffic of the node on the device it would leave. -/
  before : Traffic
  /-- The traffic of the node on the device it would go to. -/
  after : Traffic
  /-- The device it would leave. -/
  origin : Nat
  /-- The device it would go to. -/
  destination : Nat
  deriving DecidableEq, Repr

/-- The loads of the devices. -/
structure Balance where
  /-- The load of each device. -/
  loads : List Int64
  /-- All loads together. -/
  total : Int64
  /-- The share that each device should have. -/
  idealShare : Float
  /-- How far a share may be from the ideal one. -/
  margin : Float

namespace Balance

/-- Shares that are off the margin by less than this pass, as they are rounded. -/
def tolerance : Float := 1e-9

/-- The balance of devices without load. -/
def ofDevices (devices inventory : Nat) (margin : Float) : Balance where
  loads := List.replicate devices 0
  total := 0
  idealShare := 1 / Float.ofNat (max inventory 1)
  margin := margin

/-- The load of a device. -/
def load (balance : Balance) (device : Nat) : Except Fault Int64 :=
  Checked.row balance.loads device

/-- The balance with a node of the given compute cost on a device. -/
def add (balance : Balance) (device : Nat) (computeCost : Int64) : Except Fault Balance := do
  let load ← Checked.plus (← balance.load device) computeCost
  let loads ← Checked.setRow balance.loads device load
  let total ← Checked.plus balance.total computeCost
  return { balance with loads := loads, total := total }

/-- The share of a load. Without any load every share is ideal. -/
def shareOf (balance : Balance) (load : Int64) : Float :=
  if balance.total = 0 then balance.idealShare
  else Float.ofInt load.toInt / Float.ofInt balance.total.toInt

/-- The share of a device. -/
def share (balance : Balance) (device : Nat) : Except Fault Float := do
  return balance.shareOf (← balance.load device)

/-- Whether a device with the given load has a share near the ideal one. -/
def isWithinMargin (balance : Balance) (load : Int64) : Bool :=
  (balance.shareOf load - balance.idealShare).abs ≤ balance.margin + tolerance

/-- Whether a move is worth making: it strictly lowers the delta of the traffic
    and leaves both devices within the margin. -/
def isBeneficial (balance : Balance) (move : Relocation) : Except Fault Bool := do
  let after ← move.after.delta
  let before ← move.before.delta
  if before.toInt ≤ after.toInt then
    return false
  let origin ← Checked.minus (← balance.load move.origin) move.computeCost
  if !balance.isWithinMargin origin then
    return false
  let destination ← Checked.plus (← balance.load move.destination) move.computeCost
  return balance.isWithinMargin destination

/-- The balance after a move. -/
def apply (balance : Balance) (move : Relocation) : Except Fault Balance := do
  let origin ← Checked.minus (← balance.load move.origin) move.computeCost
  let loads ← Checked.setRow balance.loads move.origin origin
  let destination ← Checked.plus (← Checked.row loads move.destination) move.computeCost
  let loads ← Checked.setRow loads move.destination destination
  return { balance with loads := loads }

/-- Whether the loads add up to the total. -/
def isConserved (balance : Balance) : Except Fault Bool := do
  return (← Checked.total balance.loads) = balance.total

end Balance

end DevicePlacement

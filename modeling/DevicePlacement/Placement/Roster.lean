import DevicePlacement.Checked
import DevicePlacement.Cluster.Basic

/-!
# Rosters

A roster numbers the devices that placement deals with. The devices of the
inventory come first, in its order and each once, and then those that only the
graph mentions, in the order in which they are met. A device keeps its number
for good.
-/

namespace DevicePlacement

/-- The devices by number. -/
structure Roster where
  /-- The names, each once. -/
  names : List String
  /-- The number of devices of the inventory. -/
  inventorySize : Nat
  deriving DecidableEq, Repr

namespace Roster

/-- The roster with a device, and the number of the device. -/
def enroll (roster : Roster) (device : String) : Roster × Nat :=
  match roster.names.idxOf? device with
  | some number => (roster, number)
  | none => ({ roster with names := roster.names ++ [device] }, roster.names.length)

/-- The roster with all devices of a list. -/
def enrollAll (roster : Roster) (devices : List String) : Roster :=
  devices.foldl (fun roster device => (roster.enroll device).1) roster

/-- The roster of an inventory. -/
def ofInventory (inventory : List String) : Roster :=
  let roster := enrollAll ⟨[], 0⟩ inventory
  { roster with inventorySize := roster.names.length }

/-- The name of a device. -/
def name (roster : Roster) (number : Nat) : Except Fault String :=
  Checked.row roster.names number

/-- The number of devices. -/
def size (roster : Roster) : Nat :=
  roster.names.length

/-- The devices of the inventory that may receive work, in its order. -/
def candidates (roster : Roster) (pinned : PinnedPattern) : List Nat :=
  ((roster.names.take roster.inventorySize).zipIdx.filter fun (name, _) =>
    !pinned.isPinned name).map Prod.snd

end Roster

end DevicePlacement

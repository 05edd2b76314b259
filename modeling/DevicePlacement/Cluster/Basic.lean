/-!
# Clusters and pinned devices

A cluster is the inventory of devices that a graph may be placed on. Its order
matters: candidates are tried in this order, and the first device that is not
pinned is the default target of work that is moved.

Devices whose name contains the *pinned pattern*, such as `CPU`, never receive
work from elsewhere.
-/

namespace DevicePlacement

/-- What is known about a device; for information only. -/
structure DeviceProperties where
  deviceType : String
  frequencyMhz : UInt64
  numCores : UInt32
  memorySize : UInt64
  bandwidthKbps : UInt64
  deriving DecidableEq, Repr

/-- A device of a cluster. -/
structure Device where
  name : String
  properties : Option DeviceProperties
  deriving DecidableEq, Repr

/-- The devices that a graph may be placed on, in order. -/
structure Cluster where
  devices : List Device
  deriving DecidableEq, Repr

namespace Cluster

/-- The cluster of devices of which only the names are known. -/
def ofNames (names : List String) : Cluster :=
  ⟨names.map fun name => ⟨name, none⟩⟩

/-- The cluster with one more device. -/
def withDevice (cluster : Cluster) (name : String) (properties : DeviceProperties) : Cluster :=
  ⟨cluster.devices ++ [⟨name, some properties⟩]⟩

/-- The names of the devices, in order. -/
def names (cluster : Cluster) : List String :=
  cluster.devices.map Device.name

/-- The properties of the first device of a name, if they are known. -/
def properties? (cluster : Cluster) (name : String) : Option DeviceProperties :=
  (cluster.devices.find? fun device => device.name = name).bind Device.properties

end Cluster

/-- The pattern that tells which devices are pinned. -/
structure PinnedPattern where
  text : String
  deriving DecidableEq, Repr

namespace PinnedPattern

/-- Whether `part` occurs somewhere in a text. -/
def occurs (part : List Char) : List Char → Bool
  | [] => part.isEmpty
  | c :: rest => part.isPrefixOf (c :: rest) || occurs part rest

/-- Whether a device is pinned. The empty pattern pins none. -/
def isPinned (pattern : PinnedPattern) (device : String) : Bool :=
  pattern.text ≠ "" && occurs pattern.text.toList device.toList

/-- The first device of an inventory that is not pinned. -/
def defaultDevice? (pattern : PinnedPattern) (devices : List String) : Option String :=
  devices.find? fun device => !pattern.isPinned device

/-- The pattern that is used when none is given. -/
def standard : PinnedPattern := ⟨"CPU"⟩

end PinnedPattern

end DevicePlacement

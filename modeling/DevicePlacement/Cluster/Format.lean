import DevicePlacement.Cluster.Basic
import DevicePlacement.Json.Basic
import DevicePlacement.Json.Fields

/-!
# Cluster files

A cluster file is a JSON object with the list of `devices`. A device has a
`name` and may have `properties`, of which all but the device type default to
zero.
-/

namespace DevicePlacement

open Json (Fields Reader ReadError)

namespace DeviceProperties

/-- The properties as a JSON object. -/
def toJson (properties : DeviceProperties) : Json :=
  .object [("device_type", .string properties.deviceType),
    ("frequency_mhz", .int properties.frequencyMhz.toNat),
    ("num_cores", .int properties.numCores.toNat),
    ("memory_size", .int properties.memorySize.toNat),
    ("bandwidth_kbps", .int properties.bandwidthKbps.toNat)]

/-- The fields of the properties. -/
def fields : Fields DeviceProperties :=
  DeviceProperties.mk <$> Fields.required "device_type" Reader.text
    <*> Fields.withDefault "frequency_mhz" 0 Reader.uint64
    <*> Fields.withDefault "num_cores" 0 Reader.uint32
    <*> Fields.withDefault "memory_size" 0 Reader.uint64
    <*> Fields.withDefault "bandwidth_kbps" 0 Reader.uint64

end DeviceProperties

namespace Device

/-- A device as a JSON object. -/
def toJson (device : Device) : Json :=
  .object (("name", .string device.name) ::
    (device.properties.map fun properties => ("properties", properties.toJson)).toList)

/-- The fields of a device. -/
def fields : Fields Device :=
  Device.mk <$> Fields.required "name" Reader.text
    <*> Fields.withDefault "properties" none (Reader.optional DeviceProperties.fields.read)

end Device

namespace Cluster

/-- A cluster as a JSON object. -/
def toJson (cluster : Cluster) : Json :=
  .object [("devices", .array (cluster.devices.map Device.toJson))]

/-- The fields of a cluster. -/
def fields : Fields Cluster :=
  Cluster.mk <$> Fields.required "devices" (Reader.list Device.fields.read)

/-- The cluster of a cluster file. -/
def ofText (text : String) : Except ReadError Cluster :=
  Json.readText fields.read text

end Cluster

end DevicePlacement

import DevicePlacement.Json.Basic
import DevicePlacement.Json.Fields
import DevicePlacement.Knobs.Basic

/-!
# Knob files

A knob file is a JSON object. Every knob may be missing from it and then has its
standard value.
-/

namespace DevicePlacement

open Json (Fields Reader ReadError)

/-- The strategies by name. -/
def Strategy.choices : List (String × Strategy) :=
  [(localSearch.name, localSearch), (defaultDevice.name, defaultDevice)]

/-- The policies by name. -/
def PinnedPolicy.choices : List (String × PinnedPolicy) :=
  [(strict.name, strict), (lenient.name, lenient)]

namespace Knobs

/-- The knobs as a JSON object. -/
def toJson (knobs : Knobs) : Json :=
  .object [("compute_margin", .float knobs.computeMargin),
    ("min_execution_time", .int knobs.minExecutionTime.toInt),
    ("strategy", .string knobs.strategy.name),
    ("pinned_device_pattern", .string knobs.pinnedDevicePattern),
    ("pinned_policy", .string knobs.pinnedPolicy.name),
    ("relocatable_ops", .array (knobs.relocatableOps.map .string))]

/-- The text of a knob file. -/
def toText (knobs : Knobs) : String :=
  knobs.toJson.text

/-- The fields of the knobs. -/
def fields : Fields Knobs :=
  Knobs.mk <$> Fields.withDefault "compute_margin" standard.computeMargin Reader.float
    <*> Fields.withDefault "min_execution_time" standard.minExecutionTime Reader.int64
    <*> Fields.withDefault "strategy" standard.strategy (Reader.choice Strategy.choices)
    <*> Fields.withDefault "pinned_device_pattern" standard.pinnedDevicePattern Reader.text
    <*> Fields.withDefault "pinned_policy" standard.pinnedPolicy
      (Reader.choice PinnedPolicy.choices)
    <*> Fields.withDefault "relocatable_ops" standard.relocatableOps (Reader.list Reader.text)

/-- The knobs of a knob file. -/
def ofText (text : String) : Except ReadError Knobs :=
  Json.readText fields.read text

end Knobs

end DevicePlacement

import DevicePlacement.Json.Basic
import DevicePlacement.Json.Fields
import DevicePlacement.Report.Basic

/-!
# Report files

A report file is a JSON object. The outcome has no object of its own: its name
is the member `outcome`, and its figures are members beside it. Members that say
nothing are left out, the identifier and the external traffic if they are
absent, the loads and the moves if there are none.

As the figures of the outcome are known only with its name, all members that are
no fields of the report are kept until the end of the object is read, and have to
be readable. A report cannot be read from an array.
-/

namespace DevicePlacement

open Json (Fields Reader Fragment Key ReadError)

namespace MoveRecord

/-- A move as a JSON object. -/
def toJson (move : MoveRecord) : Json :=
  .object [("node", .string move.node), ("from", .string move.source),
    ("to", .string move.target), ("delta_before", .int move.deltaBefore.toInt),
    ("delta_after", .int move.deltaAfter.toInt), ("origin_share", .float move.originShare),
    ("destination_share", .float move.destinationShare)]

/-- The fields of a move. -/
def fields : Fields MoveRecord :=
  MoveRecord.mk <$> Fields.required "node" Reader.text <*> Fields.required "from" Reader.text
    <*> Fields.required "to" Reader.text <*> Fields.required "delta_before" Reader.int64
    <*> Fields.required "delta_after" Reader.int64
    <*> Fields.required "origin_share" Reader.float
    <*> Fields.required "destination_share" Reader.float

end MoveRecord

namespace DeviceLoad

/-- The load of a device as a JSON object. -/
def toJson (load : DeviceLoad) : Json :=
  .object [("device", .string load.device), ("pinned", .bool load.pinned),
    ("load_before", .int load.loadBefore.toInt), ("load_after", .int load.loadAfter.toInt),
    ("share_after", .float load.shareAfter)]

/-- The fields of the load of a device. -/
def fields : Fields DeviceLoad :=
  DeviceLoad.mk <$> Fields.required "device" Reader.text <*> Fields.required "pinned" Reader.flag
    <*> Fields.required "load_before" Reader.int64 <*> Fields.required "load_after" Reader.int64
    <*> Fields.required "share_after" Reader.float

end DeviceLoad

namespace Outcome

/-- The members of the outcome. -/
def members : Outcome → List (String × Json)
  | skipped executionTime threshold =>
    [("outcome", .string "skipped"), ("execution_time", .int executionTime.toInt),
      ("threshold", .int threshold.toInt)]
  | localSearch moved => [("outcome", .string "local-search"), ("moved", .int moved)]
  | defaultDevice device moved =>
    [("outcome", .string "default-device"), ("device", .string device), ("moved", .int moved)]
  | noTargetDevice => [("outcome", .string "no-target-device")]

/-- The outcomes by name, each with its fields. -/
def choices : List (String × Fields Outcome) :=
  [("skipped", skipped <$> Fields.required "execution_time" Reader.int64
      <*> Fields.required "threshold" Reader.int64),
    ("local-search", localSearch <$> Fields.required "moved" Reader.count),
    ("default-device", defaultDevice <$> Fields.required "device" Reader.text
      <*> Fields.required "moved" Reader.count),
    ("no-target-device", Fields.none noTargetDevice)]

/-- The fields of the outcome that a fragment names, or numbers from zero on. -/
def pick : Reader (Fields Outcome)
  | .string name => Reader.pick choices name
  | .int number =>
    if number < 0 then .error .invalidType
    else
      match choices[number.toNat]? with
      | some (_, fields) => .ok fields
      | none => .error .invalidValue
  | fragment => .error (Reader.mismatch fragment)

/-- The fields of the outcome that is named by a list of members, which may name
    one only. -/
def find : Option (Fields Outcome) → List (Key × Fragment) →
    Except ReadError (Option (Fields Outcome))
  | found, [] => .ok found
  | found, (key, value) :: rest =>
    if key = .name "outcome" then
      if found.isSome then .error (.duplicateField "outcome")
      else do find (some (← pick value)) rest
    else
      find found rest

/-- The outcome among the members of a report that are no fields of it. -/
def ofMembers (members : List (Key × Fragment)) : Except ReadError Outcome := do
  match ← find none members with
  | some fields =>
    fields.readMembers Reader.skip
      (members.filter fun member => member.1 ≠ .name "outcome") true
  | none => .error (.missingField "outcome")

end Outcome

namespace Report

/-- A report as a JSON object. -/
def toJson (report : Report) : Json :=
  .object ([("optimizer", Json.string report.optimizer)]
    ++ (report.graphId.map fun id => ("graph_id", Json.string id)).toList
    ++ report.outcome.members
    ++ [("predicted_execution_time", .int report.predictedExecutionTime.toInt),
      ("eligible_nodes", .int report.eligibleNodes),
      ("total_compute_cost", .int report.totalComputeCost.toInt)]
    ++ (report.externalCostBefore.map fun cost =>
      ("external_cost_before", Json.int cost.toInt)).toList
    ++ (report.externalCostAfter.map fun cost =>
      ("external_cost_after", Json.int cost.toInt)).toList
    ++ (if report.deviceLoads.isEmpty then []
      else [("device_loads", .array (report.deviceLoads.map DeviceLoad.toJson))])
    ++ (if report.moves.isEmpty then []
      else [("moves", .array (report.moves.map MoveRecord.toJson))]))

/-- The text of a report file. -/
def toText (report : Report) : String :=
  report.toJson.text

/-- The fields of a report, which make it once the outcome is known. -/
def fields : Fields (Outcome → Report) :=
  (fun optimizer graphId time eligible compute before after loads moves outcome =>
      ⟨optimizer, graphId, outcome, time, eligible, compute, before, after, loads, moves⟩)
    <$> Fields.required "optimizer" Reader.text
    <*> Fields.withDefault "graph_id" none (Reader.optional Reader.text)
    <*> Fields.required "predicted_execution_time" Reader.int64
    <*> Fields.required "eligible_nodes" Reader.count
    <*> Fields.required "total_compute_cost" Reader.int64
    <*> Fields.withDefault "external_cost_before" none (Reader.optional Reader.int64)
    <*> Fields.withDefault "external_cost_after" none (Reader.optional Reader.int64)
    <*> Fields.withDefault "device_loads" [] (Reader.list DeviceLoad.fields.read)
    <*> Fields.withDefault "moves" [] (Reader.list MoveRecord.fields.read)

/-- The number of levels that a value within a report may nest: 127 in a whole
    file, less that of the report. -/
def depth : Nat := 126

/-- Reads a report. -/
def reader : Reader Report
  | .object members closed => do
    let make ← fields.readMembers (fun value => do let _ ← Reader.keep depth value) members closed
    let others := members.filter fun member =>
      match member.1 with
      | .name name => !fields.names.contains name
      | _ => false
    return make (← Outcome.ofMembers others)
  | fragment => .error (Reader.mismatch fragment)

/-- The report of a report file. -/
def ofText (text : String) : Except ReadError Report :=
  Json.readText reader text

end Report

end DevicePlacement

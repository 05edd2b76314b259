import DevicePlacement.Cost.Estimator
import DevicePlacement.Json.Basic

/-!
# Measured costs

A `CostTable` answers from a table of costs by node name. Nodes that are not in
the table get no entry in the estimate; those that are count once for every node
of their name.

The table can be saved to a cost file and loaded again. A table that was just
loaded is not prepared for any graph, whatever it was when it was saved.
-/

namespace DevicePlacement

open Json (Fields Reader ReadError)

namespace NodeCost

/-- A cost as a JSON object. -/
def toJson (cost : NodeCost) : Json :=
  .object [("compute_cost", .int cost.computeCost.toInt),
    ("max_memory_size", .int cost.maxMemorySize.toInt),
    ("memory_time", .int cost.memoryTime.toInt),
    ("compute_time", .int cost.computeTime.toInt)]

/-- The fields of a cost. -/
def fields : Fields NodeCost :=
  NodeCost.mk <$> Fields.required "compute_cost" Reader.int64
    <*> Fields.required "max_memory_size" Reader.int64
    <*> Fields.withDefault "memory_time" 0 Reader.int64
    <*> Fields.withDefault "compute_time" 0 Reader.int64

end NodeCost

namespace CostSummary

/-- The fields of the times of a graph. -/
def fields : Fields CostSummary :=
  CostSummary.mk <$> Fields.required "execution_time" Reader.int64
    <*> Fields.required "compute_time" Reader.int64
    <*> Fields.required "memory_time" Reader.int64

end CostSummary

namespace Estimate

/-- The fields of an estimate. -/
def fields : Fields Estimate :=
  Estimate.mk <$> Fields.required "nodes" (Reader.names NodeCost.fields.read)
    <*> Fields.required "summary" CostSummary.fields.read

/-- The estimate of a text. -/
def ofText (text : String) : Except ReadError Estimate :=
  Json.readText fields.read text

end Estimate

/-- An estimator that answers from a table. -/
structure CostTable where
  /-- The costs by node name. -/
  nodes : NameMap NodeCost
  /-- The key of the graph it is prepared for. -/
  preparedFor : Option String

namespace CostTable

/-- The table without entries. -/
def empty : CostTable := ⟨NameMap.empty, none⟩

/-- The table with the cost of a node set. -/
def insert (table : CostTable) (name : String) (cost : NodeCost) : CostTable :=
  { table with nodes := table.nodes.insert name cost }

/-- The cost of a node. -/
def cost? (table : CostTable) (name : String) : Option NodeCost :=
  table.nodes.find? name

/-- The table prepared for a graph. -/
def prepare (table : CostTable) (graph : Graph) : CostTable :=
  { table with preparedFor := some graph.key }

/-- The costs of the nodes that are in the table. -/
def price (table : CostTable) (nodes : List Node) : Except Fault Estimate :=
  nodes.foldlM (fun estimate node =>
    match table.cost? node.name with
    | some cost => estimate.add node.name cost
    | none => .ok estimate) Estimate.empty

/-- The costs of the graph for which the table was prepared. -/
def predict (table : CostTable) (graph : Graph) : Except Failure Estimate :=
  match table.preparedFor with
  | none => .error (.cost .notPrepared)
  | some expected =>
    if expected = graph.key then (table.price graph.nodes).mapError .fault
    else .error (.cost (.unknownGraph expected graph.key))

instance : Estimator CostTable where
  name _ := "table"
  prepare table graph := .ok (table.prepare graph)
  predict := predict

/-- The table as a JSON object. -/
def toJson (table : CostTable) : Json :=
  .object [("nodes", .object (table.nodes.entries.map fun entry => (entry.1, entry.2.toJson)))]

/-- The text of a cost file. -/
def toText (table : CostTable) : String :=
  table.toJson.text

/-- The fields of a cost file. -/
def fields : Fields CostTable :=
  (CostTable.mk · none) <$> Fields.required "nodes" (Reader.names NodeCost.fields.read)

/-- The table of the text of a cost file. -/
def ofText (text : String) : Except ReadError CostTable :=
  Json.readText fields.read text

/-- The table of a cost file that has been opened. -/
def load (file : Except FileError String) : Except CostError CostTable :=
  match file with
  | .error reason => .error (.unreadableTable reason)
  | .ok text => (ofText text).mapError .invalidTable

end CostTable

end DevicePlacement

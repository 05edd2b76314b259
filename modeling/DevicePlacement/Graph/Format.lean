import DevicePlacement.Graph.Basic
import DevicePlacement.Json.Basic
import DevicePlacement.Json.Fields

/-!
# Graph files

A graph file is a JSON object with an `id`, which may be missing, `versions`,
which default to zero, and the `nodes`. An input of a node is an object that
says with its `kind` whether it is a `data` input, which has a `port`, or a
`control` input.

* `Graph.toJson`, `Graph.toText`: writing;
* `Graph.reader`, `Graph.ofText`: reading.
-/

namespace DevicePlacement

open Json (Fields Reader Fragment Key ReadError)

namespace InputRef

/-- An input as a JSON object. -/
def toJson : InputRef → Json
  | data producer port =>
    .object [("kind", .string "data"), ("producer", .string producer), ("port", .int port.toNat)]
  | control producer => .object [("kind", .string "control"), ("producer", .string producer)]

/-- The kinds of inputs: whether data flows. -/
def kinds : List (String × Bool) := [("data", true), ("control", false)]

/-- The fields of an input of a kind, besides the kind. -/
def fields (isData : Bool) : Fields InputRef :=
  if isData then
    data <$> Fields.required "producer" Reader.text <*> Fields.required "port" Reader.uint64
  else
    control <$> Fields.required "producer" Reader.text

/-- The number of levels that a value within an input may nest: 127 in a whole
    file, less those of the graph, its nodes, the node, its inputs and the input. -/
def depth : Nat := 122

/-- The kind and the other members of an input. All members have to be readable,
    as which of them matter is known only with the kind. -/
def splitMembers : Option Bool → List (Key × Fragment) →
    Except ReadError (Option Bool × List (Key × Fragment))
  | kind, [] => .ok (kind, [])
  | kind, (.name name, value) :: rest =>
    if name = "kind" then
      if kind.isSome then
        .error (.duplicateField "kind")
      else do
        let kind ← Reader.variant kinds value
        splitMembers (some kind) rest
    else do
      let value ← Reader.keep depth value
      let (kind, others) ← splitMembers kind rest
      return (kind, (.name name, value) :: others)
  | _, _ :: _ => .error .malformed

/-- Reads an input from an object with a `kind`, or from an array that begins
    with the kind. -/
def reader : Reader InputRef
  | .object members closed => do
    let (kind, others) ← splitMembers none members
    Reader.finished closed
    match kind with
    | some isData => (fields isData).read (.object others true)
    | none => .error (.missingField "kind")
  | .array [] closed => do
    Reader.finished closed
    .error (.missingField "kind")
  | .array (first :: items) closed => do
    let isData ← Reader.variant kinds first
    let items ← items.mapM (Reader.keep depth)
    Reader.finished closed
    (fields isData).readItems .invalidLength items true
  | fragment => .error (Reader.mismatch fragment)

end InputRef

namespace Node

/-- A node as a JSON object. -/
def toJson (node : Node) : Json :=
  .object [("name", .string node.name), ("op", .string node.op), ("device", .string node.device),
    ("inputs", .array (node.inputs.map InputRef.toJson))]

/-- The fields of a node. -/
def fields : Fields Node :=
  Node.mk <$> Fields.required "name" Reader.text <*> Fields.required "op" Reader.text
    <*> Fields.withDefault "device" "" Reader.text
    <*> Fields.withDefault "inputs" [] (Reader.list InputRef.reader)

end Node

namespace Versions

/-- The versions as a JSON object. -/
def toJson (versions : Versions) : Json :=
  .object [("producer", .int versions.producer.toInt),
    ("min_consumer", .int versions.minConsumer.toInt)]

/-- The fields of the versions. -/
def fields : Fields Versions :=
  Versions.mk <$> Fields.required "producer" Reader.int32
    <*> Fields.required "min_consumer" Reader.int32

end Versions

namespace Graph

/-- A graph as a JSON object. -/
def toJson (graph : Graph) : Json :=
  .object ((graph.id.map fun id => ("id", Json.string id)).toList ++
    [("versions", graph.versions.toJson), ("nodes", .array (graph.nodes.map Node.toJson))])

/-- The text of a graph file. -/
def toText (graph : Graph) : String :=
  graph.toJson.text

/-- The fields of a graph. -/
def fields : Fields Graph :=
  Graph.mk <$> Fields.withDefault "id" none (Reader.optional Reader.text)
    <*> Fields.withDefault "versions" Versions.none Versions.fields.read
    <*> Fields.required "nodes" (Reader.list Node.fields.read)

/-- The graph of a graph file. -/
def ofText (text : String) : Except ReadError Graph :=
  Json.readText fields.read text

end Graph

end DevicePlacement

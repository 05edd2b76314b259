import DevicePlacement.Graph.Format
import DevicePlacement.Proofs.Json.Fields

/-!
# Graph files read back

A graph is put together from records that are read back one by one, from the inside out:
the inputs of a node, whose kind is told from the other members before these are read
(`InputRef.reader_toJson`), the nodes (`Node.read_toJson`), the versions
(`Versions.read_toJson`) and the graph itself (`Graph.read_toJson`), with or without an
identifier. All numbers in a graph file fit 64 bits, so nothing is lost between the document
and its text (`Graph.toJson_exact`), and the text of a graph reads back as the graph
(`Graph.ofText_toText`).
-/

namespace DevicePlacement

open Json (Exact Fields Fragment Reader)

/-! ## Inputs -/

namespace InputRef

/-- The members of an input after its kind, as they are written. -/
def others : InputRef → List (String × Json)
  | data producer port => [("producer", .string producer), ("port", .int port.toNat)]
  | control producer => [("producer", .string producer)]

/-- The kind of an input comes first and tells which members follow. -/
theorem kind_of_toJson (input : InputRef) : ∃ kind, input.toJson =
      .object (("kind", .string kind) :: input.others) ∧
    Reader.variant kinds (.string kind) = .ok !input.isControl := by
  cases input with
  | data producer port => exact ⟨"data", rfl, rfl⟩
  | control producer => exact ⟨"control", rfl, rfl⟩

/-- The members after the kind are kept as they are, as none of them nests. -/
theorem splitMembers_others (input : InputRef) (kind : Option Bool) :
    splitMembers kind (Json.memberFragments input.others) =
      .ok (kind, Json.memberFragments input.others) := by
  cases input with
  | data producer port => rfl
  | control producer => rfl

/-- The members after the kind make up the input. -/
theorem reads_others (input : InputRef) :
    (fields !input.isControl).Reads (Fields.parsed input.others) input := by
  cases input with
  | data producer port =>
    have hport : (Fields.required "port" Reader.uint64).Reads [("port", .int port.toNat)] port :=
      .required (Reader.uint64_toNat port)
    exact ((Fields.Reads.text "producer" producer).map data).seq hport (by decide)
  | control producer => exact (Fields.Reads.text "producer" producer).map control

/-- An input is read back from its object. -/
theorem reader_toJson (input : InputRef) : reader input.toJson.fragment = .ok input := by
  obtain ⟨kind, hjson, hkind⟩ := kind_of_toJson input
  have hread := (reads_others input).read_fragment
  have hsplit : splitMembers none
      ((.name "kind", .string kind) :: Json.memberFragments input.others) =
      .ok (some !input.isControl, Json.memberFragments input.others) := by
    rw [splitMembers, if_pos rfl, hkind]
    exact splitMembers_others input _
  rw [hjson, Json.fragment, Json.memberFragments, Json.fragment, reader, hsplit]
  exact hread

/-- An input holds texts and a port that fits 64 bits. -/
theorem toJson_exact (input : InputRef) : input.toJson.Exact := by
  cases input with
  | data producer port =>
    have hport := Json.exact_nat port.toNat_lt_size
    exact .object (by simp [Exact.string, hport])
  | control producer => exact .object (by simp [Exact.string])

end InputRef

/-! ## Nodes and versions -/

namespace Node

/-- A node is read back, with its inputs in their order. -/
theorem read_toJson (node : Node) : fields.read node.toJson.fragment = .ok node := by
  have hdevice : (Fields.withDefault "device" "" Reader.text).Reads
      [("device", .string node.device)] node.device := .withDefault "" rfl
  have hinputs : (Fields.withDefault "inputs" [] (Reader.list InputRef.reader)).Reads
      [("inputs", (Json.array (node.inputs.map InputRef.toJson)).fragment)] node.inputs :=
    .withDefault [] (Reader.list_map InputRef.reader_toJson node.inputs)
  have hnames := ((Fields.Reads.text "name" node.name).map Node.mk).seq
    (Fields.Reads.text "op" node.op) (by decide)
  exact ((hnames.seq hdevice (by decide)).seq hinputs (by decide)).read_fragment

/-- A node holds texts and inputs. -/
theorem toJson_exact (node : Node) : node.toJson.Exact := by
  have hinputs : (Json.array (node.inputs.map InputRef.toJson)).Exact :=
    .array (List.forall_mem_map.2 fun input _ => input.toJson_exact)
  exact .object (by simp [Exact.string, hinputs])

end Node

namespace Versions

/-- The two versions are read back. -/
theorem read_toJson (versions : Versions) :
    fields.read versions.toJson.fragment = .ok versions := by
  have hproducer : (Fields.required "producer" Reader.int32).Reads
      [("producer", .int versions.producer.toInt)] versions.producer :=
    .required (Reader.int32_toInt versions.producer)
  have hconsumer : (Fields.required "min_consumer" Reader.int32).Reads
      [("min_consumer", .int versions.minConsumer.toInt)] versions.minConsumer :=
    .required (Reader.int32_toInt versions.minConsumer)
  exact ((hproducer.map Versions.mk).seq hconsumer (by decide)).read_fragment

/-- Versions fit 32 bits and so 64. -/
theorem toJson_exact (versions : Versions) : versions.toJson.Exact :=
  .object (by simp [Json.exact_int32])

end Versions

/-! ## Graphs -/

namespace Graph

/-- A graph is read back, whether it has an identifier or not. -/
theorem read_toJson (graph : Graph) : fields.read graph.toJson.fragment = .ok graph := by
  have hid : (Fields.withDefault "id" none (Reader.optional Reader.text)).Reads
      (Fields.parsed (graph.id.map fun id => ("id", Json.string id)).toList) graph.id :=
    .optional "id" (fun _ => rfl) graph.id
  have hversions : (Fields.withDefault "versions" Versions.none Versions.fields.read).Reads
      [("versions", graph.versions.toJson.fragment)] graph.versions :=
    .withDefault Versions.none graph.versions.read_toJson
  have hnodes : (Fields.required "nodes" (Reader.list Node.fields.read)).Reads
      [("nodes", (Json.array (graph.nodes.map Node.toJson)).fragment)] graph.nodes :=
    .required (Reader.list_map Node.read_toJson graph.nodes)
  have hreads := ((hid.map Graph.mk).seq hversions (by decide)).seq hnodes (by decide)
  refine Fields.Reads.read_fragment ?_
  rw [List.append_assoc] at hreads
  rw [Fields.parsed_append]
  exact hreads

/-- A graph has no number in it that is rounded when it is read. -/
theorem toJson_exact (graph : Graph) : graph.toJson.Exact := by
  have hnodes : (Json.array (graph.nodes.map Node.toJson)).Exact :=
    .array (List.forall_mem_map.2 fun node _ => node.toJson_exact)
  cases hid : graph.id <;>
    exact .object (by simp [hid, Exact.string, Versions.toJson_exact, hnodes])

/-- The text of a graph reads back as the graph, whatever its names hold. -/
theorem ofText_toText (graph : Graph) : ofText graph.toText = .ok graph :=
  Json.readText_text graph.toJson_exact graph.read_toJson

end Graph

end DevicePlacement

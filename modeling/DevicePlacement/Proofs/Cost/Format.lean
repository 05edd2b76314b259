import DevicePlacement.Cost.Table
import DevicePlacement.Proofs.Json.Fields

/-!
# Cost files read back

Nothing is said about the order in which the entries of a table are written. Whatever it is,
the text is read back as a table with the same entries (`CostTable.load_of_savedAs`), as no
name has two of them. The table that is read is not prepared for any graph.
-/

namespace DevicePlacement

open Json (Exact Fields Reader)

namespace NodeCost

/-- The four numbers of a cost are written and read under the same names. -/
theorem read_toJson (cost : NodeCost) : fields.read cost.toJson.fragment = .ok cost := by
  have hcompute := Fields.Reads.int64 "compute_cost" cost.computeCost
  have hsize := Fields.Reads.int64 "max_memory_size" cost.maxMemorySize
  have hmemory : (Fields.withDefault "memory_time" 0 Reader.int64).Reads
      [("memory_time", .int cost.memoryTime.toInt)] cost.memoryTime :=
    .withDefault 0 (Reader.int64_toInt _)
  have htime : (Fields.withDefault "compute_time" 0 Reader.int64).Reads
      [("compute_time", .int cost.computeTime.toInt)] cost.computeTime :=
    .withDefault 0 (Reader.int64_toInt _)
  have hcosts := (hcompute.map NodeCost.mk).seq hsize (by decide)
  exact ((hcosts.seq hmemory (by decide)).seq htime (by decide)).read_fragment

/-- A cost is written with whole numbers only, which are read back as they are. -/
theorem toJson_exact (cost : NodeCost) : cost.toJson.Exact :=
  .object (by simp [Json.exact_int64])

end NodeCost

namespace CostTable

/-- A cost file with its entries in the given order. -/
def document (entries : List (String × NodeCost)) : Json :=
  .object [("nodes", .object (entries.map fun entry => (entry.1, entry.2.toJson)))]

/-- A text that the table may be saved as: its entries are written in any order. -/
def SavedAs (table : CostTable) (text : String) : Prop :=
  ∃ entries, entries.Perm table.nodes.entries ∧ text = (document entries).text

/-- The writer puts the entries in the order of the table, which is one of the orders that are
    allowed. -/
theorem savedAs_toText (table : CostTable) : table.SavedAs table.toText :=
  ⟨table.nodes.entries, .refl _, rfl⟩

/-- The entries of a file are read into a table one by one, in their order. -/
theorem read_document (entries : List (String × NodeCost)) :
    fields.read (document entries).fragment = .ok ⟨.ofList entries, none⟩ := by
  have hnodes : (Fields.required "nodes" (Reader.names NodeCost.fields.read)).Reads
      [("nodes", (Json.object (entries.map fun entry => (entry.1, entry.2.toJson))).fragment)]
      (.ofList entries) :=
    .required (Reader.names_map NodeCost.read_toJson entries)
  exact (hnodes.map (CostTable.mk · none)).read_fragment

/-- No number in a cost file is rounded when it is read. -/
theorem document_exact (entries : List (String × NodeCost)) : (document entries).Exact := by
  have hnodes : (Json.object (entries.map fun entry => (entry.1, entry.2.toJson))).Exact :=
    .object (List.forall_mem_map.2 fun entry _ => entry.2.toJson_exact)
  exact .object (by simp [hnodes])

/-- A table that was saved is loaded with the costs it had, and unprepared. -/
theorem load_of_savedAs {table : CostTable} {text : String} (h : table.SavedAs text) :
    ∃ loaded, load (.ok text) = .ok loaded ∧ (∀ name, loaded.cost? name = table.cost? name) ∧
      loaded.preparedFor = none := by
  obtain ⟨entries, hentries, rfl⟩ := h
  have htext : ofText (document entries).text = .ok ⟨.ofList entries, none⟩ :=
    Json.readText_text (document_exact entries) (read_document entries)
  refine ⟨_, by rw [load, htext]; rfl, fun name => ?_, rfl⟩
  have hnodup : (entries.map Prod.fst).Nodup :=
    (hentries.map Prod.fst).nodup_iff.2 table.nodes.nodup
  rw [cost?, cost?, NameMap.find?_ofList_of_nodup hnodup,
    NameMap.lookup_of_perm table.nodes.nodup hentries, NameMap.find?]

/-- Whatever is loaded from its file has the costs of the table that was saved. -/
theorem SavedAs.of_load {table loaded : CostTable} {text : String} (h : table.SavedAs text)
    (hloaded : load (.ok text) = .ok loaded) :
    (∀ name, loaded.cost? name = table.cost? name) ∧ loaded.preparedFor = none := by
  obtain ⟨other, hother, hkept⟩ := load_of_savedAs h
  cases hloaded.symm.trans hother
  exact hkept

end CostTable

end DevicePlacement

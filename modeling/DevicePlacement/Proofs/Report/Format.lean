import DevicePlacement.Proofs.Json.Double
import DevicePlacement.Report.Format

/-!
# Report files read back

The members of a report and those of its outcome stand side by side in one object. They are
told apart by their names: no member of an outcome is a field of the report, and of those that
are left none but the name of the outcome is called `outcome`, so that the outcome is found
among them (`Outcome.ofMembers_members`) and the fields are read as if it was not there
(`Report.reader_toJson`). With the shares of devices being read from their own texts, the text
of a report reads back as the report (`Report.ofText_of_readsBack`).
-/

namespace DevicePlacement

open Checked (bind_eq_ok)
open Json (Exact Fields Fragment Reader ReadsBack)
open Json.Fields (named parsed)

/-! ## Moves and loads -/

namespace MoveRecord

/-- A move is read back with the two deltas and the two shares. -/
theorem read_toJson (move : MoveRecord) : fields.read move.toJson.fragment = .ok move := by
  have hnode := (Fields.Reads.text "node" move.node).map MoveRecord.mk
  have hdevices := (hnode.seq (.text "from" move.source) (by decide)).seq
    (.text "to" move.target) (by decide)
  have hdeltas := (hdevices.seq (.int64 "delta_before" move.deltaBefore) (by decide)).seq
    (.int64 "delta_after" move.deltaAfter) (by decide)
  have hshares := (hdeltas.seq (.float "origin_share" move.originShare) (by decide)).seq
    (.float "destination_share" move.destinationShare) (by decide)
  exact hshares.read_fragment

/-- The shares that a move tells. -/
def shares (move : MoveRecord) : List Float :=
  [move.originShare, move.destinationShare]

/-- Its shares are the only doubles in it. -/
theorem toJson_exact {move : MoveRecord} (h : ∀ share ∈ move.shares, ReadsBack share) :
    move.toJson.Exact := by
  have horigin : (Json.float move.originShare).Exact := (h _ (by simp [shares])).exact
  have hdestination : (Json.float move.destinationShare).Exact := (h _ (by simp [shares])).exact
  exact .object (by simp [Exact.string, Json.exact_int64, horigin, hdestination])

end MoveRecord

namespace DeviceLoad

/-- A row of loads is read back. -/
theorem read_toJson (load : DeviceLoad) : fields.read load.toJson.fragment = .ok load := by
  have hdevice := (Fields.Reads.text "device" load.device).map DeviceLoad.mk
  have hpinned := hdevice.seq (.flag "pinned" load.pinned) (by decide)
  have hloads := (hpinned.seq (.int64 "load_before" load.loadBefore) (by decide)).seq
    (.int64 "load_after" load.loadAfter) (by decide)
  exact (hloads.seq (.float "share_after" load.shareAfter) (by decide)).read_fragment

/-- The share is the only double in a row. -/
theorem toJson_exact {load : DeviceLoad} (h : ReadsBack load.shareAfter) : load.toJson.Exact :=
  .object (by simp [Exact.string, Exact.bool, Json.exact_int64, h.exact])

end DeviceLoad

/-! ## Outcomes -/

namespace Outcome

/-- The members of an outcome after its name. -/
def figures : Outcome → List (String × Json)
  | skipped executionTime threshold =>
    [("execution_time", .int executionTime.toInt), ("threshold", .int threshold.toInt)]
  | localSearch moved => [("moved", .int moved)]
  | defaultDevice device moved => [("device", .string device), ("moved", .int moved)]
  | noTargetDevice => []

variable {outcome : Outcome}

/-- The name of an outcome stands for the fields that its figures are read with. -/
theorem exists_name (h : outcome.moved < UInt64.size) : ∃ name choice,
    outcome.members = ("outcome", .string name) :: outcome.figures ∧
      pick (.string name) = .ok choice ∧ choice.Reads (parsed outcome.figures) outcome := by
  cases outcome with
  | skipped executionTime threshold =>
    have htime := (Fields.Reads.int64 "execution_time" executionTime).map skipped
    exact ⟨"skipped", _, rfl, rfl, htime.seq (.int64 "threshold" threshold) (by decide)⟩
  | localSearch moved =>
    exact ⟨"local-search", _, rfl, rfl, (Fields.Reads.count "moved" h).map localSearch⟩
  | defaultDevice device moved =>
    have hdevice := (Fields.Reads.text "device" device).map defaultDevice
    exact ⟨"default-device", _, rfl, rfl, hdevice.seq (.count "moved" h) (by decide)⟩
  | noTargetDevice => exact ⟨"no-target-device", _, rfl, rfl, .none noTargetDevice⟩

/-- None of the figures is the name of an outcome. -/
theorem find_figures (outcome : Outcome) (found : Option (Fields Outcome)) :
    find found (named (parsed outcome.figures)) = .ok found := by
  cases outcome <;> rfl

/-- Without its name, an outcome is its figures. -/
theorem filter_figures (outcome : Outcome) :
    (named (parsed outcome.members)).filter (fun member => member.1 ≠ .name "outcome") =
      named (parsed outcome.figures) := by
  cases outcome <;> rfl

/-- An outcome is read from its members. -/
theorem ofMembers_members (h : outcome.moved < UInt64.size) :
    ofMembers (named (parsed outcome.members)) = .ok outcome := by
  obtain ⟨name, choice, hmembers, hpick, hreads⟩ := exists_name h
  have hfind : find none (named (parsed outcome.members)) = .ok (some choice) := by
    have hnamed : named (parsed outcome.members) =
        (.name "outcome", .string name) :: named (parsed outcome.figures) := by
      rw [hmembers]
      rfl
    rw [hnamed, find, if_pos rfl, hpick]
    exact find_figures outcome (some choice)
  refine bind_eq_ok.2 ⟨some choice, hfind, ?_⟩
  rw [filter_figures]
  exact hreads.readMembers_self

/-- The figures are kept as they are until it is known how to read them. -/
theorem keep_members (outcome : Outcome) : ∀ member ∈ parsed outcome.members,
    Reader.keep Report.depth member.2 = .ok member.2 := by
  cases outcome <;> simp [parsed, members, Json.fragment, Reader.keep, Fragment.readable]

/-- The number of moved nodes fits if it is a count. -/
theorem members_exact (h : outcome.moved < UInt64.size) :
    ∀ member ∈ outcome.members, member.2.Exact := by
  cases outcome with
  | skipped executionTime threshold => simp [members, Exact.string, Json.exact_int64]
  | localSearch moved =>
    have hmoved : (Json.int moved).Exact := Json.exact_nat h
    simp [members, Exact.string, hmoved]
  | defaultDevice device moved =>
    have hmoved : (Json.int moved).Exact := Json.exact_nat h
    simp [members, Exact.string, hmoved]
  | noTargetDevice => simp [members, Exact.string]

end Outcome

/-! ## Reports -/

namespace Report

/-- The members of a report before those of its outcome. -/
def front (report : Report) : List (String × Json) :=
  ("optimizer", .string report.optimizer) ::
    (report.graphId.map fun id => ("graph_id", Json.string id)).toList

/-- The members of a report after those of its outcome. -/
def back (report : Report) : List (String × Json) :=
  [("predicted_execution_time", .int report.predictedExecutionTime.toInt),
    ("eligible_nodes", .int report.eligibleNodes),
    ("total_compute_cost", .int report.totalComputeCost.toInt)]
  ++ (report.externalCostBefore.map fun cost =>
    ("external_cost_before", Json.int cost.toInt)).toList
  ++ (report.externalCostAfter.map fun cost =>
    ("external_cost_after", Json.int cost.toInt)).toList
  ++ (if report.deviceLoads.isEmpty then []
    else [("device_loads", .array (report.deviceLoads.map DeviceLoad.toJson))])
  ++ (if report.moves.isEmpty then []
    else [("moves", .array (report.moves.map MoveRecord.toJson))])

/-- The members of the outcome stand among those of the report. -/
theorem toJson_eq (report : Report) :
    report.toJson = .object (report.front ++ report.outcome.members ++ report.back) := by
  simp only [toJson, front, back, List.append_assoc, List.cons_append, List.nil_append]

variable {report : Report}

/-- What stands around the outcome makes up the report but for the outcome. -/
theorem reads_fields (h : report.eligibleNodes < UInt64.size) :
    fields.Reads (parsed (report.front ++ report.back)) fun outcome => { report with outcome } := by
  have hid : (Fields.withDefault "graph_id" none (Reader.optional Reader.text)).Reads
      (parsed (report.graphId.map fun id => ("graph_id", Json.string id)).toList) report.graphId :=
    .optional "graph_id" (fun _ => rfl) report.graphId
  have hcost (cost : Int64) :
      Reader.optional Reader.int64 (Json.int cost.toInt).fragment = .ok (some cost) :=
    congrArg (Except.map some) (Reader.int64_toInt cost)
  have hoptional (name : String) (cost? : Option Int64) :
      (Fields.withDefault name none (Reader.optional Reader.int64)).Reads
        (parsed (cost?.map fun cost => (name, Json.int cost.toInt)).toList) cost? :=
    .optional name hcost cost?
  have hloads := Fields.Reads.list "device_loads" DeviceLoad.read_toJson report.deviceLoads
  have hmoves := Fields.Reads.list "moves" MoveRecord.read_toJson report.moves
  have hfront := ((Fields.Reads.text "optimizer" report.optimizer).map
    fun optimizer graphId time eligible compute before after loads moves outcome =>
      (⟨optimizer, graphId, outcome, time, eligible, compute, before, after, loads, moves⟩ :
        Report)).seq hid (by decide)
  have htime := hfront.seq
    (.int64 "predicted_execution_time" report.predictedExecutionTime) (by decide)
  have hfigures := (htime.seq (.count "eligible_nodes" h) (by decide)).seq
    (.int64 "total_compute_cost" report.totalComputeCost) (by decide)
  have hcosts := (hfigures.seq (hoptional "external_cost_before" report.externalCostBefore)
    (by decide)).seq (hoptional "external_cost_after" report.externalCostAfter) (by decide)
  have hreads := (hcosts.seq hloads (by decide)).seq hmoves (by decide)
  -- Both sides have the same members, only grouped differently.
  simp only [List.append_assoc] at hreads
  simp only [front, back, Fields.parsed_append, List.append_assoc]
  exact hreads

/-- No member of an outcome is a field of a report. -/
theorem not_mem_names (outcome : Outcome) :
    ∀ member ∈ parsed outcome.members, member.1 ∉ fields.names := by
  have hnames : fields.names = ["optimizer", "graph_id", "predicted_execution_time",
    "eligible_nodes", "total_compute_cost", "external_cost_before", "external_cost_after",
    "device_loads", "moves"] := rfl
  cases outcome <;> simp [parsed, Outcome.members, hnames]

/-- Every member around the outcome is a field of the report. -/
theorem mem_names (h : report.eligibleNodes < UInt64.size) :
    (∀ member ∈ parsed report.front, member.1 ∈ fields.names) ∧
      ∀ member ∈ parsed report.back, member.1 ∈ fields.names := by
  -- They make up the report, so they are among its fields.
  have hsubset := (reads_fields h).subset
  rw [Fields.parsed_append, List.map_append, List.append_subset] at hsubset
  exact ⟨fun _ hmember => hsubset.1 (List.mem_map_of_mem hmember),
    fun _ hmember => hsubset.2 (List.mem_map_of_mem hmember)⟩

/-- The fields of a report are those members that do not belong to the outcome. -/
theorem own_members (h : report.eligibleNodes < UInt64.size) :
    fields.own (parsed (report.front ++ report.outcome.members ++ report.back)) =
        parsed (report.front ++ report.back) ∧
      fields.others (parsed (report.front ++ report.outcome.members ++ report.back)) =
        parsed report.outcome.members := by
  obtain ⟨hfront, hback⟩ := mem_names h
  rw [Fields.parsed_append, Fields.parsed_append, Fields.parsed_append]
  exact Fields.own_between hfront (not_mem_names _) hback

/-- A report is read in two parts, the outcome by its name and the fields around it. -/
theorem reader_toJson (hnodes : report.eligibleNodes < UInt64.size)
    (hmoved : report.outcome.moved < UInt64.size) :
    reader report.toJson.fragment = .ok report := by
  obtain ⟨hown, hothers⟩ := own_members hnodes
  rw [toJson_eq, Json.fragment, Fields.memberFragments_eq_named, reader]
  refine bind_eq_ok.2 ⟨fun outcome => { report with outcome }, ?_, ?_⟩
  · refine Fields.Reads.readMembers (by rw [hown]; exact reads_fields hnodes) ?_
    -- What is no field belongs to the outcome, whose members do not nest.
    intro member hmember hname
    have hmember : member ∈ parsed report.outcome.members :=
      hothers ▸ List.mem_filter.2 ⟨hmember, decide_eq_true hname⟩
    rw [Outcome.keep_members _ member hmember]
    rfl
  · simp only
    rw [Fields.filter_named (fun _ _ => rfl), hothers, Outcome.ofMembers_members hmoved]
    rfl

/-- The shares that a report tells, of the devices and after each move. -/
def shares (report : Report) : List Float :=
  report.deviceLoads.map DeviceLoad.shareAfter ++ report.moves.flatMap MoveRecord.shares

/-- Besides the shares, a report holds whole numbers that fit. -/
theorem toJson_exact (hnodes : report.eligibleNodes < UInt64.size)
    (hmoved : report.outcome.moved < UInt64.size)
    (hshares : ∀ share ∈ report.shares, ReadsBack share) : report.toJson.Exact := by
  have hloads : (Json.array (report.deviceLoads.map DeviceLoad.toJson)).Exact :=
    .array (List.forall_mem_map.2 fun load hload => DeviceLoad.toJson_exact (hshares _
      (List.mem_append_left _ (List.mem_map_of_mem hload))))
  have hmoves : (Json.array (report.moves.map MoveRecord.toJson)).Exact :=
    .array (List.forall_mem_map.2 fun move hmove => MoveRecord.toJson_exact fun share hshare =>
      hshares _ (List.mem_append_right _ (List.mem_flatMap.2 ⟨move, hmove, hshare⟩)))
  have hoptional (name : String) (cost? : Option Int64) :
      ∀ member ∈ (cost?.map fun cost => (name, Json.int cost.toInt)).toList, member.2.Exact := by
    cases cost? <;> simp [Json.exact_int64]
  rw [toJson_eq]
  refine .object (List.forall_mem_append.2 ⟨List.forall_mem_append.2
    ⟨?_, Outcome.members_exact hmoved⟩, ?_⟩)
  · rw [front]
    cases report.graphId <;> simp [Exact.string]
  · have hcount : (Json.int report.eligibleNodes).Exact := Json.exact_nat hnodes
    simp only [back, List.forall_mem_append]
    refine ⟨⟨⟨⟨?_, hoptional _ _⟩, hoptional _ _⟩, ?_⟩, ?_⟩
    · simp [Json.exact_int64, hcount]
    · split
      · exact nofun
      · exact List.forall_mem_singleton.2 hloads
    · split
      · exact nofun
      · exact List.forall_mem_singleton.2 hmoves

/-- The text of a report reads back as the report, whatever its outcome and whatever is absent,
    if each of its shares is read from its own text. -/
theorem ofText_of_readsBack (hnodes : report.eligibleNodes < UInt64.size)
    (hmoved : report.outcome.moved < UInt64.size)
    (hshares : ∀ share ∈ report.shares, ReadsBack share) :
    ofText report.toText = .ok report :=
  Json.readText_text (toJson_exact hnodes hmoved hshares) (reader_toJson hnodes hmoved)

/-- A report that leaves nothing out but the external traffic after the sweep. -/
def swept : Report where
  optimizer := "placement_optimizer"
  graphId := some "item \"0\""
  outcome := .localSearch 1
  predictedExecutionTime := 12
  eligibleNodes := 2
  totalComputeCost := 3
  externalCostBefore := some 100
  externalCostAfter := none
  deviceLoads := [⟨"dev0", false, 3, 2, 2 / 3⟩, ⟨"dev1", true, 0, 1, 1 / 3⟩]
  moves := [⟨"c", "dev0", "dev1", 100, -100, 2 / 3, 1 / 3⟩]

/-- The report of a sweep of two nodes is read back, its escaped identifier included. -/
theorem ofText_of_readsBack_swept : ofText swept.toText = .ok swept := by
  have hone : ReadsBack (1 / 3) := Json.readsBack_iff.2
    ⟨⟨false, ['0'], some (List.replicate 16 '3'), none⟩, by decide +kernel, by decide +kernel⟩
  have htwo : ReadsBack (2 / 3) := Json.readsBack_iff.2
    ⟨⟨false, ['0'], some (List.replicate 16 '6'), none⟩, by decide +kernel, by decide +kernel⟩
  have hshares : swept.shares = [2 / 3, 1 / 3, 2 / 3, 1 / 3] := rfl
  refine ofText_of_readsBack (by decide) (by decide) ?_
  rw [hshares]
  simp [hone, htwo]

end Report

end DevicePlacement

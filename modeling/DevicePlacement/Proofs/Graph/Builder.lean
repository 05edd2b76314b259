import DevicePlacement.Graph.Builder
import DevicePlacement.Proofs.Lists
import DevicePlacement.Proofs.Returns

/-!
# Graphs that are built

A builder is filled by calls, in any order, and what it is to build is read off them
(`Graph.Builder.after_eq`): the operations as they were added, under the identifier and the
versions that were set last.

The operations can be built if their names differ and all their inputs can be read
(`Graph.Builder.Sound`). If not, one of them is the first at fault: those before it are sound,
and it repeats one of their names or has an input that cannot be read
(`Graph.Builder.FirstFlaw`). A repeated name comes before the inputs, and of these the first bad
one counts. Building reports this one fault and nothing else (`Graph.Builder.build_after`),
whatever is wrong with the operations behind it.
-/

namespace DevicePlacement.Graph.Builder

open Checked

/-! ## Calls -/

/-- What can be done with a builder. -/
inductive Call
  | withId (id : String)
  | withVersions (producer minConsumer : Int32)
  | addOp (name op device : String) (inputs : List String)
  | addMatMul (name device left right : String)
  | addPlaceholder (name device : String)

namespace Call

/-- The builder after a call. -/
def apply (builder : Builder) : Call → Builder
  | withId id => builder.withId id
  | withVersions producer minConsumer => builder.withVersions producer minConsumer
  | addOp name op device inputs => builder.addOp name op device inputs
  | addMatMul name device left right => builder.addMatMul name device left right
  | addPlaceholder name device => builder.addPlaceholder name device

/-- The identifier that a call sets. -/
def id? : Call → Option String
  | withId id => some id
  | _ => none

/-- The versions that a call sets. -/
def versions? : Call → Option Versions
  | withVersions producer minConsumer => some ⟨producer, minConsumer⟩
  | _ => none

/-- The operation that a call adds. -/
def operation? : Call → Option Operation
  | addOp name op device inputs => some ⟨name, op, device, inputs⟩
  | addMatMul name device left right => some ⟨name, "MatMul", device, [left, right]⟩
  | addPlaceholder name device => some ⟨name, "Placeholder", device, []⟩
  | _ => none

end Call

/-- A new builder after calls, made one after the other. -/
def after (calls : List Call) : Builder :=
  calls.foldl Call.apply empty

/-- The operations that calls add, in their order. -/
def added (calls : List Call) : List Operation :=
  calls.filterMap Call.operation?

/-- The identifier that was set last, if one was. -/
def lastId? (calls : List Call) : Option String :=
  (calls.filterMap Call.id?).getLast?

/-- The versions that were set last, and zero if none were. -/
def lastVersions (calls : List Call) : Versions :=
  (calls.filterMap Call.versions?).getLast?.getD ⟨0, 0⟩

/-- The versions of the last call count, if it sets any. -/
theorem lastVersions_concat (calls : List Call) (call : Call) :
    lastVersions (calls ++ [call]) = call.versions?.getD (lastVersions calls) := by
  rw [lastVersions, getLast?_filterMap_concat, lastVersions]
  cases call.versions? <;> rfl

/-- A call adds its operation behind the others, if it has one. -/
theorem added_concat (calls : List Call) (call : Call) :
    added (calls ++ [call]) = added calls ++ call.operation?.toList := by
  rw [added, List.filterMap_append, added]
  cases h : call.operation? <;> simp [h]

/-- A builder holds what calls have set last, and all that they have added. -/
theorem after_eq (calls : List Call) :
    after calls = ⟨lastId? calls, lastVersions calls, added calls⟩ := by
  induction calls using List.reverseRecOn with
  | nil => rfl
  | append_singleton calls call ih =>
    have hstep : after (calls ++ [call]) = call.apply (after calls) := List.foldl_concat ..
    have hid : lastId? (calls ++ [call]) = call.id?.or (lastId? calls) :=
      getLast?_filterMap_concat ..
    rw [hstep, ih, hid, lastVersions_concat, added_concat]
    -- Each kind of call sets or adds one of the three.
    cases call with
    | withId id => simp [Call.apply, Call.id?, Call.versions?, Call.operation?, withId]
    | withVersions producer minConsumer =>
      simp [Call.apply, Call.id?, Call.versions?, Call.operation?, withVersions]
    | addOp name op device inputs => rfl
    | addMatMul name device left right => rfl
    | addPlaceholder name device => rfl

/-! ## Operations -/

/-- A node is made of an operation: its inputs are those that the texts are read as. -/
structure Makes (operation : Operation) (node : Node) : Prop where
  name : node.name = operation.name
  op : node.op = operation.op
  device : node.device = operation.device
  inputs : List.Forall₂ (fun text input => InputRef.ofText text = .ok input)
    operation.inputs node.inputs

/-- All names differ and all inputs can be read. -/
structure Sound (operations : List Operation) : Prop where
  names : (operations.map Operation.name).Nodup
  inputs : ∀ operation ∈ operations, ∀ text ∈ operation.inputs, Returns (InputRef.ofText text)

/-- What is wrong with an operation after others. -/
inductive FlawAfter (before : List Operation) (operation : Operation) : Flaw → Prop
  /-- It repeats a name. -/
  | duplicateName (hname : operation.name ∈ before.map Operation.name) :
    FlawAfter before operation (.duplicateName operation.name)
  /-- It has a new name, and an input that cannot be read after some that can. -/
  | badInput {good rest : List String} {text : String} {flaw : InputRef.Flaw}
    (hname : operation.name ∉ before.map Operation.name)
    (hinputs : operation.inputs = good ++ text :: rest)
    (hgood : ∀ other ∈ good, Returns (InputRef.ofText other))
    (hflaw : InputRef.ofText text = .error flaw) :
    FlawAfter before operation (.badInput operation.name flaw)

/-- What is wrong with the first operation with which something is wrong. -/
def FirstFlaw (operations : List Operation) (flaw : Flaw) : Prop :=
  ∃ before operation rest, operations = before ++ operation :: rest ∧ Sound before ∧
    FlawAfter before operation flaw

variable {operation : Operation} {operations before more : List Operation} {seen : List String}
  {result : List Node} {built : Node} {flaw : Flaw}

/-- An operation with a new name and readable inputs keeps all sound. -/
theorem Sound.concat (h : Sound before) (hname : operation.name ∉ before.map Operation.name)
    (hinputs : ∀ text ∈ operation.inputs, Returns (InputRef.ofText text)) :
    Sound (before ++ [operation]) where
  names := by
    rw [List.map_append, List.map_singleton]
    exact List.nodup_append.2 ⟨h.names, by simp, fun name hmem other hother =>
      List.mem_singleton.1 hother ▸ fun heq => hname (heq ▸ hmem)⟩
  inputs := List.forall_mem_append.2 ⟨h.inputs, List.forall_mem_singleton.2 hinputs⟩

/-- If not all is sound, something is wrong with a first operation. -/
theorem exists_firstFlaw (h : ¬ Sound operations) : ∃ flaw, FirstFlaw operations flaw := by
  induction operations using List.reverseRecOn with
  | nil => exact absurd ⟨List.nodup_nil, nofun⟩ h
  | append_singleton operations operation ih =>
    by_cases hsound : Sound operations
    · by_cases hname : operation.name ∈ operations.map Operation.name
      · exact ⟨_, operations, operation, [], rfl, hsound, .duplicateName hname⟩
      -- The name is new, so an input must be at fault.
      cases hinputs : operation.inputs.mapM InputRef.ofText with
      | ok inputs => exact absurd (hsound.concat hname (returns_of_mapM ⟨inputs, hinputs⟩)) h
      | error cause =>
        obtain ⟨good, text, rest, hsplit, hgood, hbad⟩ := mapM_eq_error_iff.1 hinputs
        exact ⟨_, operations, operation, [], rfl, hsound, .badInput hname hsplit hgood hbad⟩
    · obtain ⟨flaw, before, other, rest, rfl, hbefore, hflaw⟩ := ih hsound
      refine ⟨flaw, before, other, rest ++ [operation], ?_, hbefore, hflaw⟩
      rw [List.append_assoc, List.cons_append]

/-! ## Building -/

/-- A node is made if all inputs can be read, and then it is the only one. -/
theorem node_eq_ok_iff : node operation = .ok built ↔ Makes operation built := by
  rw [node]
  cases hinputs : operation.inputs.mapM InputRef.ofText with
  | error cause =>
    refine ⟨nofun, fun h => ?_⟩
    cases hinputs.symm.trans (mapM_eq_ok_iff.2 h.inputs)
  | ok inputs =>
    constructor
    · intro h
      cases h
      exact ⟨rfl, rfl, rfl, mapM_eq_ok_iff.1 hinputs⟩
    · intro h
      cases hinputs.symm.trans (mapM_eq_ok_iff.2 h.inputs)
      -- The texts are read as one list of inputs only, so the node is the one that was built.
      obtain ⟨name, op, device, inputs⟩ := built
      obtain ⟨rfl, rfl, rfl, _⟩ := h
      rfl

/-- The first input that cannot be read is reported with the name of the node. -/
theorem node_eq_error {cause : InputRef.Flaw}
    (h : operation.inputs.mapM InputRef.ofText = .error cause) :
    node operation = .error (.badInput operation.name cause) := by
  rw [node, h]
  rfl

/-- Operations become nodes if no name repeats another or one that was seen before. -/
theorem nodes_eq_ok_iff : nodes seen operations = .ok result ↔
    (operations.map Operation.name).Nodup ∧ (∀ operation ∈ operations, operation.name ∉ seen) ∧
      List.Forall₂ Makes operations result := by
  -- The induction is over any names that were seen before, as each step adds one.
  induction operations generalizing seen result with
  | nil => simp [nodes, eq_comm]
  | cons operation operations ih =>
    rw [nodes, List.map_cons, List.nodup_cons, List.forall_mem_cons]
    split_ifs with hseen
    · exact ⟨nofun, fun h => absurd hseen h.2.1.1⟩
    rw [bind_eq_ok]
    constructor
    · rintro ⟨first, hfirst, h⟩
      obtain ⟨others, hothers, h⟩ := bind_eq_ok.1 h
      cases h
      obtain ⟨hnames, hnew, hmakes⟩ := ih.1 hothers
      -- Behind the first operation its name is among those that were seen.
      refine ⟨⟨fun hmem => ?_, hnames⟩, ⟨hseen, fun other hother hmem => ?_⟩,
        .cons (node_eq_ok_iff.1 hfirst) hmakes⟩
      · obtain ⟨other, hother, hname⟩ := List.mem_map.1 hmem
        exact hnew other hother (hname ▸ List.mem_cons_self)
      · exact hnew other hother (List.mem_cons_of_mem _ hmem)
    · rintro ⟨⟨hname, hnames⟩, ⟨_, hnew⟩, hmakes⟩
      obtain ⟨first, others, hfirst, hothers, rfl⟩ := List.forall₂_cons_left_iff.1 hmakes
      refine ⟨first, node_eq_ok_iff.2 hfirst, ?_⟩
      refine bind_eq_ok.2 ⟨others, ih.2 ⟨hnames, ?_, hothers⟩, rfl⟩
      intro other hother hmem
      rcases List.mem_cons.1 hmem with heq | hmem
      · exact hname (heq ▸ List.mem_map_of_mem hother)
      · exact hnew other hother hmem

/-- The names of operations have been seen when the ones behind them are built. -/
theorem nodes_append (seen : List String) (operations more : List Operation) :
    nodes seen (operations ++ more) = (do
      let first ← nodes seen operations
      let rest ← nodes ((operations.map Operation.name).reverse ++ seen) more
      return first ++ rest) := by
  -- The names of the first operations have been seen when the others come.
  induction operations generalizing seen with
  | nil =>
    change _ = nodes seen more >>= pure
    rw [bind_pure]
    rfl
  | cons operation operations ih =>
    rw [List.cons_append, nodes, nodes]
    split_ifs with hseen
    · rfl
    · rw [ih, List.map_cons, List.reverse_cons, List.append_assoc]
      simp only [bind_assoc, pure_bind, List.cons_append, List.nil_append]

/-- Sound operations all become nodes. -/
theorem Sound.exists_nodes (h : Sound operations) : ∃ result, nodes [] operations = .ok result := by
  have hnodes : Returns (operations.mapM node) := by
    refine returns_mapM fun operation hmem => ?_
    obtain ⟨inputs, hinputs⟩ := returns_mapM (h.inputs operation hmem)
    have hmakes : Makes operation ⟨operation.name, operation.op, operation.device, inputs⟩ :=
      ⟨rfl, rfl, rfl, mapM_eq_ok_iff.1 hinputs⟩
    exact ⟨_, node_eq_ok_iff.2 hmakes⟩
  obtain ⟨result, hresult⟩ := hnodes
  exact ⟨result, nodes_eq_ok_iff.2 ⟨h.names, by simp,
    (mapM_eq_ok_iff.1 hresult).imp fun _ _ => node_eq_ok_iff.1⟩⟩

/-- The nodes are made in order, so the first flaw is reported and hides the others. -/
theorem nodes_of_firstFlaw (h : FirstFlaw operations flaw) :
    nodes [] operations = .error flaw := by
  obtain ⟨before, operation, rest, rfl, hsound, hflaw⟩ := h
  obtain ⟨first, hfirst⟩ := hsound.exists_nodes
  have hhere : nodes ((before.map Operation.name).reverse ++ []) (operation :: rest) =
      .error flaw := by
    rw [List.append_nil, nodes]
    cases hflaw with
    | duplicateName hname => rw [if_pos (List.mem_reverse.2 hname)]
    | badInput hname hinputs hgood hbad =>
      rw [if_neg (hname ∘ List.mem_reverse.1),
        node_eq_error (mapM_eq_error_iff.2 ⟨_, _, _, hinputs, hgood, hbad⟩)]
      rfl
  rw [nodes_append, hfirst, hhere]
  rfl

/-- Operations that nodes were made of are sound if their names differ. -/
theorem Sound.of_makes (hnames : (operations.map Operation.name).Nodup)
    (h : List.Forall₂ Makes operations result) : Sound operations where
  names := hnames
  inputs := by
    clear hnames
    induction h with
    | nil => nofun
    | cons hmakes _ ih =>
      exact List.forall_mem_cons.2 ⟨returns_of_mapM ⟨_, mapM_eq_ok_iff.2 hmakes.inputs⟩, ih⟩

/-- There is no other report: an error means that not all is sound, and then the first flaw is
    unique. -/
theorem nodes_eq_error_iff : nodes [] operations = .error flaw ↔ FirstFlaw operations flaw := by
  refine ⟨fun h => ?_, nodes_of_firstFlaw⟩
  -- What is reported is the first flaw there is, as that one would be reported, too.
  have hunsound : ¬ Sound operations := fun hsound => by
    obtain ⟨result, hresult⟩ := hsound.exists_nodes
    cases h.symm.trans hresult
  obtain ⟨other, hother⟩ := exists_firstFlaw hunsound
  cases h.symm.trans (nodes_of_firstFlaw hother)
  exact hother

/-- A graph has the nodes of the operations that were added, and what was set last. -/
structure Assembles (calls : List Call) (graph : Graph) : Prop where
  names : ((added calls).map Operation.name).Nodup
  nodes : List.Forall₂ Makes (added calls) graph.nodes
  id : graph.id = lastId? calls
  versions : graph.versions = lastVersions calls

/-- What is built is what the calls have put together, in whatever order they came. -/
theorem build_eq_ok_iff {calls : List Call} {graph : Graph} :
    (after calls).build = .ok graph ↔ Assembles calls graph := by
  rw [after_eq, build, bind_eq_ok]
  constructor
  · rintro ⟨result, hresult, h⟩
    cases h
    obtain ⟨hnames, _, hmakes⟩ := nodes_eq_ok_iff.1 hresult
    exact ⟨hnames, hmakes, rfl, rfl⟩
  · intro h
    obtain ⟨id, versions, result⟩ := graph
    obtain ⟨hnames, hmakes, rfl, rfl⟩ := h
    exact ⟨result, nodes_eq_ok_iff.2 ⟨hnames, by simp, hmakes⟩, rfl⟩

/-- Calls that set the identifier or the versions cannot be wrong. -/
theorem build_eq_error_iff {calls : List Call} {flaw : Flaw} :
    (after calls).build = .error flaw ↔ FirstFlaw (added calls) flaw := by
  rw [after_eq, build, ← nodes_eq_error_iff, bind_eq_error]
  exact or_iff_left fun ⟨_, _, h⟩ => by cases h

/-- After any calls, a builder builds exactly if all that was added is sound, and then what the
    calls say. Otherwise it reports what is wrong with the first operation that is at fault. -/
theorem build_after (calls : List Call) :
    (Returns (after calls).build ↔ Sound (added calls)) ∧
      (∀ graph, (after calls).build = .ok graph ↔ Assembles calls graph) ∧
      ∀ flaw, (after calls).build = .error flaw ↔ FirstFlaw (added calls) flaw := by
  refine ⟨⟨fun ⟨graph, h⟩ => ?_, fun h => ?_⟩, fun _ => build_eq_ok_iff,
    fun _ => build_eq_error_iff⟩
  · have hassembles := build_eq_ok_iff.1 h
    exact .of_makes hassembles.names hassembles.nodes
  · obtain ⟨result, hresult⟩ := h.exists_nodes
    exact ⟨_, by rw [after_eq, build, hresult]; rfl⟩

/-- A repeated name counts before the bad input of the same operation, and an operation behind
    that one does not count. -/
example : (after [.addPlaceholder "x" "", .addOp "x" "Relu" "" ["x:y"],
    .addOp "y" "Relu" "" ["^"]]).build = .error (.duplicateName "x") := by
  decide +kernel

end DevicePlacement.Graph.Builder

import DevicePlacement.Proofs.Sweep.Alike
import DevicePlacement.Proofs.Sweep.Tour

/-!
# Strict and lenient sweeps

The lenient policy makes nodes on pinned devices eligible (`Task.isBystander`). They count in
the loads, but they are passed over when the sweep comes to them. So if none of them has a
compute cost, nothing can be seen of them: the two policies stop with the same fault, or
return the same, up to the number of eligible nodes (`Task.run_lenient`).

The lenient sweep goes through more nodes than the strict one. It is compared with itself,
less the bystanders:

* `positions_strict`: without the bystanders, the positions are those of the strict sweep;
* `opening_lenient`, `visitAll_lenient`: a bystander changes neither the loads nor the state.
-/

namespace DevicePlacement

open Checked Function

/-- A node without compute cost changes no load. -/
theorem Balance.add_zero {balance : Balance} {device : Nat} (h : device < balance.loads.length) :
    balance.add device 0 = .ok balance := by
  have hload : balance.load device = .ok balance.loads[device] :=
    row_eq_ok_iff.2 (List.getElem?_eq_getElem h)
  have hloads : setRow balance.loads device balance.loads[device] = .ok balance.loads :=
    setRow_eq_ok_iff.2 ⟨h, (List.set_getElem_self h).symm⟩
  exact bind_eq_ok.2 ⟨_, hload, bind_eq_ok.2 ⟨_, plus_zero _, bind_eq_ok.2
    ⟨_, hloads, bind_eq_ok.2 ⟨_, plus_zero _, rfl⟩⟩⟩⟩

namespace Sweep

/-- A node on a pinned device is passed over. -/
theorem visit_of_pinned {sweep : Sweep} {state : State} {position origin : Nat}
    (hsite : state.placement.site position = some origin) (hlt : origin < sweep.roster.size)
    (hpinned : sweep.pinned.isPinned (sweep.roster.nameOf origin) = true) :
    sweep.visit state position = .ok state := by
  have hname : sweep.roster.name origin = .ok (sweep.roster.nameOf origin) :=
    Roster.name_eq_ok_iff.2 ⟨hlt, rfl⟩
  exact bind_eq_ok.2 ⟨some origin, Placement.device_of_site hsite,
    bind_eq_ok.2 ⟨_, hname, if_pos hpinned⟩⟩

/-- The number of eligible nodes. -/
theorem length_eligiblePositions (eligibility : Eligibility) (graph : Graph) :
    (eligiblePositions eligibility graph).length =
      graph.nodes.countP eligibility.isEligible := by
  have hfst := List.countP_map (p := eligibility.isEligible) (f := Prod.fst)
    (l := graph.nodes.zipIdx)
  rw [List.zipIdx_map_fst] at hfst
  rw [eligiblePositions, List.length_map, ← List.countP_eq_length_filter, hfst]
  rfl

namespace Task

variable {task : Task}

/-- The task under another policy. -/
def withPolicy (task : Task) (policy : PinnedPolicy) : Task :=
  { task with knobs := { task.knobs with pinnedPolicy := policy } }

/-- A node is on a pinned device and eligible under the lenient policy. -/
def isBystander (task : Task) (node : Node) : Bool :=
  (task.withPolicy .lenient).eligibility.isEligible node && task.pinned.isPinned node.device

/-- No bystander has a compute cost. -/
def Weightless (task : Task) : Prop :=
  ∀ node ∈ task.graph.nodes, task.isBystander node = true →
    ∀ cost, task.estimate.cost? node.name = some cost → cost.computeCost = 0

/-- The number of bystanders. -/
def bystanders (task : Task) : Nat :=
  task.graph.nodes.countP task.isBystander

/-- The node at a position is on a pinned device. -/
def isHeld (task : Task) (position : Nat) : Bool :=
  (task.graph.nodes[position]?).any fun node => task.pinned.isPinned node.device

theorem isHeld_iff {position : Nat} : task.isHeld position = true ↔
    ∃ node, task.graph.nodes[position]? = some node ∧ task.pinned.isPinned node.device = true := by
  rw [isHeld, Option.any_eq_true]

theorem sweep_withPolicy (task : Task) (policy : PinnedPolicy) :
    (task.withPolicy policy).sweep = task.sweep := rfl

theorem placement_withPolicy (task : Task) (policy : PinnedPolicy) :
    (task.withPolicy policy).placement = task.placement := rfl

/-! ## Eligible nodes -/

/-- The strict policy leaves out the nodes on pinned devices and no others. -/
theorem isEligible_strict (task : Task) (node : Node) :
    (task.withPolicy .strict).eligibility.isEligible node =
      ((task.withPolicy .lenient).eligibility.isEligible node &&
        !task.pinned.isPinned node.device) := by
  have hmovable (op : String) : (task.withPolicy .strict).eligibility.Movable op ↔
      (task.withPolicy .lenient).eligibility.Movable op := Iff.rfl
  have hstrict : (task.withPolicy .strict).eligibility.policy = .strict := rfl
  have hlenient : (task.withPolicy .lenient).eligibility.policy ≠ .strict :=
    PinnedPolicy.noConfusion
  have hpinned : (task.withPolicy .strict).eligibility.pinned = task.pinned := rfl
  rw [Bool.eq_iff_iff, Bool.and_eq_true, Eligibility.isEligible_iff, Eligibility.isEligible_iff,
    Bool.not_eq_true', hmovable]
  simp [hstrict, hlenient, hpinned, and_assoc]

/-- The strict sweep visits the nodes of the lenient one that are not on pinned devices. -/
theorem positions_strict (task : Task) : (task.withPolicy .strict).positions =
    (task.withPolicy .lenient).positions.filter fun position => !task.isHeld position := by
  rw [positions, positions, eligiblePositions, eligiblePositions, List.filter_map,
    List.filter_filter]
  refine congrArg (List.map Prod.snd) (List.filter_congr ?_)
  rintro ⟨node, position⟩ hmem
  have hnode : task.graph.nodes[position]? = some node := List.mem_zipIdx_iff_getElem?.1 hmem
  have hheld : task.isHeld position = task.pinned.isPinned node.device := by
    rw [isHeld, hnode, Option.any_some]
  rw [Function.comp_apply, hheld, Bool.and_comm]
  exact isEligible_strict task node

/-- Under the lenient policy there are more eligible nodes, by the bystanders. -/
theorem length_positions_lenient (task : Task) : (task.withPolicy .lenient).positions.length =
    (task.withPolicy .strict).positions.length + task.bystanders := by
  rw [positions, positions, length_eligiblePositions, length_eligiblePositions,
    List.countP_eq_countP_filter_add _ _ fun node => !task.pinned.isPinned node.device,
    List.countP_filter, List.countP_filter, bystanders]
  congr 1
  · exact List.countP_congr fun node _ => by rw [isEligible_strict]
  · exact List.countP_congr fun node _ => by rw [isBystander, Bool.not_not]

/-- A node on a pinned device is there in the placement as well. -/
theorem site_of_held {position : Nat} (hp : position ∈ (task.withPolicy .lenient).positions)
    (hheld : task.isHeld position = true) : ∃ origin, task.placement.site position = some origin ∧
      task.pinned.isPinned (task.roster.nameOf origin) = true := by
  obtain ⟨node, hnode, hpinned⟩ := isHeld_iff.1 hheld
  obtain ⟨origin, horigin⟩ := Option.isSome_iff_exists.1 (isSome_site_of_eligible hp)
  rw [placement_withPolicy] at horigin
  have hname := task.siteName_placement position
  rw [Placement.siteName, horigin, hnode, Option.map_some, Option.bind_some, Node.site?, eq_comm,
    Option.ite_none_right_eq_some, Option.some_inj] at hname
  exact ⟨origin, horigin, by rwa [← hname.2]⟩

/-! ## Bystanders do nothing -/

/-- A bystander that is where the graph has it is passed over. -/
theorem visit_of_held {state : State} {position : Nat}
    (hp : position ∈ (task.withPolicy .lenient).positions) (hheld : task.isHeld position = true)
    (hstill : state.placement.site position = task.placement.site position) :
    task.sweep.visit state position = .ok state := by
  obtain ⟨origin, hsite, hpinned⟩ := site_of_held hp hheld
  have hlt : origin < task.roster.size := task.within_placement position origin hsite
  exact visit_of_pinned (hstill.trans hsite) hlt hpinned

/-- The lenient sweep makes the same visits, for no bystander is ever moved. -/
theorem visitAll_lenient (before : Balance) :
    task.sweep.visitAll ⟨task.placement, before, [], 0⟩ (task.withPolicy .lenient).positions =
      task.sweep.visitAll ⟨task.placement, before, [], 0⟩ (task.withPolicy .strict).positions := by
  rw [visitAll, visitAll, positions_strict]
  split
  · rfl
  · -- The invariant says where the bystanders are, so that their own visits find them there.
    refine (foldlM_filter_of_idle (P := fun state : State =>
      ∀ other ∈ (task.withPolicy .lenient).positions, task.isHeld other = true →
        state.placement.site other = task.placement.site other) ?_ ?_ ?_).symm
    · exact fun _ _ _ => rfl
    · intro state next position _ hsites hvisit other ho hheld
      by_cases hsame : other = position
      · subst hsame
        rw [visit_of_held ho hheld (hsites other ho hheld)] at hvisit
        exact Except.ok.inj hvisit ▸ hsites other ho hheld
      · rw [(visit_eq_ok hvisit).site_of_ne hsame, hsites other ho hheld]
    · intro state position hp hkeep hsites
      rw [Bool.not_eq_false'] at hkeep
      exact visit_of_held hp hkeep (hsites position hp hkeep)

section Weightless

variable (h : task.Weightless)

include h

/-- An eligible node on a pinned device is a bystander, and these cost nothing. -/
theorem computeCost_of_held {position : Nat}
    (hp : position ∈ (task.withPolicy .lenient).positions) (hheld : task.isHeld position = true) :
    task.sweep.priced.computeCost position = .ok 0 := by
  obtain ⟨node, hnode, hpinned⟩ := isHeld_iff.1 hheld
  obtain ⟨node', hnode', helig⟩ := mem_positions.1 hp
  cases Option.some.inj (hnode.symm.trans hnode')
  -- A node that is eligible and held is a bystander, and these weigh nothing.
  have hbystander : task.isBystander node = true := by
    rw [isBystander, helig, hpinned, Bool.and_true]
  have hclosed : task.sweep.priced.Closed := PricedGraph.closed_ofGraph ..
  obtain ⟨cost, hcost⟩ := hclosed.returns_computeCost (List.getElem?_eq_some_iff.1 hnode).1
  have hzero : cost.toInt = 0 := by
    rw [PricedGraph.computeCost_eq_ok hcost, sweep, PricedGraph.compute_ofGraph _ hnode,
      Estimate.compute]
    cases hentry : task.estimate.cost? node.name with
    | none => rfl
    | some entry =>
      rw [Option.map_some, Option.getD_some,
        h node (List.mem_of_getElem? hnode) hbystander entry hentry, Int64.toInt_zero]
  rw [hcost, ← Int64.toInt_inj.1 (hzero.trans Int64.toInt_zero.symm)]

/-- So the loads at the start are the same under both policies. -/
theorem opening_lenient :
    (task.withPolicy .lenient).opening = (task.withPolicy .strict).opening := by
  rw [opening, opening, positions_strict]
  -- Even a load of zero needs a row to be added to, and the rows are all there throughout.
  refine (foldlM_filter_of_idle
    (P := fun balance : Balance => balance.loads.length = task.roster.size) ?_ ?_ ?_).symm
  · exact List.length_replicate
  · intro balance next position _ hrows hnext
    exact (loaded_singleton hnext).length.trans hrows
  · intro balance position hp hkeep hrows
    rw [Bool.not_eq_false'] at hkeep
    obtain ⟨origin, hsite, _⟩ := site_of_held hp hkeep
    have hrow : origin < balance.loads.length := hrows ▸ task.within_placement position origin hsite
    exact bind_eq_ok.2 ⟨_, Placement.device_of_site hsite, bind_eq_ok.2
      ⟨_, computeCost_of_held h hp hkeep, Balance.add_zero hrow⟩⟩

/-- If no bystander has a compute cost, the lenient sweep stops with the same fault as the
    strict one, or returns the same, and the bystanders are eligible as well. -/
theorem run_lenient : (task.withPolicy .lenient).run =
    (task.withPolicy .strict).run.map fun result =>
      { result with eligible := result.eligible + task.bystanders } := by
  refine InStep.eq_map ?_
  rw [run_eq, run_eq, opening_lenient h, sweep_withPolicy, sweep_withPolicy, placement_withPolicy,
    placement_withPolicy]
  refine inStep_bind_left fun before _ => inStep_bind_left fun externalBefore _ => ?_
  rw [visitAll_lenient]
  refine inStep_bind_left fun final _ => inStep_bind_left fun externalAfter _ => ?_
  refine inStep_bind_left fun conserved _ => inStep_ite (fun _ => .stopped _) fun _ => ?_
  rw [conclude, conclude]
  refine inStep_bind_left fun rows _ => inStep_bind_left fun placed _ => inStep_pure ?_
  rw [length_positions_lenient]

end Weightless

/-- A graph whose node `c` may join its producer, with bystanders before and after it. -/
def hosted : Task where
  catalog := OpRegistry.standard.catalog
  knobs := Knobs.alwaysOptimize.withComputeMargin 1
  graph := .ofNodes [⟨"x", "MatMul", "CPU", []⟩, ⟨"p", "Const", "dev1", []⟩,
    ⟨"y", "Add", "CPU", [.data "p" 0]⟩, ⟨"c", "Add", "dev0", [.data "p" 0, .data "y" 0]⟩,
    ⟨"z", "MatMul", "CPU", [.data "c" 0]⟩]
  devices := ["dev0", "CPU", "dev1"]
  estimate := ⟨.ofList [("p", .ofCompute 1 10), ("y", .ofCompute 0 3), ("c", .ofCompute 3 5),
    ("z", .ofCompute 0 1)], .zero⟩

/-- The three nodes on the pinned device of `hosted` make no difference but to the number of
    eligible nodes. -/
theorem run_lenient_hosted : hosted.Weightless ∧ hosted.bystanders = 3 ∧
    (hosted.withPolicy .lenient).run =
      (hosted.withPolicy .strict).run.map
        (fun result => { result with eligible := result.eligible + hosted.bystanders }) ∧
    ∃ result, (hosted.withPolicy .strict).run = .ok result ∧ result.moved = 1 := by
  have h : hosted.Weightless := by
    have hnodes : ∀ node ∈ hosted.graph.nodes, hosted.isBystander node = true →
        ((hosted.estimate.cost? node.name).all fun cost => cost.computeCost = 0) = true := by
      decide +kernel
    intro node hnode hbystander cost hcost
    have hzero := hnodes node hnode hbystander
    rw [hcost, Option.all_some, decide_eq_true_eq] at hzero
    exact hzero
  have hmoved : (hosted.withPolicy .strict).run.toOption.map Result.moved = some 1 := by
    decide +kernel
  obtain ⟨result, hrun, hmoved⟩ := exists_ok_of_toOption hmoved
  exact ⟨h, by decide +kernel, run_lenient h, result, hrun, hmoved⟩

end Task

end Sweep

end DevicePlacement

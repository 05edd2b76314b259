import DevicePlacement.Cost.Table
import DevicePlacement.Placer
import DevicePlacement.Proofs.Sweep.Safety

/-!
# Placement cannot fault on a tame estimate

The statistics of a graph are exact sums over its nodes (`CostStats.ofGraph_eq_ok`),
which fit if the estimate is tame, and so does all that a sweep computes. As nothing
else is computed, a placer whose estimator has given a tame estimate returns a graph,
whatever its knobs and the cluster are (`Placer.place_eq_ok_of_tame`).
-/

namespace DevicePlacement

open Checked

/-! ## Statistics -/

namespace CostStats

variable {estimate : Estimate} {nodes : List Node} {stats next : CostStats}

/-- The statistics of some nodes have the sums of their costs. -/
structure Sums (estimate : Estimate) (nodes : List Node) (stats : CostStats) : Prop where
  totalComputeCost : stats.totalComputeCost.toInt = (nodes.map estimate.compute).sum
  totalMemorySize : stats.totalMemorySize.toInt = (nodes.map estimate.size).sum

/-- One node more adds its costs, or nothing if it has no entry. -/
theorem sums_of_add {node : Node} (h : Sums estimate nodes stats)
    (hadd : stats.add (estimate.cost? node.name) = .ok next) :
    Sums estimate (nodes ++ [node]) next := by
  -- It is enough to know by how much the two sums have grown.
  suffices hnext : next.totalComputeCost.toInt =
      stats.totalComputeCost.toInt + estimate.compute node ∧
        next.totalMemorySize.toInt = stats.totalMemorySize.toInt + estimate.size node from
    ⟨by rw [hnext.1, h.totalComputeCost, sum_map_concat],
      by rw [hnext.2, h.totalMemorySize, sum_map_concat]⟩
  cases hcost : estimate.cost? node.name with
  | none =>
    rw [hcost] at hadd
    cases hadd
    obtain ⟨hcompute, hsize⟩ := Estimate.cost_of_none hcost
    exact ⟨by rw [hcompute, add_zero], by rw [hsize, add_zero]⟩
  | some cost =>
    rw [hcost] at hadd
    obtain ⟨totalComputeCost, htotalCompute, hadd⟩ := bind_eq_ok.1 hadd
    obtain ⟨totalMemorySize, htotalSize, hadd⟩ := bind_eq_ok.1 hadd
    rw [pure_eq_ok] at hadd
    subst hadd
    obtain ⟨hcompute, hsize⟩ := Estimate.cost_of_some hcost
    exact ⟨by rw [plus_eq_ok_iff.1 htotalCompute, hcompute],
      by rw [plus_eq_ok_iff.1 htotalSize, hsize]⟩

/-- The statistics of a graph have the sums of the costs of its nodes. -/
theorem ofGraph_eq_ok {graph : Graph} (h : ofGraph graph estimate = .ok stats) :
    Sums estimate graph.nodes stats :=
  foldlM_keeps_along (P := Sums estimate) ⟨Int64.toInt_zero, Int64.toInt_zero⟩
    (fun _ _ _ _ _ _ hsums hadd _ => sums_of_add hsums hadd) h

/-- The statistics of a tame estimate can be collected: all sums on the way are parts of sums
    that fit. -/
theorem returns_ofGraph {graph : Graph} (h : estimate.Tame graph) :
    Returns (ofGraph graph estimate) := by
  refine returns_foldlM fun done node stats hdone hstats => ?_
  have hsums : Sums estimate (Graph.ofNodes done).nodes stats := ofGraph_eq_ok hstats
  cases hcost : estimate.cost? node.name with
  | none => exact ⟨_, rfl⟩
  | some cost =>
    obtain ⟨hcompute, hsize⟩ := Estimate.cost_of_some hcost
    have htotalCompute := returns_plus_concat hdone (fun node _ => (h.cost_nonneg node).1)
      h.compute_le hsums.totalComputeCost hcompute.symm
    have htotalSize := returns_plus_concat hdone (fun node _ => (h.cost_nonneg node).2)
      h.size_le hsums.totalMemorySize hsize.symm
    exact htotalCompute.bind fun _ _ => htotalSize.bind fun _ _ => returns_pure _

end CostStats

namespace Placer

variable {placer : Placer} {graph : Graph} {devices : List String} {estimate : Estimate}

/-- A sweep with a tame estimate meets no fault. -/
theorem returns_sweep (h : estimate.Tame graph) :
    Returns (placer.sweep graph devices estimate) := by
  let task : Sweep.Task := ⟨placer.catalog, placer.knobs, graph, devices, estimate⟩
  have hrun : Returns task.run := Sweep.Task.returns_run h
  exact hrun.bind fun _ _ => returns_pure _

/-- Nor does a collapse, which computes with no costs at all. -/
theorem returns_placeWith (h : estimate.Tame graph) :
    Returns (placer.placeWith graph devices estimate) := by
  rw [placeWith]
  split
  · exact ⟨_, rfl⟩
  · split
    · exact ⟨_, rfl⟩
    · exact returns_sweep h

/-- Nor do the statistics that are collected before. -/
theorem returns_placeEstimated (h : estimate.Tame graph) :
    Returns (placer.placeEstimated graph devices estimate) := by
  refine (CostStats.returns_ofGraph h).bind fun _ _ => ?_
  dsimp only
  split
  · exact ⟨_, rfl⟩
  · exact (returns_placeWith h).bind fun placed _ => returns_pure _

/-- A placer returns a graph if its estimator gives a tame estimate: no sum leaves the
    64-bit range, every row that is asked for is there, and the loads add up in the end. -/
theorem place_eq_ok_of_tame {σ : Type} [Estimator σ] {cluster : Cluster}
    {estimator prepared : σ} (hprepare : Estimator.prepare estimator graph = .ok prepared)
    (hpredict : Estimator.predict prepared graph = .ok estimate) (h : estimate.Tame graph) :
    ∃ placed, placer.place cluster estimator graph = .ok (placed, prepared) := by
  have hreturns : Returns (placer.placeEstimated graph cluster.names estimate) :=
    returns_placeEstimated h
  obtain ⟨placed, hplaced⟩ := hreturns
  refine ⟨placed, bind_eq_ok.2 ⟨prepared, hprepare, bind_eq_ok.2 ⟨estimate, hpredict, ?_⟩⟩⟩
  rw [hplaced]
  rfl

/-- Costs for the nodes of `relay` whose sums reach the end of the range. -/
def brimful : CostTable where
  nodes := .ofList [("p", .ofCompute 1 10), ("q", .ofCompute 1 100),
    ("c", .ofCompute (Int64.maxValue - 6) (Int64.maxValue - 111)), ("d", .ofCompute 4 1)]
  preparedFor := none

/-- The compute costs of `brimful` add up to the greatest number there is. -/
theorem place_eq_ok_of_brimful : ∃ placer : Placer, ∃ prepared estimate placed,
    Estimator.prepare brimful Sweep.Task.relay.graph = .ok prepared ∧
    Estimator.predict prepared Sweep.Task.relay.graph = .ok estimate ∧
    estimate.Tame Sweep.Task.relay.graph ∧
    (Sweep.Task.relay.graph.nodes.map estimate.compute).sum = Int64.maxValue.toInt ∧
    placer.place (.ofNames Sweep.Task.relay.devices) brimful Sweep.Task.relay.graph =
      .ok (placed, prepared) := by
  let placer : Placer := ⟨Sweep.Task.relay.knobs, Sweep.Task.relay.catalog, by decide +kernel⟩
  let prepared := brimful.prepare Sweep.Task.relay.graph
  have hestimate : (Estimator.predict prepared Sweep.Task.relay.graph).toOption.map
      (fun estimate => decide (estimate.Tame Sweep.Task.relay.graph ∧
        (Sweep.Task.relay.graph.nodes.map estimate.compute).sum = Int64.maxValue.toInt)) =
          some true := by
    decide +kernel
  obtain ⟨estimate, hpredict, hestimate⟩ := exists_ok_of_toOption hestimate
  obtain ⟨htame, hsum⟩ := of_decide_eq_true hestimate
  have hprepare : Estimator.prepare brimful Sweep.Task.relay.graph = .ok prepared := rfl
  have hplace : ∃ placed, placer.place (.ofNames Sweep.Task.relay.devices) brimful
      Sweep.Task.relay.graph = .ok (placed, prepared) :=
    place_eq_ok_of_tame hprepare hpredict htame
  obtain ⟨placed, hplaced⟩ := hplace
  exact ⟨placer, prepared, estimate, placed, hprepare, hpredict, htame, hsum, hplaced⟩

end Placer

end DevicePlacement

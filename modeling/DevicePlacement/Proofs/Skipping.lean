import DevicePlacement.Proofs.Safety

/-!
# Graphs that are left alone

A graph that runs faster than the threshold is not placed, but its statistics are collected
all the same, and they are the only thing that can go wrong. They can be collected if the
costs of the nodes, added up one after the other, never leave the 64-bit range
(`Estimate.SumsFit`), and otherwise stop the placer with a fault
(`CostStats.returns_ofGraph_of_sumsFit`, `CostStats.ofGraph_of_not_sumsFit`). This decides
what becomes of such a graph (`Placer.place_of_cheap`): either the graph comes back as it
was, with a report that it was skipped, or the sum that nobody needs stops the placer
(`Placer.place_cheap_can_fault`).
-/

namespace DevicePlacement

open Checked

/-- The compute costs of the nodes fit 64 bits when they are added up from the first node
    on, and so do their sizes. -/
def Estimate.SumsFit (estimate : Estimate) (nodes : List Node) : Prop :=
  ∀ done ∈ nodes.inits,
    Fits (done.map estimate.compute).sum ∧ Fits (done.map estimate.size).sum

instance (estimate : Estimate) (nodes : List Node) : Decidable (estimate.SumsFit nodes) :=
  List.decidableBAll _ _

/-! ## Statistics -/

namespace CostStats

variable {estimate : Estimate} {nodes : List Node} {node : Node} {stats : CostStats}

/-- A node can be counted if the sums with it fit. -/
theorem returns_add_of_fits (h : Sums estimate nodes stats)
    (hcompute : Fits ((nodes ++ [node]).map estimate.compute).sum)
    (hsize : Fits ((nodes ++ [node]).map estimate.size).sum) :
    Returns (stats.add (estimate.cost? node.name)) := by
  rw [sum_map_concat, ← h.totalComputeCost] at hcompute
  rw [sum_map_concat, ← h.totalMemorySize] at hsize
  cases hcost : estimate.cost? node.name with
  | none => exact ⟨_, rfl⟩
  | some cost =>
    obtain ⟨hcost, hcost'⟩ := Estimate.cost_of_some hcost
    rw [hcost] at hcompute
    rw [hcost'] at hsize
    refine (returns_plus_of_fits hcompute).bind fun _ _ => ?_
    exact (returns_plus_of_fits hsize).bind fun _ _ => returns_pure _

/-- If one of the two sums does not fit, the addition is a fault. -/
theorem add_of_not_fits (h : Sums estimate nodes stats)
    (hnot : ¬ (Fits ((nodes ++ [node]).map estimate.compute).sum ∧
      Fits ((nodes ++ [node]).map estimate.size).sum)) :
    stats.add (estimate.cost? node.name) = .error .addition := by
  rw [sum_map_concat, ← h.totalComputeCost, sum_map_concat, ← h.totalMemorySize] at hnot
  cases hcost : estimate.cost? node.name with
  | none =>
    -- A node without a cost adds nothing, so the sums are still those that were reached.
    obtain ⟨hcompute, hsize⟩ := Estimate.cost_of_none hcost
    rw [hcompute, hsize, add_zero, add_zero] at hnot
    exact absurd ⟨fits_toInt _, fits_toInt _⟩ hnot
  | some cost =>
    obtain ⟨hcompute, hsize⟩ := Estimate.cost_of_some hcost
    rw [hcompute, hsize] at hnot
    by_cases hfits : Fits (stats.totalComputeCost.toInt + cost.computeCost.toInt)
    · obtain ⟨total, htotal⟩ := returns_plus_of_fits hfits
      have hsizes : ¬ Fits (stats.totalMemorySize.toInt + cost.maxMemorySize.toInt) :=
        fun hsizes => hnot ⟨hfits, hsizes⟩
      rw [add, htotal, plus_of_not_fits hsizes]
      rfl
    · rw [add, plus_of_not_fits hfits]
      rfl

/-- The nodes are counted one by one, so what has to fit are the sums over those that come
    first. -/
theorem returns_ofGraph_of_sumsFit {graph : Graph} (h : estimate.SumsFit graph.nodes) :
    Returns (ofGraph graph estimate) := by
  refine returns_foldlM fun done node stats hdone hstats => ?_
  have hsums : Sums estimate (Graph.ofNodes done).nodes stats := ofGraph_eq_ok hstats
  obtain ⟨hcompute, hsize⟩ := h (done ++ [node]) ((List.mem_inits _ _).2 hdone)
  exact returns_add_of_fits hsums hcompute hsize

/-- The statistics fault at the first node at which a sum does not fit. -/
theorem ofGraph_of_not_sumsFit {graph : Graph} (h : ¬ estimate.SumsFit graph.nodes) :
    ofGraph graph estimate = .error .addition := by
  refine foldlM_stops ⟨fits_toInt 0, fits_toInt 0⟩ ?_ ?_ h
  · intro done node stats hstats hfits
    have hsums : Sums estimate (Graph.ofNodes done).nodes stats := ofGraph_eq_ok hstats
    exact returns_add_of_fits hsums hfits.1 hfits.2
  · intro done node stats hstats _ hnot
    have hsums : Sums estimate (Graph.ofNodes done).nodes stats := ofGraph_eq_ok hstats
    exact add_of_not_fits hsums hnot

end CostStats

/-! ## Placers -/

namespace Placer

variable {σ : Type} [Estimator σ] {placer : Placer} {cluster : Cluster}
  {estimator prepared : σ} {graph : Graph} {estimate : Estimate}

/-- What becomes of a graph for which there is an estimate. -/
theorem place_of_predict (hprepare : Estimator.prepare estimator graph = .ok prepared)
    (hpredict : Estimator.predict prepared graph = .ok estimate) :
    placer.place cluster estimator graph =
      ((placer.placeEstimated graph cluster.names estimate).mapError .fault).map (·, prepared) := by
  simp only [place, hprepare, hpredict, bind, Except.bind]
  cases placer.placeEstimated graph cluster.names estimate with
  | ok placed => rfl
  | error fault => rfl

/-- A graph with the report that it was skipped. -/
def skip (placer : Placer) (graph : Graph) (time : Int64) : Placed where
  graph := graph
  report := { report graph (.skipped time placer.knobs.minExecutionTime) with
    predictedExecutionTime := time }

/-- A graph that runs faster than the threshold comes back as it was, with the report that
    it was skipped, provided that the sums of its statistics fit. -/
theorem place_of_cheap (hprepare : Estimator.prepare estimator graph = .ok prepared)
    (hpredict : Estimator.predict prepared graph = .ok estimate)
    (htime : estimate.summary.executionTime.toInt < placer.knobs.minExecutionTime.toInt) :
    placer.place cluster estimator graph =
      if estimate.SumsFit graph.nodes then
        .ok (placer.skip graph estimate.summary.executionTime, prepared)
      else .error (.fault .addition) := by
  rw [place_of_predict hprepare hpredict]
  split_ifs with hfit
  · obtain ⟨stats, hstats⟩ := CostStats.returns_ofGraph_of_sumsFit hfit
    rw [placeEstimated, hstats]
    simp only [bind, Except.bind, if_pos htime]
    rfl
  · rw [placeEstimated, CostStats.ofGraph_of_not_sumsFit hfit]
    rfl

/-- A placer with the knobs that are used when none are given. -/
def ordinary : Placer :=
  ⟨Knobs.standard, OpRegistry.standard.catalog, by decide +kernel⟩

/-- Two nodes on a device. -/
def pair : Graph :=
  .ofNodes [⟨"a", "MatMul", "dev0", []⟩, ⟨"b", "MatMul", "dev0", []⟩]

/-- Costs for the nodes of `pair` that take no time. -/
def timeless (computeCost : Int64) : CostTable where
  nodes := .ofList [("a", ⟨computeCost, 0, 0, 0⟩), ("b", ⟨computeCost, 0, 0, 0⟩)]
  preparedFor := none

/-- A graph that takes no time is skipped by the standard knobs. -/
theorem place_of_cheap_pair : ∃ prepared estimate,
    Estimator.prepare (timeless 1) pair = .ok prepared ∧
    Estimator.predict prepared pair = .ok estimate ∧
    estimate.summary.executionTime.toInt < ordinary.knobs.minExecutionTime.toInt ∧
    ordinary.place (.ofNames ["dev0"]) (timeless 1) pair =
      .ok (ordinary.skip pair estimate.summary.executionTime, prepared) := by
  have hestimate : (Estimator.predict ((timeless 1).prepare pair) pair).toOption.map
      (fun estimate => decide (estimate.summary.executionTime.toInt <
        ordinary.knobs.minExecutionTime.toInt ∧ estimate.SumsFit pair.nodes)) = some true := by
    decide +kernel
  obtain ⟨estimate, hpredict, hestimate⟩ := exists_ok_of_toOption hestimate
  obtain ⟨htime, hfit⟩ := of_decide_eq_true hestimate
  have hprepare : Estimator.prepare (timeless 1) pair = .ok ((timeless 1).prepare pair) := rfl
  refine ⟨_, estimate, hprepare, hpredict, htime, ?_⟩
  rw [place_of_cheap hprepare hpredict htime, if_pos hfit]

/-- Two costs that do not add up stop the placer, although the nodes take no time and the
    graph would have been left alone. -/
theorem place_cheap_can_fault : ∃ prepared estimate,
    Estimator.prepare (timeless Int64.maxValue) pair = .ok prepared ∧
    Estimator.predict prepared pair = .ok estimate ∧
    estimate.summary.executionTime.toInt < ordinary.knobs.minExecutionTime.toInt ∧
    ordinary.place (.ofNames ["dev0"]) (timeless Int64.maxValue) pair =
      .error (.fault .addition) := by
  -- The estimate is a result of the run; all that is told about it is decided at once.
  have hestimate : (Estimator.predict ((timeless Int64.maxValue).prepare pair) pair).toOption.map
      (fun estimate => decide (estimate.summary.executionTime.toInt <
        ordinary.knobs.minExecutionTime.toInt ∧ ¬ estimate.SumsFit pair.nodes)) = some true := by
    decide +kernel
  obtain ⟨estimate, hpredict, hestimate⟩ := exists_ok_of_toOption hestimate
  obtain ⟨htime, hnot⟩ := of_decide_eq_true hestimate
  have hprepare : Estimator.prepare (timeless Int64.maxValue) pair =
      .ok ((timeless Int64.maxValue).prepare pair) := rfl
  refine ⟨_, estimate, hprepare, hpredict, htime, ?_⟩
  rw [place_of_predict hprepare hpredict, placeEstimated, CostStats.ofGraph_of_not_sumsFit hnot]
  rfl

end Placer

end DevicePlacement

import DevicePlacement.Cost.Table
import DevicePlacement.Proofs.Placement.Traffic

/-!
# Estimates are sums

An estimator forms an estimate by adding up costs, one after the other. The summary then has
the exact sums of their times (`CostSummary.total_eq_ok`), and it can be formed if and only if
the sums never leave the 64-bit range on the way (`CostSummary.TimesFit`). A cost table adds
up what it has for the nodes of a graph (`CostTable.price_eq`).
-/

namespace DevicePlacement

open Checked

/-- The time a node runs, in exact integers. -/
def NodeCost.time (cost : NodeCost) : Int :=
  cost.computeTime.toInt + cost.memoryTime.toInt

namespace CostSummary

/-- The times of a graph whose nodes have the given costs. -/
def total (costs : List NodeCost) : Except Fault CostSummary :=
  costs.foldlM add zero

/-- The summary has the sums of the times. -/
structure Sums (costs : List NodeCost) (summary : CostSummary) : Prop where
  computeTime : summary.computeTime.toInt = (costs.map fun cost => cost.computeTime.toInt).sum
  memoryTime : summary.memoryTime.toInt = (costs.map fun cost => cost.memoryTime.toInt).sum
  executionTime : summary.executionTime.toInt = (costs.map NodeCost.time).sum

/-- The times fit 64 bits when they are added up, those of a node and those of all nodes
    from the first one on. -/
def TimesFit (costs : List NodeCost) : Prop :=
  ∀ done ∈ costs.inits, (∀ cost ∈ done, Fits cost.time) ∧
    Fits (done.map fun cost => cost.computeTime.toInt).sum ∧
    Fits (done.map fun cost => cost.memoryTime.toInt).sum ∧ Fits (done.map NodeCost.time).sum

instance (costs : List NodeCost) : Decidable (TimesFit costs) :=
  List.decidableBAll _ _

variable {costs : List NodeCost} {cost : NodeCost} {summary next : CostSummary}

/-- One cost more adds its times to each sum. -/
theorem sums_of_add (h : Sums costs summary) (hadd : summary.add cost = .ok next) :
    Sums (costs ++ [cost]) next := by
  obtain ⟨computeTime, hcompute, hadd⟩ := bind_eq_ok.1 hadd
  obtain ⟨memoryTime, hmemory, hadd⟩ := bind_eq_ok.1 hadd
  obtain ⟨time, htime, hadd⟩ := bind_eq_ok.1 hadd
  obtain ⟨executionTime, hexecution, hadd⟩ := bind_eq_ok.1 hadd
  cases hadd
  exact {
    computeTime := by rw [plus_eq_ok_iff.1 hcompute, h.computeTime, sum_map_concat]
    memoryTime := by rw [plus_eq_ok_iff.1 hmemory, h.memoryTime, sum_map_concat]
    executionTime := by
      rw [plus_eq_ok_iff.1 hexecution, h.executionTime, plus_eq_ok_iff.1 htime, sum_map_concat,
        NodeCost.time] }

/-- A summary that was formed has the exact sums. -/
theorem total_eq_ok (h : total costs = .ok summary) : Sums costs summary :=
  foldlM_keeps_along (P := Sums)
    ⟨Int64.toInt_zero, Int64.toInt_zero, Int64.toInt_zero⟩
    (fun _ _ _ _ _ _ hsums hadd _ => sums_of_add hsums hadd) h

/-- The times of a graph are its times of computing and its times spent on memory. -/
theorem Sums.executionTime_eq (h : Sums costs summary) :
    summary.executionTime.toInt = summary.computeTime.toInt + summary.memoryTime.toInt := by
  rw [h.executionTime, h.computeTime, h.memoryTime, ← List.sum_map_add]
  rfl

/-- The order of the costs does not matter for their sums. -/
theorem Sums.perm {others : List NodeCost} (h : Sums costs summary) (hperm : costs.Perm others) :
    Sums others summary where
  computeTime := h.computeTime.trans (hperm.map _).sum_eq
  memoryTime := h.memoryTime.trans (hperm.map _).sum_eq
  executionTime := h.executionTime.trans (hperm.map _).sum_eq

/-- A cost can be added if its two times together fit, and each sum with it. -/
theorem returns_add (h : Sums costs summary) (htime : Fits cost.time)
    (hcompute : Fits ((costs ++ [cost]).map fun cost => cost.computeTime.toInt).sum)
    (hmemory : Fits ((costs ++ [cost]).map fun cost => cost.memoryTime.toInt).sum)
    (hexecution : Fits ((costs ++ [cost]).map NodeCost.time).sum) :
    Returns (summary.add cost) := by
  rw [sum_map_concat, ← h.computeTime] at hcompute
  rw [sum_map_concat, ← h.memoryTime] at hmemory
  rw [sum_map_concat, ← h.executionTime] at hexecution
  refine (returns_plus_of_fits hcompute).bind fun _ _ => ?_
  refine (returns_plus_of_fits hmemory).bind fun _ _ => ?_
  refine (returns_plus_of_fits htime).bind fun time ht => ?_
  rw [NodeCost.time, ← plus_eq_ok_iff.1 ht] at hexecution
  exact (returns_plus_of_fits hexecution).bind fun _ _ => returns_pure _

/-- Nothing but an addition can go wrong. -/
theorem add_eq_error {fault : Fault} (h : summary.add cost = .error fault) :
    fault = .addition := by
  rcases bind_eq_error.1 h with h | ⟨computeTime, _, h⟩
  · exact plus_eq_error h
  rcases bind_eq_error.1 h with h | ⟨memoryTime, _, h⟩
  · exact plus_eq_error h
  rcases bind_eq_error.1 h with h | ⟨time, _, h⟩
  · exact plus_eq_error h
  rcases bind_eq_error.1 h with h | ⟨executionTime, _, h⟩
  · exact plus_eq_error h
  · cases h

/-- A cost that was added has not left the range anywhere. -/
theorem fits_of_add (h : Sums costs summary) (hadd : summary.add cost = .ok next) :
    Fits cost.time ∧ Fits ((costs ++ [cost]).map fun cost => cost.computeTime.toInt).sum ∧
      Fits ((costs ++ [cost]).map fun cost => cost.memoryTime.toInt).sum ∧
      Fits ((costs ++ [cost]).map NodeCost.time).sum := by
  have hnext := sums_of_add h hadd
  rw [← hnext.computeTime, ← hnext.memoryTime, ← hnext.executionTime]
  obtain ⟨_, _, hadd⟩ := bind_eq_ok.1 hadd
  obtain ⟨_, _, hadd⟩ := bind_eq_ok.1 hadd
  obtain ⟨time, htime, _⟩ := bind_eq_ok.1 hadd
  rw [NodeCost.time, ← plus_eq_ok_iff.1 htime]
  exact ⟨fits_toInt _, fits_toInt _, fits_toInt _, fits_toInt _⟩

/-- Costs can be added up if their times fit. -/
theorem returns_total (h : TimesFit costs) : Returns (total costs) := by
  refine returns_foldlM fun done cost summary hdone hsummary => ?_
  obtain ⟨htimes, hcompute, hmemory, hexecution⟩ :=
    h (done ++ [cost]) ((List.mem_inits _ _).2 hdone)
  exact returns_add (total_eq_ok hsummary) (htimes cost (by simp)) hcompute hmemory hexecution

/-- Costs cannot be added up if their times do not fit. -/
theorem total_of_not_timesFit (h : ¬ TimesFit costs) : total costs = .error .addition := by
  refine foldlM_stops ⟨nofun, fits_toInt 0, fits_toInt 0, fits_toInt 0⟩ ?_ ?_ h
  · intro done cost summary hsummary hfits
    exact returns_add (total_eq_ok hsummary) (hfits.1 cost (by simp)) hfits.2.1 hfits.2.2.1
      hfits.2.2.2
  · intro done cost summary hsummary hdone hnot
    cases hadd : summary.add cost with
    | error fault => rw [add_eq_error hadd]
    | ok next =>
      -- What was added fits, so the condition would hold here too.
      obtain ⟨htime, hsums⟩ := fits_of_add (total_eq_ok hsummary) hadd
      refine absurd ⟨fun other hother => ?_, hsums⟩ hnot
      rcases List.mem_append.1 hother with hother | hother
      · exact hdone.1 other hother
      · rwa [List.mem_singleton.1 hother]

end CostSummary

/-! ## Estimates -/

/-- The estimate with the given entries, added one after the other. -/
def Estimate.ofCosts (costs : List (String × NodeCost)) : Except Fault Estimate :=
  costs.foldlM (fun estimate entry => estimate.add entry.1 entry.2) .empty

/-- An estimate has the last cost of each name and the times of all costs. -/
theorem Estimate.ofCosts_eq (costs : List (String × NodeCost)) :
    ofCosts costs = (CostSummary.total (costs.map Prod.snd)).map fun summary =>
      ⟨.ofList costs, summary⟩ := by
  induction costs using List.reverseRecOn with
  | nil => rfl
  | append_singleton costs entry ih =>
    rw [ofCosts] at ih
    rw [ofCosts, List.foldlM_append, ih, CostSummary.total, CostSummary.total, List.map_append,
      List.foldlM_append, NameMap.ofList, NameMap.ofList, List.foldl_append]
    -- The entries never fail, so the sums alone decide whether the loop goes on.
    cases (costs.map Prod.snd).foldlM CostSummary.add .zero with
    | error fault => rfl
    | ok summary =>
      simp only [Except.map, List.map_singleton, List.foldlM_cons, List.foldlM_nil, List.foldl_cons,
        List.foldl_nil, bind, Except.bind, Estimate.add]
      cases summary.add entry.2 with
      | error fault => rfl
      | ok next => rfl

/-- An estimate has the given costs as its entries and their sums in its summary. -/
theorem Estimate.ofCosts_eq_ok {costs : List (String × NodeCost)} {estimate : Estimate}
    (h : ofCosts costs = .ok estimate) : estimate.nodes = .ofList costs ∧
      CostSummary.Sums (costs.map Prod.snd) estimate.summary := by
  rw [ofCosts_eq] at h
  cases htotal : CostSummary.total (costs.map Prod.snd) with
  | error fault => rw [htotal] at h; cases h
  | ok summary =>
    rw [htotal] at h
    cases h
    exact ⟨rfl, CostSummary.total_eq_ok htotal⟩

/-- An estimate can be formed if the times of its entries fit. -/
theorem Estimate.returns_ofCosts {costs : List (String × NodeCost)}
    (h : CostSummary.TimesFit (costs.map Prod.snd)) : Returns (ofCosts costs) := by
  obtain ⟨summary, hsummary⟩ := CostSummary.returns_total h
  exact ⟨_, by rw [ofCosts_eq, hsummary]; rfl⟩

/-- Times that do not fit on the way stop the estimate. -/
theorem Estimate.ofCosts_of_not_timesFit {costs : List (String × NodeCost)}
    (h : ¬ CostSummary.TimesFit (costs.map Prod.snd)) : ofCosts costs = .error .addition := by
  rw [ofCosts_eq, CostSummary.total_of_not_timesFit h]
  rfl

namespace CostTable

/-- The costs that the table has for a list of nodes. -/
def costs (table : CostTable) (nodes : List Node) : List (String × NodeCost) :=
  nodes.filterMap fun node => (table.cost? node.name).map fun cost => (node.name, cost)

/-- A table is priced by its entries for the nodes, one after the other. -/
theorem price_eq (table : CostTable) (nodes : List Node) :
    table.price nodes = Estimate.ofCosts (table.costs nodes) := by
  rw [price, Estimate.ofCosts, costs]
  generalize Estimate.empty = estimate
  induction nodes generalizing estimate with
  | nil => rfl
  | cons node nodes ih =>
    rw [List.foldlM_cons, List.filterMap_cons]
    cases table.cost? node.name with
    | none => exact ih estimate
    | some cost =>
      rw [Option.map_some, List.foldlM_cons]
      exact congrArg _ (funext ih)

end CostTable

end DevicePlacement

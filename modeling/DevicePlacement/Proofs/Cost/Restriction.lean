import DevicePlacement.Proofs.Cost.Preparation
import DevicePlacement.Proofs.Skipping

/-!
# Estimates are restrictions

A prepared cost table answers with what it holds for the names of a graph
(`CostTable.Restricts`). Names that are not in the graph do not matter, however many entries
they have, and nodes that are not in the table have no entry.

What an estimate costs is found out in three ways. Its summary is added up along the nodes of
the graph, its own total compute cost along its entries, and the statistics of the graph look
every node up in it. If no name is repeated, every entry belongs to one node, so the three agree
(`CostTable.views_of_prepared`): the entries may be gone through in any order, which decides no
more than whether a sum leaves the 64-bit range on the way.
-/

namespace DevicePlacement

open Checked (PartialSumsFit)
open CostSummary (Sums TimesFit)

/-! ## Statistics of an estimate -/

namespace CostStats

variable {estimate : Estimate} {graph : Graph} {nodes : List Node} {node : Node}
  {stats next : CostStats}

/-- The costs that an estimate has for a list of nodes. -/
def found (estimate : Estimate) (nodes : List Node) : List NodeCost :=
  nodes.filterMap fun node => estimate.cost? node.name

/-- The statistics of some nodes count those with a cost and those without, and add up the compute
    costs in the order of the nodes. -/
structure Counts (estimate : Estimate) (nodes : List Node) (stats : CostStats) : Prop where
  withCost : stats.nodesWithCost = (found estimate nodes).length
  all : stats.nodesWithCost + stats.nodesWithoutCost = nodes.length
  total : Checked.total ((found estimate nodes).map NodeCost.computeCost) =
    .ok stats.totalComputeCost
  summary : stats.summary = estimate.summary

theorem found_concat (estimate : Estimate) (nodes : List Node) (node : Node) :
    found estimate (nodes ++ [node]) =
      found estimate nodes ++ (estimate.cost? node.name).toList := by
  rw [found, List.filterMap_append, ← found]
  cases h : estimate.cost? node.name <;> simp [h]

/-- One node more is counted, and so are its costs if it has an entry. -/
theorem counts_of_add (h : Counts estimate nodes stats)
    (hadd : stats.add (estimate.cost? node.name) = .ok next) :
    Counts estimate (nodes ++ [node]) next := by
  have hall := h.all
  cases hcost : estimate.cost? node.name with
  | none =>
    rw [hcost] at hadd
    cases hadd
    -- The node is counted, although it adds nothing to the sums.
    have hfound : found estimate (nodes ++ [node]) = found estimate nodes := by
      rw [found_concat, hcost, Option.toList_none, List.append_nil]
    exact {
      withCost := by rw [hfound, h.withCost]
      all := by rw [List.length_append, List.length_singleton, ← hall]; rfl
      total := by rw [hfound, h.total]
      summary := h.summary }
  | some cost =>
    rw [hcost] at hadd
    obtain ⟨total, htotal, hadd⟩ := Checked.bind_eq_ok.1 hadd
    obtain ⟨size, _, hadd⟩ := Checked.bind_eq_ok.1 hadd
    cases hadd
    have hfound : found estimate (nodes ++ [node]) = found estimate nodes ++ [cost] := by
      rw [found_concat, hcost, Option.toList_some]
    exact {
      withCost := by rw [hfound, List.length_append, ← h.withCost, List.length_singleton]
      all := by
        rw [List.length_append, List.length_singleton, ← hall]
        exact Nat.add_right_comm _ _ _
      total := by
        rw [hfound, List.map_append, List.map_singleton, Checked.total,
          Checked.foldlM_append_eq_ok]
        exact ⟨_, h.total, Checked.foldlM_cons_eq_ok.2 ⟨total, htotal, rfl⟩⟩
      summary := h.summary }

/-- The statistics of a graph count all nodes that have an entry, repeated names included. -/
theorem counts_ofGraph (h : ofGraph graph estimate = .ok stats) :
    Counts estimate graph.nodes stats :=
  Checked.foldlM_keeps_along (P := Counts estimate) ⟨rfl, rfl, rfl, rfl⟩
    (fun _ _ _ _ _ _ hcounts hadd _ => counts_of_add hcounts hadd) h

/-- The statistics of a graph say the same as the estimate itself. -/
structure Agrees (stats : CostStats) (graph : Graph) (estimate : Estimate) : Prop where
  totalComputeCost : estimate.totalComputeCost = .ok stats.totalComputeCost
  /-- The total is the same in whatever order the entries are added up, if it can be. -/
  anyOrder : ∀ costs, costs.Perm (estimate.nodes.values.map NodeCost.computeCost) →
    Checked.total costs =
      if PartialSumsFit costs then .ok stats.totalComputeCost else .error .addition
  nodesWithCost : stats.nodesWithCost = estimate.nodes.size
  nodes : stats.nodesWithCost + stats.nodesWithoutCost = graph.nodes.length
  summary : stats.summary = estimate.summary

end CostStats

/-- In another order, numbers have the same total, if they can be added up at all. -/
theorem Checked.total_of_perm {numbers others : List Int64} {sum : Int64}
    (h : total numbers = .ok sum) (hperm : others.Perm numbers) :
    total others = if PartialSumsFit others then .ok sum else .error .addition :=
  total_eq_ite ((hperm.map Int64.toInt).sum_eq.trans (total_eq_ok h).symm)

/-- If the entries are what the nodes find, the statistics agree with the estimate. -/
theorem CostStats.agrees_of_values {graph : Graph} {estimate : Estimate} {stats : CostStats}
    (hvalues : estimate.nodes.values = found estimate graph.nodes)
    (h : ofGraph graph estimate = .ok stats) : stats.Agrees graph estimate := by
  have hcounts := counts_ofGraph h
  have htotal : estimate.totalComputeCost = .ok stats.totalComputeCost := by
    rw [Estimate.totalComputeCost, hvalues, hcounts.total]
  refine ⟨htotal, fun costs hperm => Checked.total_of_perm htotal hperm, ?_, hcounts.all,
    hcounts.summary⟩
  rw [hcounts.withCost, ← hvalues, NameMap.values, List.length_map, NameMap.size]

namespace CostTable

variable {table : CostTable} {graph : Graph} {estimate : Estimate} {nodes : List Node}

/-- The entries of the table for the names of a graph. -/
def restriction (table : CostTable) (graph : Graph) : List (String × NodeCost) :=
  table.nodes.entries.filter fun entry => entry.1 ∈ graph.nodes.map Node.name

/-- An estimate is the table restricted to the names of a graph, with the sums of the times. -/
structure Restricts (table : CostTable) (graph : Graph) (estimate : Estimate) : Prop where
  entries : estimate.nodes.entries.Perm (table.restriction graph)
  cost : ∀ name, estimate.cost? name =
    if name ∈ graph.nodes.map Node.name then table.cost? name else none
  times : Sums ((table.restriction graph).map Prod.snd) estimate.summary
  executionTime : estimate.summary.executionTime.toInt =
    estimate.summary.computeTime.toInt + estimate.summary.memoryTime.toInt

/-- A table has costs for the nodes that it has entries for. -/
theorem mem_costs_iff {name : String} {cost : NodeCost} : (name, cost) ∈ table.costs nodes ↔
    name ∈ nodes.map Node.name ∧ table.cost? name = some cost := by
  rw [costs, List.mem_filterMap, List.mem_map]
  constructor
  · rintro ⟨node, hnode, hcost⟩
    obtain ⟨_, hcost, heq⟩ := Option.map_eq_some_iff.1 hcost
    cases heq
    exact ⟨⟨node, hnode, rfl⟩, hcost⟩
  · rintro ⟨⟨node, hnode, rfl⟩, hcost⟩
    exact ⟨node, hnode, by rw [hcost, Option.map_some]⟩

/-- The restriction of a table has the entries of names that the graph has. -/
theorem mem_restriction_iff {name : String} {cost : NodeCost} :
    (name, cost) ∈ table.restriction graph ↔
      name ∈ graph.nodes.map Node.name ∧ table.cost? name = some cost := by
  rw [restriction, List.mem_filter, decide_eq_true_iff, and_comm, cost?, NameMap.find?,
    NameMap.lookup_eq_some_iff table.nodes.nodup]

/-- The costs come in the order of the nodes, with some left out. -/
theorem sublist_map_fst_costs (table : CostTable) (nodes : List Node) :
    ((table.costs nodes).map Prod.fst).Sublist (nodes.map Node.name) := by
  induction nodes with
  | nil => exact .slnil
  | cons node nodes ih =>
    rw [costs, List.filterMap_cons, List.map_cons]
    cases table.cost? node.name with
    | none => exact ih.cons _
    | some cost => exact ih.cons_cons _

/-- What the table has for the nodes is its restriction to their names, in another order. -/
theorem perm_restriction (hnames : (graph.nodes.map Node.name).Nodup) :
    (table.costs graph.nodes).Perm (table.restriction graph) := by
  have hcosts : (table.costs graph.nodes).Nodup :=
    (hnames.sublist (table.sublist_map_fst_costs graph.nodes)).of_map
  have hrestriction : (table.restriction graph).Nodup := table.nodes.nodup.of_map.filter _
  refine (List.perm_ext_iff_of_nodup hcosts hrestriction).2 fun entry => ?_
  rw [mem_costs_iff, mem_restriction_iff]

/-- Without repeated names, an estimate with the costs of the nodes has nothing else. -/
theorem restricts_of_ofCosts (hnames : (graph.nodes.map Node.name).Nodup)
    (h : Estimate.ofCosts (table.costs graph.nodes) = .ok estimate) :
    estimate.nodes.entries = table.costs graph.nodes ∧ table.Restricts graph estimate := by
  obtain ⟨hnodes, hsums⟩ := Estimate.ofCosts_eq_ok h
  have hkeys := hnames.sublist (table.sublist_map_fst_costs graph.nodes)
  have hentries : estimate.nodes.entries = table.costs graph.nodes := by
    rw [hnodes, NameMap.entries_ofList_of_nodup hkeys]
  have hperm : (table.costs graph.nodes).Perm (table.restriction graph) := perm_restriction hnames
  refine ⟨hentries, ?_, fun name => Option.ext fun cost => ?_, hsums.perm (hperm.map Prod.snd),
    hsums.executionTime_eq⟩
  · rwa [hentries]
  · rw [Estimate.cost?, NameMap.find?, hentries, NameMap.lookup_eq_some_iff hkeys, mem_costs_iff]
    simp

/-- The statistics find the costs that the table has for the nodes. -/
theorem found_of_restricts (h : table.Restricts graph estimate) :
    CostStats.found estimate graph.nodes = (table.costs graph.nodes).map Prod.snd := by
  rw [CostStats.found, costs, List.map_filterMap]
  refine List.filterMap_congr fun node hnode => ?_
  rw [h.cost, if_pos (List.mem_map_of_mem hnode), Option.map_map]
  exact Option.map_id'.symm

/-- For a graph without repeated names that it is prepared for, a table has as estimate its
    restriction to the names of the graph, if the times can be summed up. If the costs and the
    sizes can be, too, the statistics of the graph agree with the estimate. -/
theorem views_of_prepared (hprepared : table.preparedFor = some graph.key)
    (hnames : (graph.nodes.map Node.name).Nodup)
    (htimes : TimesFit ((table.costs graph.nodes).map Prod.snd)) :
    ∃ estimate, table.predict graph = .ok estimate ∧ table.Restricts graph estimate ∧
      (estimate.SumsFit graph.nodes →
        ∃ stats, CostStats.ofGraph graph estimate = .ok stats ∧ stats.Agrees graph estimate) := by
  obtain ⟨estimate, hestimate⟩ := Estimate.returns_ofCosts htimes
  obtain ⟨hentries, hrestricts⟩ := restricts_of_ofCosts hnames hestimate
  refine ⟨estimate, ?_, hrestricts, fun hsums => ?_⟩
  · rw [predict_of_some hprepared, if_pos rfl, hestimate]
    rfl
  · obtain ⟨stats, hstats⟩ := CostStats.returns_ofGraph_of_sumsFit hsums
    refine ⟨stats, hstats, CostStats.agrees_of_values ?_ hstats⟩
    rw [found_of_restricts hrestricts, NameMap.values, hentries]

/-- Three nodes, of which `measured` knows two. -/
def workload : Graph :=
  .ofNodes [⟨"mm", "MatMul", "dev0", []⟩, ⟨"y", "Relu", "dev0", [.data "mm" 0]⟩,
    ⟨"z", "Relu", "dev1", [.data "y" 0]⟩]

/-- A table with an entry that would be too large to be added to the others, if its node were
    in the graph. -/
def measured : CostTable where
  nodes := .ofList [("stale", .ofCompute Int64.maxValue Int64.maxValue), ("y", ⟨-2, 8, 5, 3⟩),
    ("mm", .ofCompute 7 256)]
  preparedFor := some workload.key

theorem views_of_prepared_measured : measured.preparedFor = some workload.key ∧
    (workload.nodes.map Node.name).Nodup ∧
    TimesFit ((measured.costs workload.nodes).map Prod.snd) ∧
    ∃ estimate stats, measured.predict workload = .ok estimate ∧
      estimate.SumsFit workload.nodes ∧ CostStats.ofGraph workload estimate = .ok stats ∧
      estimate.nodes.entries.Perm (measured.restriction workload) ∧
      estimate.totalComputeCost = .ok stats.totalComputeCost := by
  have hnames : (workload.nodes.map Node.name).Nodup := by decide
  have htimes : TimesFit ((measured.costs workload.nodes).map Prod.snd) := by decide +kernel
  obtain ⟨estimate, hpredict, hrestricts, hstats⟩ := views_of_prepared rfl hnames htimes
  have hsums : (measured.predict workload).toOption.map (fun estimate =>
      decide (estimate.SumsFit workload.nodes)) = some true := by
    decide +kernel
  obtain ⟨other, hother, hsums⟩ := Checked.exists_ok_of_toOption hsums
  cases hpredict.symm.trans hother
  obtain ⟨stats, hstats, hagrees⟩ := hstats (of_decide_eq_true hsums)
  exact ⟨rfl, hnames, htimes, estimate, stats, hpredict, of_decide_eq_true hsums, hstats,
    hrestricts.entries, hagrees.totalComputeCost⟩

end CostTable

end DevicePlacement

import DevicePlacement.Cost.OpProfiles
import DevicePlacement.Proofs.Cost.Estimate
import DevicePlacement.Proofs.Lists
import DevicePlacement.Proofs.NameMap
import DevicePlacement.Proofs.Placement.References

/-!
# Prices by op type

An estimator that prices by op type is set up by calls (`OpProfiles.Run`), and the price of a
node can be read off them: its profile is the one that was set last for its type, or else the
last fallback (`OpProfiles.Run.charges`). The time for its output is a quotient by the bandwidth,
which no call can bring below one, whatever number it is given. So the divisor is never zero and
the quotient always fits (`Checked.quotient?_of_one_le`).

* `OpProfiles.predict_of_run`: after any calls, a graph in which no name is repeated has an
  estimate with one entry for each node and the sums of all times, unless a sum does not fit.
* `OpProfiles.latest_of_predict`: if names are repeated, the entry of a name is the price of its
  *last* node. A reference means the first one, which has the price of its own type exactly if
  the last one has the same price.

So a producer can be charged with the output of a node that nobody refers to
(`OpProfiles.charges_other_node`).
-/

namespace DevicePlacement

open CostSummary (Sums TimesFit)

/-! ## Division -/

namespace Checked

/-- The quotient of two 64-bit numbers, rounded towards zero. There is none if the divisor is
    zero or the quotient does not fit 64 bits. -/
def quotient? (a b : Int) : Option Int :=
  if b ≠ 0 ∧ Fits (a.tdiv b) then some (a.tdiv b) else none

/-- A 64-bit number stays one when it is divided by a positive number. -/
theorem fits_tdiv (a : Int64) {b : Int} (hb : 1 ≤ b) : Fits (a.toInt.tdiv b) := by
  obtain ⟨hmin, hmax⟩ := fits_toInt a
  have habs := Int.natAbs_tdiv_le_natAbs a.toInt b
  -- The quotient is no larger than the dividend and, the divisor being positive, has its sign.
  rcases Int.le_total 0 a.toInt with ha | ha
  · have hsign := Int.tdiv_nonneg ha (Int.le_trans (by decide) hb)
    have hneg : Int64.minValue.toInt ≤ 0 := by decide
    exact ⟨by omega, by omega⟩
  · have hsign := Int.tdiv_nonneg (Int.neg_nonneg_of_nonpos ha) (Int.le_trans (by decide) hb)
    rw [Int.neg_tdiv] at hsign
    have hpos : 0 ≤ Int64.maxValue.toInt := by decide
    exact ⟨by omega, by omega⟩

/-- A 64-bit number can be divided by every number from one on. -/
theorem quotient?_of_one_le (a : Int64) {b : Int} (hb : 1 ≤ b) :
    quotient? a.toInt b = some (a.toInt.tdiv b) :=
  if_pos ⟨by omega, fits_tdiv a hb⟩

end Checked

/-! ## First and last nodes -/

namespace Graph

variable {graph : Graph} {name : String} {node : Node}

/-- The last node of a name. -/
def lastNode? (graph : Graph) (name : String) : Option Node :=
  graph.nodes.reverse.find? fun node => node.name = name

/-- A name that has a first node has a last one. -/
theorem exists_lastNode? (h : graph.node? name = some node) :
    ∃ last, graph.lastNode? name = some last := by
  rw [node?] at h
  have hname := List.find?_some h
  rw [← Option.isSome_iff_exists, lastNode?, List.find?_isSome]
  exact ⟨node, List.mem_reverse.2 (List.mem_of_find?_eq_some h), hname⟩

end Graph

namespace OpProfiles

open Checked (quotient?)

variable {prices : OpProfiles} {graph : Graph} {estimate : Estimate}

/-! ## Calls -/

/-- What can be done with an estimator. -/
inductive Call
  /-- The profile of an op type is set. -/
  | setProfile (op : String) (profile : OpProfile)
  /-- The fallback for the other op types is set. -/
  | setFallback (profile : OpProfile)
  /-- The bandwidth is set. -/
  | setBandwidth (bandwidth : Int64)
  /-- The estimator is prepared for a graph. -/
  | prepare (graph : Graph)

namespace Call

/-- The estimator after a call. -/
def apply (prices : OpProfiles) : Call → OpProfiles
  | setProfile op profile => prices.withProfile op profile.computeCost profile.outputBytes
  | setFallback profile => prices.withFallback profile
  | setBandwidth bandwidth => prices.withBandwidth bandwidth
  | prepare graph => prices.prepare graph

/-- The profile that a call sets for an op type. -/
def profile? (op : String) : Call → Option OpProfile
  | setProfile other profile => if other = op then some profile else none
  | _ => none

/-- The fallback that a call sets. -/
def fallback? : Call → Option OpProfile
  | setFallback profile => some profile
  | _ => none

/-- The bandwidth that a call asks for. -/
def bandwidth? : Call → Option Int64
  | setBandwidth bandwidth => some bandwidth
  | _ => none

end Call

/-- An estimator is reached by calls, made one after the other. The one that knows the common op
    types has had their profiles set. -/
inductive Run : List Call → OpProfiles → Prop
  | empty : Run [] empty
  | standard : Run (common.map fun entry => .setProfile entry.1 entry.2) standard
  | concat {calls : List Call} {prices : OpProfiles} (hrun : Run calls prices) (call : Call) :
    Run (calls ++ [call]) (call.apply prices)

/-- The fallback that was set last. -/
def lastFallback (calls : List Call) : OpProfile :=
  (calls.filterMap Call.fallback?).getLast?.getD empty.fallback

/-- The profile that was set last for an op type, or else the fallback. -/
def lastProfile (calls : List Call) (op : String) : OpProfile :=
  (calls.filterMap (Call.profile? op)).getLast?.getD (lastFallback calls)

/-- The bandwidth that was asked for last, but at least one. -/
def lastBandwidth (calls : List Call) : Int :=
  max 1 ((calls.filterMap Call.bandwidth?).getLast?.getD empty.bandwidth).toInt

/-- The cost of a node of an op type is what the calls ask for. -/
structure Charges (calls : List Call) (op : String) (cost : NodeCost) : Prop where
  computeCost : cost.computeCost = (lastProfile calls op).computeCost
  maxMemorySize : cost.maxMemorySize = (lastProfile calls op).outputBytes
  computeTime : cost.computeTime = (lastProfile calls op).computeCost
  /-- The division goes through and gives the time spent on memory. -/
  memoryTime : quotient? (lastProfile calls op).outputBytes.toInt (lastBandwidth calls) =
    some cost.memoryTime.toInt

/-- What a call sets is set afterwards, and the rest is as before. -/
structure Call.Sets (call : Call) (prices next : OpProfiles) : Prop where
  profiles : ∀ op, next.profiles.find? op = (call.profile? op).or (prices.profiles.find? op)
  fallback : next.fallback = call.fallback?.getD prices.fallback
  bandwidth : next.bandwidth.toInt =
    (call.bandwidth?.map fun bandwidth => max 1 bandwidth.toInt).getD prices.bandwidth.toInt
  /-- Nothing undoes a preparation. -/
  prepared : (∃ graph, call = .prepare graph) ∨ prices.preparedFor.isSome = true →
    next.preparedFor.isSome = true

/-- A bandwidth that is set is at least one, whatever number was given. -/
theorem Call.sets_setBandwidth (prices : OpProfiles) (bandwidth : Int64) :
    (Call.setBandwidth bandwidth).Sets prices (prices.withBandwidth bandwidth) := by
  rw [withBandwidth]
  split
  · next h =>
    exact ⟨fun _ => rfl, rfl, (Int.max_eq_right h).symm, by simp⟩
  · next h =>
    exact ⟨fun _ => rfl, rfl, (Int.max_eq_left (Int.le_of_lt (Int.not_le.1 h))).symm, by simp⟩

/-- Every call changes its own part of the prices and leaves the rest. -/
theorem Call.sets_apply (call : Call) (prices : OpProfiles) :
    call.Sets prices (call.apply prices) := by
  cases call with
  | setProfile other profile =>
    refine ⟨fun op => ?_, rfl, rfl, by simp [apply, withProfile]⟩
    change (prices.profiles.insert other profile).find? op = _
    rw [NameMap.find?_insert, profile?]
    split <;> rfl
  | setFallback profile => exact ⟨fun _ => rfl, rfl, rfl, by simp [apply, withFallback]⟩
  | setBandwidth bandwidth => exact sets_setBandwidth prices bandwidth
  | prepare graph => exact ⟨fun _ => rfl, rfl, rfl, fun _ => rfl⟩

/-- Profiles that are given in a list are those that calls set one after the other. -/
theorem find?_ofList_eq_last (entries : List (String × OpProfile)) (op : String) :
    (NameMap.ofList entries).find? op = ((entries.map fun entry =>
      Call.setProfile entry.1 entry.2).filterMap (Call.profile? op)).getLast? := by
  induction entries using List.reverseRecOn with
  | nil => rfl
  | append_singleton entries entry ih =>
    rw [List.map_append, List.map_singleton, getLast?_filterMap_concat, ← ih, NameMap.ofList,
      List.foldl_append]
    exact ((Call.setProfile entry.1 entry.2).sets_apply
      { empty with profiles := .ofList entries }).profiles op

namespace Run

variable {calls : List Call}

/-- The profile of an op type is the one that was set last. -/
theorem find?_profiles (h : Run calls prices) (op : String) :
    prices.profiles.find? op = (calls.filterMap (Call.profile? op)).getLast? := by
  induction h with
  | empty => rfl
  | standard => exact find?_ofList_eq_last common op
  | concat _ call ih => rw [(call.sets_apply _).profiles, ih, getLast?_filterMap_concat]

/-- So is the profile that stands in for those that are missing. -/
theorem fallback_eq (h : Run calls prices) : prices.fallback = lastFallback calls := by
  induction h with
  | empty => rfl
  | standard => rfl
  | concat _ call ih =>
    rw [(call.sets_apply _).fallback, ih, lastFallback, lastFallback, getLast?_filterMap_concat]
    cases call.fallback? <;> rfl

/-- And so is the bandwidth, raised to one if it was lower. -/
theorem bandwidth_eq (h : Run calls prices) : prices.bandwidth.toInt = lastBandwidth calls := by
  induction h with
  | empty => rfl
  | standard => rfl
  | concat _ call ih =>
    rw [(call.sets_apply _).bandwidth, ih, lastBandwidth, lastBandwidth, getLast?_filterMap_concat]
    cases call.bandwidth? <;> rfl

/-- Once prepared, an estimator stays so. -/
theorem isSome_preparedFor (h : Run calls prices) (hprepared : .prepare graph ∈ calls) :
    prices.preparedFor.isSome = true := by
  induction h with
  | empty => cases hprepared
  | standard => simp at hprepared
  | concat _ call ih =>
    refine (call.sets_apply _).prepared ?_
    rcases List.mem_append.1 hprepared with hbefore | hlast
    · exact .inr (ih hbefore)
    · exact .inl ⟨graph, (List.mem_singleton.1 hlast).symm⟩

/-- An op type has the last profile that was set for it, or else the last that stands in. -/
theorem profile_eq (h : Run calls prices) (op : String) :
    prices.profile op = lastProfile calls op := by
  rw [profile, h.find?_profiles, h.fallback_eq, lastProfile]

/-- After calls, the price of every op type is what the calls ask for. -/
theorem charges (h : Run calls prices) (op : String) : Charges calls op (prices.cost op) where
  computeCost := congrArg OpProfile.computeCost (h.profile_eq op)
  maxMemorySize := congrArg OpProfile.outputBytes (h.profile_eq op)
  computeTime := congrArg OpProfile.computeCost (h.profile_eq op)
  memoryTime := by
    have hbandwidth : 1 ≤ lastBandwidth calls := Int.le_max_left ..
    have hfits := Checked.fits_tdiv (lastProfile calls op).outputBytes hbandwidth
    rw [Checked.quotient?_of_one_le _ hbandwidth, cost, h.profile_eq, h.bandwidth_eq]
    exact congrArg some (Int64.toInt_ofInt_of_le hfits.1
      (Int.lt_of_le_of_lt hfits.2 (by decide))).symm

end Run

/-! ## Estimates -/

/-- The prices of a list of nodes, by name. -/
def costs (prices : OpProfiles) (nodes : List Node) : List (String × NodeCost) :=
  nodes.map fun node => (node.name, prices.cost node.op)

theorem map_snd_costs (prices : OpProfiles) (nodes : List Node) :
    (prices.costs nodes).map Prod.snd = nodes.map fun node => prices.cost node.op := by
  rw [costs, List.map_map]
  rfl

/-- A graph is priced node by node, by op type. -/
theorem price_eq (prices : OpProfiles) (nodes : List Node) :
    prices.price nodes = Estimate.ofCosts (prices.costs nodes) := by
  rw [price, Estimate.ofCosts, costs, List.foldlM_map]

/-- Prices that were prepared once answer for any graph. -/
theorem predict_of_prepared (hprepared : prices.preparedFor.isSome = true) (graph : Graph) :
    prices.predict graph = (Estimate.ofCosts (prices.costs graph.nodes)).mapError .fault := by
  obtain ⟨key, hkey⟩ := Option.isSome_iff_exists.1 hprepared
  rw [predict, hkey, price_eq]

/-- An estimate has the prices of the nodes, entered one after the other, and their sums. -/
theorem predict_of_timesFit (hprepared : prices.preparedFor.isSome = true)
    (hfit : TimesFit (graph.nodes.map fun node => prices.cost node.op)) :
    ∃ estimate, prices.predict graph = .ok estimate ∧
      estimate.nodes = .ofList (prices.costs graph.nodes) ∧
      Sums (graph.nodes.map fun node => prices.cost node.op) estimate.summary := by
  rw [← map_snd_costs] at hfit ⊢
  obtain ⟨estimate, hestimate⟩ := Estimate.returns_ofCosts hfit
  refine ⟨estimate, ?_, Estimate.ofCosts_eq_ok hestimate⟩
  rw [predict_of_prepared hprepared, hestimate]
  rfl

/-- If the times do not fit, the answer is the fault of an addition. -/
theorem predict_of_not_timesFit (hprepared : prices.preparedFor.isSome = true)
    (hfit : ¬ TimesFit (graph.nodes.map fun node => prices.cost node.op)) :
    prices.predict graph = .error (.fault .addition) := by
  rw [← map_snd_costs] at hfit
  rw [predict_of_prepared hprepared, Estimate.ofCosts_of_not_timesFit hfit]
  rfl

/-- After any calls, the prices are what the calls ask for, and no division fails. A graph
    without repeated names has an estimate with the price of each node and the sums of the times,
    unless a sum does not fit. -/
theorem predict_of_run {calls : List Call} (h : Run calls prices)
    (hprepared : .prepare graph ∈ calls) (hnames : (graph.nodes.map Node.name).Nodup) :
    (∀ op, Charges calls op (prices.cost op)) ∧
      if TimesFit (graph.nodes.map fun node => prices.cost node.op) then
        ∃ estimate, prices.predict graph = .ok estimate ∧
          estimate.nodes.entries = graph.nodes.map (fun node => (node.name, prices.cost node.op)) ∧
          Sums estimate.nodes.values estimate.summary ∧
          estimate.summary.executionTime.toInt =
            estimate.summary.computeTime.toInt + estimate.summary.memoryTime.toInt
      else prices.predict graph = .error (.fault .addition) := by
  refine ⟨h.charges, ?_⟩
  split_ifs with hfit
  · obtain ⟨estimate, hpredict, hnodes, hsums⟩ :=
      predict_of_timesFit (h.isSome_preparedFor hprepared) hfit
    -- No name comes twice, so every node has an entry of its own.
    have hkeys : ((prices.costs graph.nodes).map Prod.fst).Nodup := by
      rw [costs, List.map_map]
      exact hnames
    have hentries : estimate.nodes.entries = prices.costs graph.nodes := by
      rw [hnodes, NameMap.entries_ofList_of_nodup hkeys]
    refine ⟨estimate, hpredict, hentries, ?_, hsums.executionTime_eq⟩
    rwa [NameMap.values, hentries, map_snd_costs]
  · exact predict_of_not_timesFit (h.isSome_preparedFor hprepared) hfit

/-- Nodes with a type of its own, an unknown one and a common one. -/
def scratch : Graph :=
  .ofNodes [⟨"s", "Scratch", "dev0", []⟩, ⟨"t", "Other", "dev0", []⟩, ⟨"m", "MatMul", "", []⟩]

/-- The last bandwidth asked for is minus one, by which the output of `Scratch` cannot be
    divided. -/
def strained : List Call :=
  (common.map fun entry => .setProfile entry.1 entry.2) ++ [.setBandwidth 8] ++
    [.setProfile "Scratch" ⟨7, Int64.minValue⟩] ++ [.prepare scratch] ++ [.setBandwidth (-1)]

theorem predict_of_run_strained : ∃ prices estimate, Run strained prices ∧
    .prepare scratch ∈ strained ∧ (scratch.nodes.map Node.name).Nodup ∧
    quotient? Int64.minValue.toInt (-1) = none ∧
    prices.predict scratch = .ok estimate ∧
    estimate.cost? "s" = some ⟨7, Int64.minValue, Int64.minValue, 7⟩ ∧
    estimate.summary.executionTime.toInt =
      estimate.summary.computeTime.toInt + estimate.summary.memoryTime.toInt := by
  have hrun : Run strained _ := .concat (.concat (.concat (.concat .standard _) _) _) _
  have hprepared : .prepare scratch ∈ strained := by simp [strained]
  have hnames : (scratch.nodes.map Node.name).Nodup := by decide
  obtain ⟨_, hpredict⟩ := predict_of_run hrun hprepared hnames
  rw [if_pos (by decide +kernel)] at hpredict
  obtain ⟨estimate, hestimate, hentries, _, htime⟩ := hpredict
  refine ⟨_, estimate, hrun, hprepared, hnames, by decide, hestimate, ?_, htime⟩
  rw [Estimate.cost?, NameMap.find?, hentries]
  decide +kernel

/-! ## Repeated names -/

/-- An estimate has the price of the last node of each name. -/
structure PricesLatest (prices : OpProfiles) (graph : Graph) (estimate : Estimate) : Prop where
  entry : ∀ name, estimate.cost? name =
    (graph.lastNode? name).map fun last => prices.cost last.op
  /-- The node that a name means has its own price exactly if the last one has the same. -/
  own : ∀ name node, graph.node? name = some node → ∃ last, graph.lastNode? name = some last ∧
    (estimate.cost? name = some (prices.cost node.op) ↔ prices.cost last.op = prices.cost node.op)
  /-- A producer is charged with the output of the last node of its name. -/
  charged : ∀ consumer producers,
    (PricedGraph.ofGraph graph estimate).inputs consumer = .ok producers →
    ∀ producer ∈ producers, ∃ node last cost, graph.nodes[producer]? = some node ∧
      graph.node? node.name = some node ∧ graph.lastNode? node.name = some last ∧
      (PricedGraph.ofGraph graph estimate).cost producer = .ok (some cost) ∧
      cost.maxMemorySize = (prices.profile last.op).outputBytes

/-- That an estimate prices the last node of each name can be told from its entries. -/
theorem pricesLatest_of_entry (h : ∀ name, estimate.cost? name =
    (graph.lastNode? name).map fun last => prices.cost last.op) :
    prices.PricesLatest graph estimate where
  entry := h
  own name node hnode := by
    obtain ⟨last, hlast⟩ := Graph.exists_lastNode? hnode
    refine ⟨last, hlast, ?_⟩
    rw [h, hlast, Option.map_some, Option.some_inj]
  charged consumer producers hinputs producer hproducer := by
    obtain ⟨node, hnode, hproducers⟩ := PricedGraph.of_inputs_ofGraph hinputs
    obtain ⟨first, hfirst, hmeant⟩ := Graph.node?_of_mem_producers (hproducers ▸ hproducer)
    obtain ⟨last, hlast⟩ := Graph.exists_lastNode? hmeant
    have hcost := (PricedGraph.indexes_ofGraph graph estimate).cost producer first hfirst
    rw [h, hlast, Option.map_some] at hcost
    exact ⟨first, last, _, hfirst, hmeant, hlast, hcost, rfl⟩

/-- Once prepared, an estimator has an estimate for every graph of which the times can be summed
    up, and in it a name has the price of its last node. -/
theorem latest_of_predict (hprepared : prices.preparedFor.isSome = true) (graph : Graph) :
    if TimesFit (graph.nodes.map fun node => prices.cost node.op) then
      ∃ estimate, prices.predict graph = .ok estimate ∧ prices.PricesLatest graph estimate
    else prices.predict graph = .error (.fault .addition) := by
  split_ifs with hfit
  · obtain ⟨estimate, hpredict, hnodes, _⟩ := predict_of_timesFit hprepared hfit
    refine ⟨estimate, hpredict, pricesLatest_of_entry fun name => ?_⟩
    rw [Estimate.cost?, hnodes, NameMap.find?_ofList, costs, ← List.map_reverse,
      NameMap.lookup_map, Graph.lastNode?]
  · exact predict_of_not_timesFit hprepared hfit

/-- A name is used again, by a node with a larger output than the first one. -/
def reissued : Graph :=
  .ofNodes [⟨"x", "Const", "dev0", []⟩, ⟨"x", "MatMul", "dev0", []⟩,
    ⟨"sum", "Add", "dev1", [.data "x" 0]⟩]

theorem latest_of_predict_reissued :
    (standard.prepare reissued).preparedFor.isSome = true ∧
      ∃ estimate, (standard.prepare reissued).predict reissued = .ok estimate ∧
        estimate.cost? "x" = some (standard.cost "MatMul") := by
  have hprepared : (standard.prepare reissued).preparedFor.isSome = true := rfl
  have hlatest := latest_of_predict hprepared reissued
  rw [if_pos (by decide +kernel)] at hlatest
  obtain ⟨estimate, hestimate, hprices⟩ := hlatest
  exact ⟨hprepared, estimate, hestimate, hprices.entry "x"⟩

/-- The first node of `reissued` has the price of the second, and the sum is charged with the
    output of a node that it does not refer to. -/
theorem charges_other_node : ∃ estimate,
    (standard.prepare reissued).predict reissued = .ok estimate ∧
    reissued.node? "x" = some ⟨"x", "Const", "dev0", []⟩ ∧
    estimate.cost? "x" ≠ some (standard.cost "Const") ∧
    (PricedGraph.ofGraph reissued estimate).inputs 2 = .ok [0] ∧
    ∃ cost, (PricedGraph.ofGraph reissued estimate).cost 0 = .ok (some cost) ∧
      cost.maxMemorySize ≠ (standard.profile "Const").outputBytes := by
  have hestimate : ((standard.prepare reissued).predict reissued).toOption.map (fun estimate =>
      decide (estimate.cost? "x" = some (standard.cost "MatMul"))) = some true := by
    decide +kernel
  obtain ⟨estimate, hpredict, hestimate⟩ := Checked.exists_ok_of_toOption hestimate
  have hcost : estimate.cost? "x" = some (standard.cost "MatMul") := of_decide_eq_true hestimate
  refine ⟨estimate, hpredict, rfl, ?_, by rfl, standard.cost "MatMul", ?_, by decide +kernel⟩
  · rw [hcost]
    decide +kernel
  · exact ((PricedGraph.indexes_ofGraph reissued estimate).cost 0 _ rfl).trans (congrArg _ hcost)

end OpProfiles

end DevicePlacement

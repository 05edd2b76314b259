import DevicePlacement.Proofs.Placement.External
import DevicePlacement.Proofs.Sweep.Replay
import DevicePlacement.Proofs.Sweep.Tour

/-!
# What moves save

A move lowers the delta of its node, and half of what it lowers comes less from
elsewhere at that node (`Arrivals.gap_sub_gap`). What a moving node ships counts at
its consumers, and those that are left behind on its old device pay for it. So what
the moves save adds up, as long as a node that moves leaves no consumer behind:
neither one that was there from the start (`Graph.LeavesNoConsumer`) nor one that
has moved there before (`Graph.LeavesNoFollower`).

* `relieved`: the external traffic falls at least by half of what the moves have
  lowered;
* `external_le_of_run`: in particular it does not rise, but it can if only the
  consumers that were there from the start are minded (`external_can_rise`);
* `savings_of_run`: if producers come before their consumers, nothing can have moved
  there before, and one move is enough for the external traffic to fall.
-/

namespace DevicePlacement

open Checked Function

/-! ## Nodes that leave others behind -/

namespace Graph

variable {graph : Graph}

/-- Producers come before their consumers. -/
def Topological (graph : Graph) : Prop :=
  ∀ edge ∈ graph.edges, edge.producer < edge.consumer

/-- The node at a position has another device in the placed graph. -/
def Moves (graph placed : Graph) (position : Nat) : Prop :=
  placed.deviceAt position ≠ graph.deviceAt position

/-- No node that moves has a consumer that was on its old device from the start. -/
def LeavesNoConsumer (graph placed : Graph) : Prop :=
  ∀ edge ∈ graph.edges, graph.Moves placed edge.producer →
    graph.deviceAt edge.consumer ≠ graph.deviceAt edge.producer

/-- No node that moves has a consumer that comes earlier and has moved to its old
    device. -/
def LeavesNoFollower (graph placed : Graph) : Prop :=
  ∀ edge ∈ graph.edges, edge.consumer < edge.producer → graph.Moves placed edge.producer →
    graph.Moves placed edge.consumer →
      placed.deviceAt edge.consumer ≠ graph.deviceAt edge.producer

instance (graph : Graph) : Decidable graph.Topological :=
  inferInstanceAs (Decidable (∀ edge ∈ graph.edges, _))

instance (graph placed : Graph) (position : Nat) : Decidable (graph.Moves placed position) :=
  inferInstanceAs (Decidable (_ ≠ _))

instance (graph placed : Graph) : Decidable (graph.LeavesNoConsumer placed) :=
  inferInstanceAs (Decidable (∀ edge ∈ graph.edges, _))

instance (graph placed : Graph) : Decidable (graph.LeavesNoFollower placed) :=
  inferInstanceAs (Decidable (∀ edge ∈ graph.edges, _))

/-- In a topological order no consumer comes earlier. -/
theorem Topological.leavesNoFollower (h : graph.Topological) (placed : Graph) :
    graph.LeavesNoFollower placed := fun edge hedge hlt =>
  absurd hlt (Nat.lt_asymm (h edge hedge))

end Graph

/-- What a move has lowered the delta of its node by. -/
def MoveRecord.saving (made : MoveRecord) : Int :=
  made.deltaBefore.toInt - made.deltaAfter.toInt

namespace Sweep

/-- What moves have lowered deltas by, all together. -/
def savings (moves : List MoveRecord) : Int :=
  (moves.map MoveRecord.saving).sum

/-- One more move saves what it has lowered the delta by. -/
theorem savings_concat (moves : List MoveRecord) (made : MoveRecord) :
    savings (moves ++ [made]) = savings moves + made.saving :=
  sum_map_concat MoveRecord.saving moves made

/-! ## Visits -/

section Search

variable {sweep : Sweep} {state : State} {position origin : Nat} {visit : Visit}

/-- What a visit has saved so far. -/
structure Saved (sweep : Sweep) (state : State) (position origin : Nat) (visit : Visit) :
    Prop where
  gap : visit.traffic.gap = (sweep.priced.arrivals state.placement position).gap visit.current
  savings : savings visit.moves = savings state.moves +
    ((sweep.priced.arrivals state.placement position).gap origin - visit.traffic.gap)
  /-- A node that has left has saved something. -/
  falls : visit.current ≠ origin →
    visit.traffic.gap < (sweep.priced.arrivals state.placement position).gap origin

/-- A hop saves what lies between the delta of the device it leaves and that of its candidate. -/
theorem saved_of_hop {candidate : Nat} {next : Visit} (h : sweep.Saved state position origin visit)
    (hhop : sweep.Hop state.placement position origin candidate visit next) :
    sweep.Saved state position origin next := by
  obtain ⟨made, hmoves, hmade⟩ := hhop.moves
  have hlower : next.traffic.gap < visit.traffic.gap := by
    rw [hhop.gap_eq]
    exact hhop.improves.1
  refine ⟨hhop.current ▸ hhop.gap_eq, ?_, fun _ => ?_⟩
  · rw [hmoves, savings_concat, h.savings, MoveRecord.saving, hmade.deltaBefore, hmade.deltaAfter]
    omega
  · by_cases hc : visit.current = origin
    · rw [← hc, ← h.gap]
      exact hlower
    · exact hlower.trans (h.falls hc)

/-- By induction, the search has saved what lies between its first and its last device. -/
theorem saved_of_search {tried : List Nat}
    (h : sweep.search state position origin tried = .ok visit) :
    sweep.Saved state position origin visit := by
  refine search_keeps (fun visit next candidate _ hsaved hhop => saved_of_hop hsaved hhop) ?_ h
  intro traffic htraffic
  have hgap := PricedGraph.gap_of_traffic htraffic
  exact ⟨hgap, by rw [hgap, sub_self, add_zero], fun hne => absurd rfl hne⟩

end Search

namespace Task

variable {task : Task} {before : Balance} {final : State} {result : Result}

/-! ## Where nodes are -/

theorem deviceAt_of_site {position device : Nat} (h : task.placement.site position = some device) :
    task.graph.deviceAt position = some (task.roster.nameOf device) := by
  have hname := task.siteName_placement position
  rw [Placement.siteName, h, Option.map_some, eq_comm, Option.bind_eq_some_iff] at hname
  obtain ⟨node, hnode, hsite⟩ := hname
  rw [Node.site?, Option.ite_none_right_eq_some, Option.some_inj] at hsite
  rw [Graph.deviceAt, hnode, Option.map_some, hsite.2]

/-- A node is returned on the device where it ends. -/
theorem Finished.deviceAt_of_site {position device : Nat}
    (hf : task.Finished before final result)
    (h : final.placement.site position = some device) :
    result.graph.deviceAt position = some (task.roster.nameOf device) := by
  have hlt : position < task.graph.nodes.length := by
    rw [← hf.inv.length]
    by_contra hle
    rw [Placement.site_of_length_le (Nat.le_of_not_lt hle)] at h
    cases h
  rw [hf.graph_eq hf.inv.length, Graph.deviceAt, List.getElem?_mapIdx,
    List.getElem?_eq_getElem hlt, Placement.siteName, h]
  rfl

/-- A sweep that has left all nodes where they were returns the graph as it was. -/
theorem Finished.graph_of_site (hf : task.Finished before final result)
    (h : final.placement.site = task.placement.site) : result.graph = task.graph := by
  have hgraph := hf.graph_eq hf.inv.length
  simp only [Placement.siteName, h] at hgraph
  exact hgraph.trans task.settle_placement

/-! ## Legs -/

section Leg

variable {done : List Nat} {position origin : Nat} {state next : State} {visit : Visit}
  (hf : task.Finished before final result)
  (hsizes : ∀ cost ∈ task.estimate.nodes.values, 0 ≤ cost.maxMemorySize.toInt)
  (hconsumers : task.graph.LeavesNoConsumer result.graph)
  (hfollowers : task.graph.LeavesNoFollower result.graph)

/-- A node is visited once, so its visit takes it from its first to its last device. -/
theorem Leg.site_position (h : task.Leg final done position state next)
    (hs : task.sweep.Searched state position origin visit next) :
    task.placement.site position = some origin ∧
      final.placement.site position = some visit.current := by
  have hnot : position ∉ done := fun hmem => Nat.lt_irrefl _ (h.lt position hmem)
  rw [← h.site_todo position hnot, ← h.site_next, hs.site_next, update_self]
  exact ⟨hs.site, rfl⟩

include hf hconsumers hfollowers

/-- A node that moves leaves no consumer behind. -/
theorem Leg.leaves_none (h : task.Leg final done position state next)
    (hs : task.sweep.Searched state position origin visit next) (hmoved : visit.current ≠ origin)
    {consumer device : Nat} (hmem : position ∈ task.sweep.priced.producersOf consumer)
    (hsite : state.placement.site consumer = some device) : device ≠ origin := by
  rintro rfl
  have hedge : ⟨position, consumer⟩ ∈ task.graph.edges :=
    PricedGraph.mem_edges_of_mem_producersOf hmem
  obtain ⟨hbefore, hafter⟩ := h.site_position hs
  have hat := task.deviceAt_of_site hbefore
  have hmoves : task.graph.Moves result.graph position := by
    intro heq
    rw [hat, hf.deviceAt_of_site hafter, Option.some_inj] at heq
    exact hmoved ((Roster.nameOf_inj task.nodup_names_roster (hf.inv.within _ _ hafter)
      (task.within_placement _ _ hbefore)).1 heq)
  by_cases hdone : consumer ∈ done
  · -- The consumer is where the sweep leaves it, so it has moved there or never moved.
    rw [h.site_done consumer hdone] at hsite
    have hthere : result.graph.deviceAt consumer = task.graph.deviceAt position := by
      rw [hat, hf.deviceAt_of_site hsite]
    by_cases hm : task.graph.Moves result.graph consumer
    · exact hfollowers _ hedge (h.lt consumer hdone) hmoves hm hthere
    · rw [Graph.Moves, not_not] at hm
      exact hconsumers _ hedge hmoves (hm.symm.trans hthere)
  · rw [h.site_todo consumer hdone] at hsite
    exact hconsumers _ hedge hmoves
      ((task.deviceAt_of_site hsite).trans hat.symm)

include hsizes

/-- A node that moves lowers the external traffic at least by what it saves itself. -/
theorem Leg.external_next_le (h : task.Leg final done position state next)
    (hs : task.sweep.Searched state position origin visit next) (hmoved : visit.current ≠ origin) :
    task.sweep.priced.external next.placement.site +
        ((task.sweep.priced.arrivals state.placement position).outer origin -
          (task.sweep.priced.arrivals state.placement position).outer visit.current) ≤
      task.sweep.priced.external state.placement.site := by
  obtain ⟨node, hnode, _⟩ := mem_positions.1 h.mem
  rw [hs.site_next]
  exact PricedGraph.external_update_le (fun _ _ => PricedGraph.size?_nonneg hsizes)
    (List.getElem?_eq_some_iff.1 hnode).1 hs.site
    fun _ _ => h.leaves_none hf hconsumers hfollowers hs hmoved

/-- What the moves have saved so far. -/
structure Thrifty (task : Task) (state : State) : Prop where
  external : 2 * task.sweep.priced.external state.placement.site + savings state.moves ≤
    2 * task.sweep.priced.external task.placement.site
  /-- Every node that has moved has saved something. -/
  moved : state.moved ≤ savings state.moves
  /-- If nothing was saved, nothing has moved. -/
  site : savings state.moves = 0 → state.placement.site = task.placement.site

/-- A visit lowers the external traffic at least by half of what it saves. -/
theorem thrifty_of_leg (hleg : task.Leg final done position state next) (h : task.Thrifty state) :
    task.Thrifty next := by
  cases hleg.visited with
  | unassigned _ => exact h
  | pinned _ _ => exact h
  | @searched origin visit next hs =>
    have hsaved := saved_of_search hs.search
    have hsavings := hsaved.savings
    rw [hsaved.gap, Arrivals.gap_sub_gap, ← hs.moves] at hsavings
    -- A node that stays where it is saves nothing and changes nothing.
    by_cases hc : visit.current = origin
    · rw [hc, sub_self, mul_zero, add_zero] at hsavings
      have hsite : next.placement.site = state.placement.site := by
        rw [hs.site_next, hc, ← hs.site, update_eq_self]
      refine ⟨?_, ?_, ?_⟩
      · rw [hsite, hsavings]
        exact h.external
      · rw [hs.moved, if_pos hc, hsavings]
        exact h.moved
      · rw [hsite, hsavings]
        exact h.site
    · have hexternal := hleg.external_next_le hf hsizes hconsumers hfollowers hs hc
      have hfalls := hsaved.falls hc
      rw [hsaved.gap, ← sub_pos, Arrivals.gap_sub_gap] at hfalls
      have hmoved := hs.moved
      rw [if_neg hc] at hmoved
      obtain ⟨hbudget, hcount, _⟩ := h
      exact ⟨by omega, by omega, fun hzero => by omega⟩

/-- By induction on the visits, so does the sweep. -/
theorem Finished.thrifty : task.Thrifty final :=
  hf.along (P := fun _ => task.Thrifty) ⟨(add_zero _).le, le_rfl, fun _ => rfl⟩
    fun _ _ _ _ hleg h => thrifty_of_leg hf hsizes hconsumers hfollowers hleg h

end Leg

/-! ## The whole sweep -/

/-- What is true of the traffic of a sweep whose moves leave no consumer behind. -/
structure Relief (task : Task) (result : Result) : Prop where
  /-- The external traffic falls at least by half of what the moves have lowered. -/
  savings_le : savings result.moves ≤
    2 * (result.externalBefore.toInt - result.externalAfter.toInt)
  /-- The moves have lowered something for every node that has moved. -/
  moved_le : result.moved ≤ savings result.moves
  /-- It falls as soon as one node moves. -/
  external_lt : (0 < result.moved ∨ ∃ position, task.graph.Moves result.graph position) →
    result.externalAfter.toInt < result.externalBefore.toInt

/-- The external traffic that is reported is that of the placements. -/
theorem relieved (hsizes : ∀ cost ∈ task.estimate.nodes.values, 0 ≤ cost.maxMemorySize.toInt)
    (h : task.run = .ok result) (hconsumers : task.graph.LeavesNoConsumer result.graph)
    (hfollowers : task.graph.LeavesNoFollower result.graph) : task.Relief result := by
  obtain ⟨before, final, hf⟩ := run_eq_ok h
  have hthrifty := hf.thrifty hsizes hconsumers hfollowers
  have hexternal := hthrifty.external
  have hmoved := hthrifty.moved
  rw [← PricedGraph.totalExternal_eq_ok hf.externalBefore,
    ← PricedGraph.totalExternal_eq_ok hf.externalAfter, ← hf.moves] at hexternal
  rw [← hf.moved, ← hf.moves] at hmoved
  refine ⟨by omega, hmoved, fun hsome => ?_⟩
  have hpos : 0 < savings result.moves := by
    rcases hsome with hcount | ⟨position, hmoves⟩
    · omega
    · -- The graphs differ, so not all nodes are where they were.
      refine lt_of_le_of_ne (by omega) fun hzero => hmoves ?_
      rw [hf.moves] at hzero
      rw [hf.graph_of_site (hthrifty.site hzero.symm)]
  omega

/-! ### An example -/

/-- A graph where `c` comes before its producer `p`. If its other producer, on the
    given device, ships the given size, `c` may move to `p` before `p` moves away. -/
def chase (device : String) (size : Int64) : Task where
  catalog := OpRegistry.standard.catalog
  knobs := Knobs.alwaysOptimize.withComputeMargin 1
  graph := .ofNodes [⟨"q", "Const", "dev2", []⟩, ⟨"r", "Const", device, []⟩,
    ⟨"c", "Add", "dev0", [.data "p" 0, .data "r" 0]⟩, ⟨"p", "Add", "dev1", [.data "q" 0]⟩]
  devices := ["dev0", "dev1", "dev2"]
  estimate := ⟨.ofList [("q", .ofCompute 0 1), ("r", .ofCompute 0 size), ("c", .ofCompute 0 1),
    ("p", .ofCompute 0 10)], .zero⟩

/-- Whether the moves of a sweep leave no consumer behind, and no follower. -/
def leaves (task : Task) (result : Result) : Bool × Bool :=
  (task.graph.LeavesNoConsumer result.graph, task.graph.LeavesNoFollower result.graph)

/-! ### Results -/

/-- The external traffic does not rise if no node that moves leaves a consumer behind,
    neither one that was there from the start nor one that has moved there before. -/
theorem external_le_of_run
    (hsizes : ∀ cost ∈ task.estimate.nodes.values, 0 ≤ cost.maxMemorySize.toInt)
    (h : task.run = .ok result) (hconsumers : task.graph.LeavesNoConsumer result.graph)
    (hfollowers : task.graph.LeavesNoFollower result.graph) :
    result.externalAfter.toInt ≤ result.externalBefore.toInt := by
  have hrelief := relieved hsizes h hconsumers hfollowers
  have hsavings := hrelief.savings_le
  have hmoved := hrelief.moved_le
  omega

/-- Here `c` passes the device of `p` and goes on to that of `r`, and `p` follows. -/
theorem external_le_of_chase : ∃ result, (chase "dev2" 20).run = .ok result ∧
    (chase "dev2" 20).graph.LeavesNoConsumer result.graph ∧
    (chase "dev2" 20).graph.LeavesNoFollower result.graph ∧
    result.externalAfter.toInt ≤ result.externalBefore.toInt ∧
    result.moves.map (fun made => (made.node, made.target)) =
      [("c", "dev1"), ("c", "dev2"), ("p", "dev2")] := by
  have hsizes : ∀ cost ∈ (chase "dev2" 20).estimate.nodes.values,
      0 ≤ cost.maxMemorySize.toInt := by decide +kernel
  have hrun : (chase "dev2" 20).run.toOption.map (fun result => ((chase "dev2" 20).leaves result,
      result.moves.map fun made => (made.node, made.target))) =
        some ((true, true), [("c", "dev1"), ("c", "dev2"), ("p", "dev2")]) := by
    decide +kernel
  obtain ⟨result, h, hrun⟩ := exists_ok_of_toOption hrun
  obtain ⟨hleaves, hmoves⟩ := Prod.mk.inj hrun
  obtain ⟨hconsumers, hfollowers⟩ := Prod.mk.inj hleaves
  have hconsumers := of_decide_eq_true hconsumers
  have hfollowers := of_decide_eq_true hfollowers
  exact ⟨result, h, hconsumers, hfollowers,
    external_le_of_run hsizes h hconsumers hfollowers, hmoves⟩

/-- The external traffic can rise although no node that moves has a consumer that was
    on its old device from the start: here `c` moves to `p`, and then `p` moves away. -/
theorem external_can_rise : ∃ result, (chase "dev0" 5).run = .ok result ∧
    (∀ cost ∈ (chase "dev0" 5).estimate.nodes.values, 0 ≤ cost.maxMemorySize.toInt) ∧
    (chase "dev0" 5).graph.LeavesNoConsumer result.graph ∧
    ¬ result.externalAfter.toInt ≤ result.externalBefore.toInt := by
  have hsizes : ∀ cost ∈ (chase "dev0" 5).estimate.nodes.values,
      0 ≤ cost.maxMemorySize.toInt := by decide +kernel
  have hrun : (chase "dev0" 5).run.toOption.map (fun result => ((chase "dev0" 5).leaves result,
      result.externalBefore, result.externalAfter)) = some ((true, false), 11, 15) := by
    decide +kernel
  obtain ⟨result, h, hrun⟩ := exists_ok_of_toOption hrun
  obtain ⟨hleaves, hexternal⟩ := Prod.mk.inj hrun
  obtain ⟨hbefore, hafter⟩ := Prod.mk.inj hexternal
  refine ⟨result, h, hsizes, of_decide_eq_true (Prod.mk.inj hleaves).1, ?_⟩
  rw [hbefore, hafter]
  decide

/-- If producers come before their consumers and no node that moves leaves a consumer
    behind, the external traffic falls by half of what the moves have lowered. -/
theorem savings_of_run (htopological : task.graph.Topological)
    (hsizes : ∀ cost ∈ task.estimate.nodes.values, 0 ≤ cost.maxMemorySize.toInt)
    (h : task.run = .ok result) (hconsumers : task.graph.LeavesNoConsumer result.graph) :
    task.Relief result :=
  relieved hsizes h hconsumers (htopological.leavesNoFollower result.graph)

theorem savings_of_relay : ∃ result, relay.graph.Topological ∧ relay.run = .ok result ∧
    relay.graph.LeavesNoConsumer result.graph ∧ relay.Relief result ∧
    (savings result.moves, result.externalBefore, result.externalAfter) = (210, 115, 10) := by
  have htopological : relay.graph.Topological := by decide +kernel
  have hsizes : ∀ cost ∈ relay.estimate.nodes.values, 0 ≤ cost.maxMemorySize.toInt := by
    decide +kernel
  have hrun : relay.run.toOption.map (fun result =>
      (decide (relay.graph.LeavesNoConsumer result.graph),
        savings result.moves, result.externalBefore, result.externalAfter)) =
      some (true, 210, 115, 10) := by
    decide +kernel
  obtain ⟨result, h, hrun⟩ := exists_ok_of_toOption hrun
  obtain ⟨hconsumers, hsavings⟩ := Prod.mk.inj hrun
  have hconsumers := of_decide_eq_true hconsumers
  exact ⟨result, htopological, h, hconsumers,
    savings_of_run htopological hsizes h hconsumers, hsavings⟩

end Task

end Sweep

end DevicePlacement

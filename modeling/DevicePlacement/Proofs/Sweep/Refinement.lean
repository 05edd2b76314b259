import DevicePlacement.Proofs.Sweep.Plain

/-!
# The sweep does what the plain sweep does

If no node is one of its own producers, a sweep that returns ends with the graph
and the moves of the plain sweep. The two differ in four ways, none of which shows:

* the sweep assigns a node at the end of its visit: until then only the node's own
  site is out of date, which its own traffic does not depend on (`gap_eq`);
* it keeps the loads in a table: they are those of the sites of the plain sweep
  (`load_eq`), by the invariant of the visit;
* it remembers the traffic where the node is: that is the traffic there;
* it never goes back to where the node came from: once a hop is made the delta is
  lower than there, so the plain sweep does not go back either.

`Matches` relates two visits and `Agrees` two sweeps. `matches_of_considered` and
`agrees_of_visited` say that a step keeps them, so `plain_of_run` holds at the end.
-/

namespace DevicePlacement.Sweep

open Checked Function

namespace Task

variable {task : Task} {before : Balance} {result : Result} {placement : Placement}
  {position : Nat}

/-- The sites by name, with a node where its visit has come. -/
def siteDuring (task : Task) (placement : Placement) (position current : Nat) :
    Nat → Option String :=
  update (placement.siteName task.roster) position (some (task.roster.nameOf current))

theorem siteDuring_eq (placement : Placement) (position current : Nat) :
    task.siteDuring placement position current = fun other =>
      (update placement.site position (some current) other).map task.roster.nameOf := by
  funext other
  rw [siteDuring, update_apply, update_apply, Placement.siteName]
  split <;> rfl

/-- When a visit begins, all nodes are where the placement has them. -/
theorem siteDuring_of_site {origin : Nat} (h : placement.site position = some origin) :
    task.siteDuring placement position origin = placement.siteName task.roster := by
  rw [siteDuring, update_eq_self_iff, Placement.siteName, h, Option.map_some]

/-! ## Traffic and loads -/

/-- What comes in at a node, by name, is what the sweep sees come in. -/
theorem arrivals_siteName (hp : position ∈ task.positions) (placement : Placement) :
    task.arrivals (placement.siteName task.roster) position =
      (task.sweep.priced.arrivals placement position).map fun arrival =>
        (task.roster.nameOf arrival.1, arrival.2) := by
  obtain ⟨node, hnode, _⟩ := mem_positions.1 hp
  have hproducers : task.producers position = task.graph.producers node := by
    rw [producers, hnode, Option.map_some, Option.getD_some]
  have hproducersOf : task.sweep.priced.producersOf position = task.graph.producers node :=
    PricedGraph.producersOf_ofGraph task.estimate hnode
  have hsize : task.sweep.priced.size? = task.size? :=
    funext fun other => PricedGraph.size?_ofGraph task.graph task.estimate other
  rw [arrivals, hproducers, PricedGraph.arrivals, hproducersOf, hsize]
  exact arrivals_map task.roster.nameOf

theorem gap_siteName {device : Nat} (hp : position ∈ task.positions)
    (hw : placement.Within task.roster) (hd : device < task.roster.size) :
    (task.arrivals (placement.siteName task.roster) position).gap (task.roster.nameOf device) =
      (task.sweep.priced.arrivals placement position).gap device := by
  rw [arrivals_siteName hp]
  refine Arrivals.gap_map fun arrival ha => ?_
  obtain ⟨producer, _, _, hsite⟩ := mem_arrivals.1 ha
  exact Roster.nameOf_inj task.nodup_names_roster (hw producer arrival.1 hsite) hd

/-- What comes in at a node does not depend on where its visit has come: the only site
    that is out of date is its own, and it is none of its own producers. -/
theorem arrivals_siteDuring (hl : task.graph.Loopless) (hp : position ∈ task.positions)
    (placement : Placement) (current : Nat) :
    task.arrivals (task.siteDuring placement position current) position =
      task.arrivals (placement.siteName task.roster) position := by
  obtain ⟨node, hnode, _⟩ := mem_positions.1 hp
  have hproducers : task.producers position = task.graph.producers node := by
    rw [producers, hnode, Option.map_some, Option.getD_some]
  rw [arrivals, arrivals, hproducers, siteDuring, arrivals_update (hl position node hnode)]

/-- The traffic of a node is the one that the sweep has remembered. -/
theorem gap_eq {device : Nat} (hl : task.graph.Loopless) (hp : position ∈ task.positions)
    (hw : placement.Within task.roster) (hd : device < task.roster.size) (current : Nat) :
    (task.arrivals (task.siteDuring placement position current) position).gap
        (task.roster.nameOf device) =
      (task.sweep.priced.arrivals placement position).gap device := by
  rw [arrivals_siteDuring hl hp, gap_siteName hp hw hd]

/-- The table has the loads of the sites. -/
theorem load_eq {visit : Visit} {device : Nat} (hw : placement.Within task.roster)
    (h : task.Amid placement position visit) (hd : device < task.roster.size) :
    task.load (task.siteDuring placement position visit.current) (task.roster.nameOf device) =
      visit.balance.loadOf device := by
  rw [load, siteDuring_eq, h.accounts.carries]
  refine loadOn_map fun other _ number ho => ?_
  rw [update_apply] at ho
  refine Roster.nameOf_inj task.nodup_names_roster ?_ hd
  split at ho
  · cases ho
    exact h.current_lt
  · exact hw other number ho

/-! ## Visits -/

/-- A visit of the sweep and one of the plain sweep have come equally far. -/
structure Matches (task : Task) (placement : Placement) (position origin : Nat) (visit : Visit)
    (plain : Plain) : Prop where
  amid : task.Amid placement position visit
  site : plain.site = task.siteDuring placement position visit.current
  moves : visit.moves.map exact = plain.moves
  gap : visit.traffic.gap = (task.sweep.priced.arrivals placement position).gap visit.current
  /-- Away from its origin, the node has a lower delta than there. -/
  lower : visit.current ≠ origin →
    (task.sweep.priced.arrivals placement position).gap visit.current <
      (task.sweep.priced.arrivals placement position).gap origin

section Visit

variable {origin candidate : Nat} {visit next : Visit} {plain : Plain}

theorem Matches.site_self (h : task.Matches placement position origin visit plain) :
    plain.site position = some (task.roster.nameOf visit.current) := by
  rw [h.site, siteDuring, update_self]

/-- The two sweeps judge a device alike. -/
theorem Matches.isBetter_iff (h : task.Matches placement position origin visit plain)
    (hl : task.graph.Loopless) (hp : position ∈ task.positions)
    (hw : placement.Within task.roster) (hc : candidate < task.roster.size) :
    task.isBetter plain.site position (task.roster.nameOf visit.current)
        (task.roster.nameOf candidate) = true ↔
      task.sweep.Improves placement position visit candidate := by
  rw [isBetter, Bool.and_eq_true, Bool.and_eq_true, decide_eq_true_iff, and_assoc, h.site,
    gap_eq hl hp hw hc, gap_eq hl hp hw h.amid.current_lt, load_eq hw h.amid hc,
    load_eq hw h.amid h.amid.current_lt, Improves, h.gap, h.amid.accounts.scale, compute_eq]

/-- A hop is the move that the plain sweep makes. -/
theorem Matches.exact_eq {made : MoveRecord}
    (h : task.Matches placement position origin visit plain)
    (hl : task.graph.Loopless) (hp : position ∈ task.positions)
    (hw : placement.Within task.roster) (hnext : task.Amid placement position next)
    (hgap : next.traffic.gap = (task.sweep.priced.arrivals placement position).gap next.current)
    (hmade : task.sweep.Records position made visit next) :
    exact made = Plain.move task position plain.site
      (task.siteDuring placement position next.current) (task.roster.nameOf visit.current)
      (task.roster.nameOf next.current) := by
  obtain ⟨node, hnode, hname⟩ := hmade.node
  have hnodeName : task.nodeName position = node.name := by
    rw [nodeName, show task.graph.nodes[position]? = some node from hnode, Option.map_some,
      Option.getD_some]
  rw [exact, Plain.move, h.site, gap_eq hl hp hw h.amid.current_lt,
    gap_eq hl hp hw hnext.current_lt, load_eq hw hnext h.amid.current_lt,
    load_eq hw hnext hnext.current_lt, hname, hnodeName, hmade.source, hmade.target,
    hmade.deltaBefore, hmade.deltaAfter, h.gap, hgap, hmade.originShare, hmade.destinationShare,
    hnext.accounts.scale]
  rfl

/-- A device that the sweep passes over is passed over by the plain sweep. -/
theorem Matches.attempt_of_skipped (h : task.Matches placement position origin visit plain)
    (hl : task.graph.Loopless) (hp : position ∈ task.positions)
    (hw : placement.Within task.roster) (hc : candidate < task.roster.size)
    (hskip : candidate = origin ∨ candidate = visit.current) :
    Plain.attempt task position plain (task.roster.nameOf candidate) = plain := by
  refine Plain.attempt_of_not_better h.site_self ?_
  by_cases hcurrent : candidate = visit.current
  · exact .inl (congrArg task.roster.nameOf hcurrent)
  -- The node has left its origin, where the delta was higher.
  have hleft : candidate = origin := hskip.resolve_right hcurrent
  have hlower := h.lower fun e => hcurrent (hleft.trans e.symm)
  refine .inr (Bool.eq_false_iff.2 fun hbetter => ?_)
  have himproves := ((h.isBetter_iff hl hp hw hc).1 hbetter).1
  rw [hleft, h.gap] at himproves
  omega

/-- A hop of the sweep is made by the plain sweep. -/
theorem matches_of_hop (hl : task.graph.Loopless) (hp : position ∈ task.positions)
    (hw : placement.Within task.roster) (hc : candidate ∈ task.sweep.candidates)
    (h : task.Matches placement position origin visit plain)
    (hhop : task.sweep.Hop placement position origin candidate visit next) :
    task.Matches placement position origin next
      (Plain.attempt task position plain (task.roster.nameOf candidate)) := by
  have hlt := candidate_lt hc
  have hne : task.roster.nameOf candidate ≠ task.roster.nameOf visit.current := fun e =>
    hhop.ne_current ((Roster.nameOf_inj task.nodup_names_roster hlt h.amid.current_lt).1 e)
  have hamid := amid_of_hop hp hc h.amid hhop
  have hgap : next.traffic.gap =
      (task.sweep.priced.arrivals placement position).gap next.current := by
    rw [hhop.gap_eq, hhop.current]
  have hsite : update plain.site position (some (task.roster.nameOf candidate)) =
      task.siteDuring placement position next.current := by
    rw [h.site, siteDuring, update_idem, siteDuring, hhop.current]
  obtain ⟨made, hmoves, hmade⟩ := hhop.moves
  rw [Plain.attempt_of_better h.site_self hne ((h.isBetter_iff hl hp hw hlt).2 hhop.improves),
    hsite]
  exact {
    amid := hamid
    site := rfl
    moves := by
      rw [hmoves, List.map_append, List.map_singleton, h.moves,
        h.exact_eq hl hp hw hamid hgap hmade, hhop.current]
    gap := hgap
    lower := fun _ => by
      -- The delta falls with every hop, so it stays below that of the origin.
      have hfalls := hhop.improves.1
      rw [h.gap] at hfalls
      rw [hhop.current]
      by_cases hcurrent : visit.current = origin
      · rwa [hcurrent] at hfalls
      · exact Int.lt_trans hfalls (h.lower hcurrent) }

/-- A candidate of the sweep is tried by the plain sweep, with the same outcome. -/
theorem matches_of_considered (hl : task.graph.Loopless) (hp : position ∈ task.positions)
    (hw : placement.Within task.roster) (hc : candidate ∈ task.sweep.candidates)
    (h : task.Matches placement position origin visit plain)
    (hv : task.sweep.Considered placement position origin candidate visit next) :
    task.Matches placement position origin next
      (Plain.attempt task position plain (task.roster.nameOf candidate)) := by
  cases hv with
  | skipped hskip => rwa [h.attempt_of_skipped hl hp hw (candidate_lt hc) hskip]
  | refused _ _ hno =>
    rw [Plain.attempt_of_not_better h.site_self]
    · exact h
    exact .inr (Bool.eq_false_iff.2 fun hbetter =>
      hno ((h.isBetter_iff hl hp hw (candidate_lt hc)).1 hbetter))
  | accepted hhop => exact matches_of_hop hl hp hw hc h hhop

end Visit

/-! ## Sweeps -/

/-- A sweep and a plain sweep have come equally far. -/
structure Agrees (task : Task) (state : State) (plain : Plain) : Prop where
  inv : task.Inv state
  site : plain.site = state.placement.siteName task.roster
  moves : state.moves.map exact = plain.moves

theorem Agrees.site_eq {state : State} {plain : Plain} {device : Option Nat}
    (h : task.Agrees state plain) (hsite : state.placement.site position = device) :
    plain.site position = device.map task.roster.nameOf := by
  rw [h.site, Placement.siteName, hsite]

/-- By induction on the candidates, the two visits come equally far. -/
theorem matches_of_search {state : State} {plain : Plain} {origin : Nat} {visit : Visit}
    (hl : task.graph.Loopless) (hp : position ∈ task.positions)
    (h : task.Agrees state plain) (hsite : state.placement.site position = some origin)
    (hv : task.sweep.search state position origin task.sweep.candidates = .ok visit) :
    task.Matches state.placement position origin visit
      (task.targets.foldl (Plain.attempt task position) plain) := by
  obtain ⟨traffic, htraffic, hv⟩ := bind_eq_ok.1 hv
  have hstart : task.Matches state.placement position origin
      ⟨origin, traffic, state.balance, state.moves⟩ plain := {
    amid := h.inv.amid hsite traffic
    site := by rw [h.site, siteDuring_of_site hsite]
    moves := h.moves
    gap := PricedGraph.gap_of_traffic htraffic
    lower := fun hne => absurd rfl hne }
  rw [targets, ← map_nameOf_candidates, List.foldl_map]
  exact foldlM_simulates (fun visit plain next candidate hc hm hv =>
    matches_of_considered hl hp h.inv.within hc hm (consider_eq_ok hv)) hstart hv

/-- A visit of the sweep is one of the plain sweep. -/
theorem agrees_of_visited {state next : State} {plain : Plain}
    (hl : task.graph.Loopless) (hp : position ∈ task.positions)
    (h : task.Agrees state plain) (hv : task.sweep.Visited state position next) :
    task.Agrees next (Plain.visit task plain position) := by
  have hinv := inv_of_visited hp h.inv hv
  cases hv with
  | unassigned hsite =>
    rw [Plain.visit_of_unassigned (h.site_eq hsite)]
    exact h
  | pinned hsite hpinned =>
    rw [Plain.visit_of_pinned (h.site_eq hsite) hpinned]
    exact h
  | searched hs =>
    have hm := matches_of_search hl hp h hs.site hs.search
    rw [Plain.visit_of_not_pinned (h.site_eq hs.site) hs.unpinned]
    refine ⟨hinv, ?_, ?_⟩
    · -- The sweep assigns the node now; the plain sweep has done so at every move.
      rw [hm.site, siteDuring_eq, ← hs.site_next]
      rfl
    · rw [hs.moves, hm.moves]

/-- The two sweeps start with the nodes where the graph has them. -/
theorem agrees_start (ho : task.opening = .ok before) :
    task.Agrees ⟨task.placement, before, [], 0⟩ (Plain.start task) where
  inv := inv_start ho
  site := funext fun position => (task.siteName_placement position).symm
  moves := rfl

/-- By induction on the nodes, they end equally far. -/
theorem Finished.agrees {final : State} (h : task.Finished before final result)
    (hl : task.graph.Loopless) : task.Agrees final (Plain.run task) := by
  -- Both runs stop at once when there is no second device to try.
  have hcandidates : task.targets.length = task.sweep.candidates.length := by
    rw [targets, ← map_nameOf_candidates, List.length_map]
  have hswept := h.swept
  rw [visitAll] at hswept
  rw [Plain.run, hcandidates]
  split at hswept
  · next hfew =>
    rw [if_pos hfew]
    cases hswept
    exact agrees_start h.opening
  · next hmany =>
    rw [if_neg hmany]
    exact foldlM_simulates (fun state plain next position hp ha hv =>
      agrees_of_visited hl hp ha (visit_eq_ok hv)) (agrees_start h.opening) hswept

/-- A sweep that returns ends with the graph and the moves of the plain sweep. -/
theorem plain_of_run (hl : task.graph.Loopless) (h : task.run = .ok result) :
    result.graph = (Plain.run task).graph task.graph ∧
      result.moves.map exact = (Plain.run task).moves := by
  obtain ⟨before, final, hf⟩ := run_eq_ok h
  have hagrees := hf.agrees hl
  constructor
  · rw [hf.graph_eq hagrees.inv.length, Plain.graph, hagrees.site]
  · rw [hf.moves, hagrees.moves]

/-- The plain sweep of `relay` also makes three moves. -/
theorem plain_of_relay : ∃ result, relay.graph.Loopless ∧ relay.run = .ok result ∧
    (result.graph = (Plain.run relay).graph relay.graph ∧
      result.moves.map exact = (Plain.run relay).moves) ∧
    (Plain.run relay).moves.map (fun move => (move.node, move.source, move.target)) =
      [("c", "dev0", "dev1"), ("c", "dev1", "dev2"), ("d", "dev9", "dev2")] := by
  have hl : relay.graph.Loopless := by decide +kernel
  obtain ⟨result, h, hmoves, _⟩ := run_relay
  have hplain := plain_of_run hl h
  refine ⟨result, hl, h, hplain, ?_⟩
  rw [← hplain.2, List.map_map]
  exact hmoves

end Task

end DevicePlacement.Sweep

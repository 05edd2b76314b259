import DevicePlacement.Proofs.Placement.Intake
import DevicePlacement.Proofs.Sweep.Attraction

/-!
# Records say what moves bring

A move is recorded when a candidate is accepted. The traffic in the record was then asked for as
if the node were there: the placement learns of the move at the end of the visit, and only if
the node has not moved on by then. Unless the node is one of its own producers, this makes no
difference. On the device of the record, the node has the delta of the record:

* whenever a move is recorded and the node is then assigned to the device that it left, or to
  the one that it went to (`Task.Forecasts`);
* when a visit has ended, on the device where it has left the node (`Task.Settles`).

`accounted_of_run` says so of a whole sweep, after what it rests on: the traffic of a node
divides the same intake on every device (`PricedGraph.Conserves`).
-/

namespace DevicePlacement.Sweep

open Checked Function

namespace Task

variable {task : Task} {placement moved : Placement} {state next : State} {visit : Visit}
  {position origin number : Nat} {visited tried : List Nat} {earlier : List MoveRecord}
  {made : MoveRecord} {delta : Int64} {traffic : Traffic} {result : Result}

/-! ## The intake of a node -/

/-- What the producers of the node at a position ship to it, one by one for every data input.
    Producers that are not assigned or have no cost ship nothing. -/
def intake (task : Task) (site : Nat → Option Nat) (position : Nat) : Int :=
  ((task.producers position).map fun producer =>
    if (site producer).isSome then (task.size? producer).getD 0 else 0).sum

/-- The producers in the tables are those of the graph. -/
theorem producersOf_eq (task : Task) (position : Nat) :
    task.sweep.priced.producersOf position = task.producers position := by
  rw [producers]
  cases hnode : task.graph.nodes[position]? with
  | some node => exact PricedGraph.producersOf_ofGraph task.estimate hnode
  | none =>
    rw [PricedGraph.producersOf, List.getD_eq_getElem?_getD]
    have hproducers : task.sweep.priced.producers = task.graph.nodes.map task.graph.producers :=
      PricedGraph.producers_ofGraph task.graph task.estimate
    rw [hproducers, List.getElem?_map, hnode]

/-- What a node takes in does not depend on numbers for devices. -/
theorem intake_eq (task : Task) (placement : Placement) (position : Nat) :
    task.sweep.priced.intake placement position = task.intake placement.site position := by
  have hsize : task.sweep.priced.size? = task.size? :=
    funext fun other => PricedGraph.size?_ofGraph task.graph task.estimate other
  rw [PricedGraph.intake, intake, producersOf_eq, hsize]

/-! ## Deltas of moves -/

/-- The node at a position is on a device, and the delta of its traffic there is as given. -/
def Incurs (task : Task) (placement : Placement) (position : Nat) (device : String)
    (delta : Int64) : Prop :=
  ∃ number traffic, task.roster.name number = .ok device ∧
    placement.site position = some number ∧
    task.sweep.priced.traffic placement position number = .ok traffic ∧
    traffic.delta = .ok delta

/-- If the node at a position is assigned to a device, the delta of its traffic is as given. -/
def Forecasts (task : Task) (placement : Placement) (position : Nat) (device : String)
    (delta : Int64) : Prop :=
  ∃ number moved, task.roster.name number = .ok device ∧
    placement.assign position number = .ok moved ∧ task.Incurs moved position device delta

/-- Between two states of a sweep no moves were recorded, or the node at a position is where the
    last one says and incurs what it says. -/
def Settles (task : Task) (state next : State) (position : Nat) : Prop :=
  state.moves <+: next.moves ∧ (next.moves = state.moves ∨ ∃ made,
    next.moves.getLast? = some made ∧
      task.Incurs next.placement position made.target made.deltaAfter)

/-- A node that has been put on a device incurs what was asked for before. -/
theorem incurs_of_site (hself : position ∉ task.producers position)
    (hnumber : number < task.roster.size)
    (htraffic : task.sweep.priced.traffic placement position number = .ok traffic)
    (hdelta : delta.toInt = traffic.gap)
    (hlength : moved.devices.length = placement.devices.length)
    (hsite : moved.site = update placement.site position (some number)) :
    task.Incurs moved position (task.roster.nameOf number) delta := by
  rw [← producersOf_eq] at hself
  refine ⟨number, traffic, Roster.name_eq_ok_iff.2 ⟨hnumber, rfl⟩, ?_, ?_, minus_eq_ok_iff.2 hdelta⟩
  · rw [hsite, update_self]
  · rw [PricedGraph.traffic_update hself hlength hsite, htraffic]

/-- The traffic that a node is weighed with is the one it has after the move, if it is none of
    its own producers. -/
theorem forecasts_of_traffic (hself : position ∉ task.producers position)
    (hp : position < placement.devices.length) (hnumber : number < task.roster.size)
    (htraffic : task.sweep.priced.traffic placement position number = .ok traffic)
    (hdelta : delta.toInt = traffic.gap) :
    task.Forecasts placement position (task.roster.nameOf number) delta := by
  obtain ⟨moved, hmoved⟩ := Placement.returns_assign hp number
  obtain ⟨_, hlength, hsite⟩ := Placement.assign_eq_ok hmoved
  exact ⟨number, moved, Roster.name_eq_ok_iff.2 ⟨hnumber, rfl⟩, hmoved,
    incurs_of_site hself hnumber htraffic hdelta hlength hsite⟩

/-- The record of a move forecasts the delta on both of its devices. -/
theorem Accepts.forecasts (h : task.Accepts state position earlier made) :
    task.nodeName position = made.node ∧ (position ∉ task.producers position →
      task.Forecasts state.placement position made.source made.deltaBefore ∧
        task.Forecasts state.placement position made.target made.deltaAfter) := by
  have hinv := h.inv
  obtain ⟨origin, tried, candidate, visit, next, hp, hsite, ht, hsearch, hhop, hrecords⟩ :=
    h.exists_hop
  obtain ⟨hlt, hname⟩ := nodeName_of_records hrecords
  rw [← hinv.length] at hlt
  -- On the way, the node alone is not where the placement has it.
  have hamid := amid_of_search hinv hp hsite (fun _ hc => subset_of_prefix_concat ht hc) hsearch
  refine ⟨hname, fun hself => ⟨?_, ?_⟩⟩
  · rw [hrecords.source]
    exact forecasts_of_traffic hself hlt hamid.current_lt (traffic_of_search hsearch)
      hrecords.deltaBefore
  · rw [hrecords.target, hhop.current]
    exact forecasts_of_traffic hself hlt (candidate_lt (mem_of_prefix_concat ht)) hhop.traffic
      hrecords.deltaAfter

/-- A search that records moves has come to the target of the last one. -/
theorem last_of_search (h : task.sweep.search state position origin tried = .ok visit) :
    state.moves <+: visit.moves ∧ (visit.moves = state.moves ∨ ∃ made,
      visit.moves.getLast? = some made ∧ made.target = task.roster.nameOf visit.current ∧
        made.deltaAfter.toInt = visit.traffic.gap) := by
  refine search_keeps (P := fun visit => state.moves <+: visit.moves ∧
    (visit.moves = state.moves ∨ ∃ made, visit.moves.getLast? = some made ∧
      made.target = task.roster.nameOf visit.current ∧
        made.deltaAfter.toInt = visit.traffic.gap)) (fun visit next candidate _ hkept hhop => ?_)
    (fun traffic _ => ⟨List.prefix_rfl, .inl rfl⟩) h
  obtain ⟨made, hmoves, hrecords⟩ := hhop.moves
  refine ⟨?_, .inr ⟨made, by rw [hmoves, List.getLast?_concat], hrecords.target,
    hrecords.deltaAfter⟩⟩
  rw [hmoves]
  exact hkept.1.trans (List.prefix_append _ _)

/-- A visit that records moves leaves the node where the last one says, with its delta. -/
theorem settles_of_visited (hinv : task.Inv state) (hp : position ∈ task.positions)
    (hself : position ∉ task.producers position) (hv : task.sweep.Visited state position next) :
    task.Settles state next position := by
  cases hv with
  | unassigned _ => exact ⟨List.prefix_rfl, .inl rfl⟩
  | pinned _ _ => exact ⟨List.prefix_rfl, .inl rfl⟩
  | searched hs =>
    have hamid := amid_of_search hinv hp hs.site (fun _ hc => hc) hs.search
    obtain ⟨hbegin, hlast⟩ := last_of_search hs.search
    rw [Settles, hs.moves]
    refine ⟨hbegin, hlast.imp_right ?_⟩
    rintro ⟨made, hmade, htarget, hdelta⟩
    refine ⟨made, hmade, ?_⟩
    rw [htarget]
    exact incurs_of_site hself hamid.current_lt (traffic_of_search hs.search) hdelta hs.length
      hs.site_next

/-! ## The records of a sweep -/

/-- What the records of a sweep say of nodes that are none of their own producers. -/
structure Accounted (task : Task) (result : Result) : Prop where
  /-- When a move is recorded, the deltas are those that its node has once it is assigned to the
      devices of the record. -/
  forecasts : ∀ earlier made, earlier ++ [made] <+: result.moves → ∃ state position,
    task.Accepts state position earlier made ∧ task.nodeName position = made.node ∧
      (position ∉ task.producers position →
        task.Forecasts state.placement position made.source made.deltaBefore ∧
          task.Forecasts state.placement position made.target made.deltaAfter)
  /-- When a visit has ended that has recorded moves, the node is on the target of the last one
      and has the delta that this one says. -/
  settles : ∀ visited position, visited ++ [position] <+: task.positions →
    position ∉ task.producers position → ∃ state next, task.after visited = .ok state ∧
      task.after (visited ++ [position]) = .ok next ∧ task.Settles state next position

/-- After its visit, a node has the traffic that the last record of it tells. -/
theorem settles_of_prefix (h : task.run = .ok result)
    (hp : visited ++ [position] <+: task.positions) (hself : position ∉ task.producers position) :
    ∃ state next, task.after visited = .ok state ∧
      task.after (visited ++ [position]) = .ok next ∧ task.Settles state next position := by
  obtain ⟨next, hnext⟩ := after_of_prefix h hp
  obtain ⟨state, hs, hvisit⟩ := after_concat_eq_ok hnext
  refine ⟨state, next, hs, hnext, ?_⟩
  rcases hvisit with rfl | hvisit
  · exact ⟨List.prefix_rfl, .inl rfl⟩
  · exact settles_of_visited (inv_after (subset_of_prefix_concat hp) hs) (mem_of_prefix_concat hp)
      hself (visit_eq_ok hvisit)

/-- The traffic of a node divides the same intake on every device, and unless the node is one of
    its own producers it does not depend on where the node is. So the records of a sweep say
    what the nodes have once they are on the devices of the records. -/
theorem accounted_of_run (task : Task) :
    (∀ placement position, task.sweep.priced.Conserves placement position ∧
      task.sweep.priced.intake placement position = task.intake placement.site position) ∧
    ∀ result, task.run = .ok result → task.Accounted result := by
  refine ⟨fun placement position => ⟨?_, task.intake_eq placement position⟩, fun result h => ?_⟩
  · exact (PricedGraph.closed_ofGraph task.graph task.estimate).conserves placement position
  · obtain ⟨before, final, hf⟩ := run_eq_ok h
    refine ⟨fun earlier made hmade => ?_, fun visited position hp hself =>
      settles_of_prefix h hp hself⟩
    rw [hf.moves] at hmade
    obtain ⟨state, position, haccepts⟩ := accepts_of_after List.prefix_rfl hf.after hmade
    exact ⟨state, position, haccepts, haccepts.forecasts⟩

/-- The node `c` takes in 110, of which its first move brings 10 on its own device and its second
    one 100. -/
theorem accounted_of_relay : ∃ result, relay.run = .ok result ∧ relay.Accounted result ∧
    relay.sweep.priced.Conserves relay.placement 2 ∧ 2 ∉ relay.producers 2 ∧
    relay.intake relay.placement.site 2 = 110 ∧
    result.moves.map (fun made => (made.node, made.deltaBefore, made.deltaAfter)) =
      [("c", 110, 90), ("c", 90, -90), ("d", 5, -5)] := by
  have h : relay.run.toOption.map (fun result =>
      result.moves.map fun made => (made.node, made.deltaBefore, made.deltaAfter)) =
      some [("c", 110, 90), ("c", 90, -90), ("d", 5, -5)] := by
    decide +kernel
  obtain ⟨result, hrun, hmoves⟩ := exists_ok_of_toOption h
  exact ⟨result, hrun, (accounted_of_run relay).2 result hrun,
    ((accounted_of_run relay).1 relay.placement 2).1, by decide +kernel, by decide +kernel, hmoves⟩

end Task

end DevicePlacement.Sweep

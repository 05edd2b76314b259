import DevicePlacement.Proofs.Placement.Safety
import DevicePlacement.Proofs.Sweep.Refinement

/-!
# Moves go towards data

No step of a sweep asks whether a device has data for a node. But what comes in at a node is
the same everywhere, as a whole, so a lower delta means that more of it comes from the device
itself. If no size is negative, a node therefore only goes to devices where one of its
producers is and ships something (`Task.Draws`).

* `draws_of_hop`: this holds of every hop;
* `accepts_of_after`: every move in the journal was made at some moment of the sweep
  (`Task.Accepts`), as a hop;
* `drawn_of_run`: so it holds of all moves, and a node whose data inputs bring nothing
  (`Task.Idle`) never moves.
-/

namespace DevicePlacement.Sweep

open Checked Function

namespace Task

variable {task : Task} {state next : State} {visit : Visit} {position origin candidate : Nat}
  {visited tried : List Nat} {earlier : List MoveRecord} {made : MoveRecord} {result : Result}

/-! ## Data for a node -/

/-- A device has data for the node at a position, with the nodes at the given sites: one of
    its producers is there and ships something. -/
def Draws (task : Task) (site : Nat → Option String) (position : Nat) (device : String) : Prop :=
  ∃ producer ∈ task.producers position, site producer = some device ∧
    ∃ size, task.size? producer = some size ∧ 0 < size

/-- A data input brings nothing: the graph has no node of the name, or the first one has no
    cost, ships nothing or is not assigned. -/
def Idle (task : Task) (input : InputRef) : Prop :=
  ∀ producer, task.graph.position? input.producer = some producer →
    task.size? producer = none ∨ task.size? producer = some 0 ∨
      (task.graph.nodes[producer]?).bind Node.site? = none

/-- No device has data for a node whose data inputs bring nothing, at any time. -/
theorem not_draws_of_idle {node : Node} (hinv : task.Inv state)
    (hnode : task.graph.nodes[position]? = some node)
    (hidle : ∀ input ∈ node.dataInputs, task.Idle input) (device : String) :
    ¬ task.Draws (state.placement.siteName task.roster) position device := by
  rintro ⟨producer, hproducer, hsite, size, hsize, hpos⟩
  rw [producers, hnode, Option.map_some, Option.getD_some] at hproducer
  obtain ⟨input, hinput, hproducer⟩ := List.mem_filterMap.1 hproducer
  rcases hidle input hinput producer hproducer with hnone | hzero | hunassigned
  · rw [hsize] at hnone
    cases hnone
  · rw [hsize, Option.some_inj] at hzero
    omega
  · -- Only nodes that were assigned from the start are assigned.
    have hassigned := hinv.assigned producer
    rw [← Option.isSome_map (f := task.roster.nameOf), ← Placement.siteName, hsite,
      ← Option.isSome_map (f := task.roster.nameOf), ← Placement.siteName, siteName_placement,
      hunassigned] at hassigned
    cases hassigned

variable (hsizes : ∀ cost ∈ task.estimate.nodes.values, 0 ≤ cost.maxMemorySize.toInt)

include hsizes in
/-- A hop goes to a device that has data for the node. -/
theorem draws_of_hop {placement : Placement} (hp : position ∈ task.positions)
    (hgap : visit.traffic.gap = (task.sweep.priced.arrivals placement position).gap visit.current)
    {next : Visit} (hhop : task.sweep.Hop placement position origin candidate visit next) :
    task.Draws (placement.siteName task.roster) position (task.roster.nameOf candidate) := by
  have hnonneg : ∀ arrival ∈ task.sweep.priced.arrivals placement position, 0 ≤ arrival.2 :=
    fun arrival ha => nonneg_of_mem_arrivals (fun _ _ => PricedGraph.size?_nonneg hsizes) ha
  have hlower := hhop.improves.1
  rw [hgap] at hlower
  obtain ⟨arrival, ha, rfl, hpos⟩ := Arrivals.exists_of_gap_lt hnonneg hlower
  have hmem : (task.roster.nameOf arrival.1, arrival.2) ∈
      task.arrivals (placement.siteName task.roster) position := by
    rw [arrivals_siteName hp]
    exact List.mem_map_of_mem ha
  obtain ⟨producer, hproducer, hsize, hsite⟩ := mem_arrivals.1 hmem
  exact ⟨producer, hproducer, hsite, arrival.2, hsize, hpos⟩

/-! ## The moments of moves -/

/-- A sweep makes a move when the moves `earlier` have been made: this is in the visit of the
    node at a position, which began in the given state, and a candidate was accepted. -/
inductive Accepts (task : Task) : State → Nat → List MoveRecord → MoveRecord → Prop
  | intro {visited tried : List Nat} {position origin candidate : Nat} {state : State}
      {visit next : Visit} {made : MoveRecord} :
      visited ++ [position] <+: task.positions → task.after visited = .ok state →
      state.placement.site position = some origin →
      tried ++ [candidate] <+: task.sweep.candidates →
      task.sweep.search state position origin tried = .ok visit →
      task.sweep.consider state.placement position origin visit candidate = .ok next →
      next.moves = visit.moves ++ [made] →
      Accepts task state position visit.moves made

/-- The last part of a list that has grown by one element is new or was there before. -/
theorem concat_prefix_concat {α : Type} {l l' : List α} {a b : α} (h : l ++ [a] <+: l' ++ [b]) :
    (l = l' ∧ a = b) ∨ l ++ [a] <+: l' := by
  rcases List.prefix_concat_iff.1 h with heq | hprefix
  · obtain ⟨hl, ha⟩ := List.append_inj' heq rfl
    exact .inl ⟨hl, List.singleton_inj.1 ha⟩
  · exact .inr hprefix

/-- A move that a search has added was made when it considered some candidate. -/
theorem accepts_of_search (hp : visited ++ [position] <+: task.positions)
    (hs : task.after visited = .ok state) (hsite : state.placement.site position = some origin)
    (ht : tried <+: task.sweep.candidates)
    (h : task.sweep.search state position origin tried = .ok visit)
    (hmade : earlier ++ [made] <+: visit.moves) :
    earlier ++ [made] <+: state.moves ∨ task.Accepts state position earlier made := by
  induction tried using List.reverseRecOn generalizing visit with
  | nil =>
    obtain ⟨traffic, _, h⟩ := bind_eq_ok.1 h
    rw [foldlM_nil_eq_ok] at h
    subst h
    exact .inl hmade
  | append_singleton tried candidate ih =>
    obtain ⟨middle, hmiddle, hconsider⟩ := search_concat_eq_ok.1 h
    have hbegin := (List.prefix_append tried [candidate]).trans ht
    cases consider_eq_ok hconsider with
    | skipped _ => exact ih hbegin hmiddle hmade
    | refused _ _ _ => exact ih hbegin hmiddle hmade
    | accepted hhop =>
      obtain ⟨added, hmoves, _⟩ := hhop.moves
      rw [hmoves] at hmade
      -- The record is the last one, made at this candidate, or it was there before.
      rcases concat_prefix_concat hmade with ⟨rfl, rfl⟩ | hmade
      · exact .inr (.intro hp hs hsite ht hmiddle hconsider hmoves)
      · exact ih hbegin hmiddle hmade

/-- Every move in the journal was made at some moment of the sweep. -/
theorem accepts_of_after (hp : visited <+: task.positions) (hs : task.after visited = .ok state)
    (hmade : earlier ++ [made] <+: state.moves) :
    ∃ state position, task.Accepts state position earlier made := by
  induction visited using List.reverseRecOn generalizing state with
  | nil =>
    rw [after_nil_eq_ok hs] at hmade
    simp at hmade
  | append_singleton visited position ih =>
    obtain ⟨middle, hmiddle, hvisit⟩ := after_concat_eq_ok hs
    have hbegin := (List.prefix_append visited [position]).trans hp
    -- With fewer than two candidates there is no visit, and no record either.
    rcases hvisit with rfl | hvisit
    · exact ih hbegin hmiddle hmade
    cases visit_eq_ok hvisit with
    | unassigned _ => exact ih hbegin hmiddle hmade
    | pinned _ _ => exact ih hbegin hmiddle hmade
    | searched hsearched =>
      rw [hsearched.moves] at hmade
      rcases accepts_of_search hp hmiddle hsearched.site List.prefix_rfl hsearched.search hmade
        with hmade | haccepts
      · exact ih hbegin hmiddle hmade
      · exact ⟨middle, position, haccepts⟩

/-- A move is made by a hop that some search has come to, and recorded as such. -/
theorem Accepts.exists_hop (h : task.Accepts state position earlier made) :
    ∃ origin tried candidate visit next, position ∈ task.positions ∧
      state.placement.site position = some origin ∧
      tried ++ [candidate] <+: task.sweep.candidates ∧
      task.sweep.search state position origin tried = .ok visit ∧
      task.sweep.Hop state.placement position origin candidate visit next ∧
      task.sweep.Records position made visit next := by
  cases h with
  | intro hp hs hsite ht hsearch hconsider hmoves =>
    cases consider_eq_ok hconsider with
    | skipped _ => simp at hmoves
    | refused _ _ _ => simp at hmoves
    | accepted hhop =>
      obtain ⟨added, hadded, hrecords⟩ := hhop.moves
      rw [hadded, List.append_cancel_left_eq, List.singleton_inj] at hmoves
      subst hmoves
      exact ⟨_, _, _, _, _, mem_of_prefix_concat hp, hsite, ht, hsearch, hhop, hrecords⟩

/-- A record names its node. -/
theorem nodeName_of_records {visit next : Visit} (h : task.sweep.Records position made visit next) :
    position < task.graph.nodes.length ∧ task.nodeName position = made.node := by
  obtain ⟨node, hnode, hname⟩ := h.node
  have hnode : task.graph.nodes[position]? = some node := hnode
  refine ⟨(List.getElem?_eq_some_iff.1 hnode).1, ?_⟩
  rw [nodeName, hnode, hname]
  rfl

include hsizes in
/-- When a move is made, its target has data for its node. -/
theorem Accepts.draws (h : task.Accepts state position earlier made) :
    task.nodeName position = made.node ∧
      task.Draws (state.placement.siteName task.roster) position made.target := by
  obtain ⟨origin, tried, candidate, visit, next, hp, _, _, hsearch, hhop, hrecords⟩ := h.exists_hop
  refine ⟨(nodeName_of_records hrecords).2, ?_⟩
  rw [hrecords.target, hhop.current]
  exact draws_of_hop hsizes hp (PricedGraph.gap_of_traffic (traffic_of_search hsearch)) hhop

/-- Moves are made when the invariant of the sweep holds. -/
theorem Accepts.inv (h : task.Accepts state position earlier made) : task.Inv state := by
  cases h with
  | intro hp hs _ _ _ _ _ => exact inv_after (subset_of_prefix_concat hp) hs

/-! ## Nodes that never move -/

include hsizes in
/-- A visit leaves a node where it is if no device has data for it. -/
theorem site_of_visited {other : Nat} (hp : position ∈ task.positions)
    (hnone : ∀ device, ¬ task.Draws (state.placement.siteName task.roster) other device)
    (hv : task.sweep.Visited state position next) :
    next.placement.site other = state.placement.site other := by
  cases hv with
  | unassigned _ => rfl
  | pinned _ _ => rfl
  | @searched origin visit _ hs =>
    rw [hs.site_next, update_apply]
    split
    · next heq =>
      subst heq
      -- A first hop would need a producer that draws the node, and later hops need a first one.
      have hstill := search_keeps
        (P := fun visit => visit.current = origin ∧ visit.traffic.gap =
          (task.sweep.priced.arrivals state.placement other).gap visit.current)
        (fun visit next candidate _ ⟨_, hgap⟩ hhop =>
          absurd (draws_of_hop hsizes hp hgap hhop) (hnone _))
        (fun traffic htraffic => ⟨rfl, PricedGraph.gap_of_traffic htraffic⟩) hs.search
      rw [hs.site, hstill.1]
    · rfl

/-- What is true of the moves of a sweep when no size is negative. -/
structure Drawn (task : Task) (result : Result) : Prop where
  /-- When a move was made, its target had data for its node. -/
  draws : ∀ earlier made, earlier ++ [made] <+: result.moves → ∃ state position,
    task.Accepts state position earlier made ∧ task.nodeName position = made.node ∧
      task.Draws (state.placement.siteName task.roster) position made.target
  /-- A node whose data inputs bring nothing never moves. -/
  stays : ∀ position node, task.graph.nodes[position]? = some node →
    (∀ input ∈ node.dataInputs, task.Idle input) →
      result.graph.nodes[position]? = some node ∧
        ∀ state earlier made, ¬ task.Accepts state position earlier made

include hsizes in
/-- If nothing ever comes in at a node, no device ever draws it. -/
theorem Finished.stays {before : Balance} {final : State} {node : Node}
    (hf : task.Finished before final result) (hnode : task.graph.nodes[position]? = some node)
    (hidle : ∀ input ∈ node.dataInputs, task.Idle input) :
    result.graph.nodes[position]? = some node := by
  have hfinal := visitAll_keeps
    (P := fun state => task.Inv state ∧
      state.placement.site position = task.placement.site position)
    (fun state next other hp ⟨hinv, hsite⟩ hv =>
      ⟨inv_of_visited hp hinv hv, (site_of_visited hsizes hp
        (not_draws_of_idle hinv hnode hidle) hv).trans hsite⟩)
    ⟨inv_start hf.opening, rfl⟩ hf.swept
  exact (hf.node_of_site hfinal.2).trans hnode

/-- If no size is negative, every move goes to a device that has data for the node at that
    time, and a node whose data inputs bring nothing never moves. -/
theorem drawn_of_run (hsizes : ∀ cost ∈ task.estimate.nodes.values, 0 ≤ cost.maxMemorySize.toInt)
    (h : task.run = .ok result) : task.Drawn result := by
  obtain ⟨before, final, hf⟩ := run_eq_ok h
  refine ⟨fun earlier made hmade => ?_, fun position node hnode hidle =>
    ⟨hf.stays hsizes hnode hidle, fun state earlier made haccepts => ?_⟩⟩
  · rw [hf.moves] at hmade
    obtain ⟨state, position, haccepts⟩ := accepts_of_after List.prefix_rfl hf.after hmade
    exact ⟨state, position, haccepts, haccepts.draws hsizes⟩
  · exact not_draws_of_idle haccepts.inv hnode hidle _ (haccepts.draws hsizes).2

theorem drawn_of_relay : ∃ result, relay.run = .ok result ∧ relay.Drawn result ∧
    result.moves.map (fun made => (made.node, made.source, made.target)) =
      [("c", "dev0", "dev1"), ("c", "dev1", "dev2"), ("d", "dev9", "dev2")] := by
  have hsizes : ∀ cost ∈ relay.estimate.nodes.values, 0 ≤ cost.maxMemorySize.toInt := by
    decide +kernel
  obtain ⟨result, h, hmoves, _⟩ := run_relay
  exact ⟨result, h, drawn_of_run hsizes h, hmoves⟩

end Task

end DevicePlacement.Sweep

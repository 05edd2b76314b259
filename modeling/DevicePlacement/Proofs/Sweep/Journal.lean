import DevicePlacement.Proofs.Sweep.Replay
import DevicePlacement.Proofs.Sweep.Tour
import Mathlib.Data.Finset.Card
import Mathlib.Data.List.Chain

/-!
# The journal of a sweep

The moves that a sweep returns are a faithful journal of it, if the nodes of the
graph have different names: whoever replays them from the given graph and the loads
before ends with the returned graph and the loads after (`Journal.replays`).

The journal is in order as well (`Orderly`). A visit adds the records of one node in
one piece, its entry (`Entry`): every record goes on from where the last one has
come, with a lower delta, to a device that comes later in the inventory. Entries
follow one another in the order of the graph (`told_of_leg`).
-/

namespace DevicePlacement.Sweep

open Checked Function

/-- The share that a load has of the loads of all devices. -/
def Result.share (result : Result) (load : Int) : Float :=
  if result.totalComputeCost = 0 then result.idealShare
  else Float.ofInt load / Float.ofInt result.totalComputeCost.toInt

namespace Task

variable {task : Task} {before : Balance} {final : State} {result : Result}

/-- The names of the nodes, in the order of the graph. -/
def names (task : Task) : List String :=
  task.graph.nodes.map Node.name

/-- Different names tell the positions apart. -/
theorem idxOf_name {position : Nat} {name : String} (hnames : task.names.Nodup)
    (h : task.names[position]? = some name) : task.names.idxOf name = position := by
  obtain ⟨hlt, rfl⟩ := List.getElem?_eq_some_iff.1 h
  exact hnames.idxOf_getElem position hlt

/-! ## The order of records -/

/-- Records are in order. -/
structure Orderly (task : Task) (moves : List MoveRecord) : Prop where
  node_mem : ∀ made ∈ moves, made.node ∈ task.names
  /-- The nodes come in the order of the graph. -/
  order : moves.Pairwise fun made later =>
    task.names.idxOf made.node ≤ task.names.idxOf later.node
  /-- A node goes on from where it has come, with the delta it has there. -/
  linked : moves.IsChain fun made next => made.node = next.node →
    next.source = made.target ∧ next.deltaBefore = made.deltaAfter
  /-- The delta falls with every move. -/
  falls : ∀ made ∈ moves, made.deltaAfter < made.deltaBefore
  target_mem : ∀ made ∈ moves, made.target ∈ task.devices
  /-- The devices to which a node goes come in the order of the inventory. -/
  targets : moves.Pairwise fun made later => made.node = later.node →
    task.devices.idxOf made.target < task.devices.idxOf later.target

theorem orderly_nil (task : Task) : task.Orderly [] :=
  ⟨by simp, .nil, .nil, by simp, by simp, .nil⟩

/-- One record that lowers the delta is in order. -/
theorem orderly_singleton {made : MoveRecord} (hnode : made.node ∈ task.names)
    (hfalls : made.deltaAfter < made.deltaBefore) (htarget : made.target ∈ task.devices) :
    task.Orderly [made] where
  node_mem := by simpa using hnode
  order := List.pairwise_singleton ..
  linked := .singleton made
  falls := by simpa using hfalls
  target_mem := by simpa using htarget
  targets := List.pairwise_singleton ..

/-- Records may follow others if they are about the same node or later ones, and go on from
    where those have come. -/
theorem Orderly.append {moves more : List MoveRecord} (h : task.Orderly moves)
    (h' : task.Orderly more)
    (order : ∀ made ∈ moves, ∀ later ∈ more,
      task.names.idxOf made.node ≤ task.names.idxOf later.node)
    (linked : ∀ made ∈ moves.getLast?, ∀ next ∈ more.head?, made.node = next.node →
      next.source = made.target ∧ next.deltaBefore = made.deltaAfter)
    (targets : ∀ made ∈ moves, ∀ later ∈ more, made.node = later.node →
      task.devices.idxOf made.target < task.devices.idxOf later.target) :
    task.Orderly (moves ++ more) where
  node_mem made hm := (List.mem_append.1 hm).elim (h.node_mem made) (h'.node_mem made)
  order := List.pairwise_append.2 ⟨h.order, h'.order, order⟩
  linked := List.isChain_append.2 ⟨h.linked, h'.linked, linked⟩
  falls made hm := (List.mem_append.1 hm).elim (h.falls made) (h'.falls made)
  target_mem made hm := (List.mem_append.1 hm).elim (h.target_mem made) (h'.target_mem made)
  targets := List.pairwise_append.2 ⟨h.targets, h'.targets, targets⟩

/-- Records of one node are not separated by records of others. -/
theorem Orderly.contiguous {moves earlier between later : List MoveRecord}
    {first last : MoveRecord} (h : task.Orderly moves)
    (hmoves : moves = earlier ++ first :: between ++ last :: later)
    (hsame : first.node = last.node) : ∀ made ∈ between, made.node = first.node := by
  intro made hmade
  have hmem : made ∈ moves := by simp [hmoves, hmade]
  have horder := h.order
  rw [hmoves, List.append_assoc, List.pairwise_append, List.cons_append, List.pairwise_cons,
    List.pairwise_append] at horder
  obtain ⟨_, ⟨hfirst, _, _, hlast⟩, _⟩ := horder
  have hle := hfirst made (List.mem_append_left _ hmade)
  have hge := hlast made hmade last List.mem_cons_self
  rw [← hsame] at hge
  exact (List.idxOf_inj (h.node_mem made hmem)).1 (Nat.le_antisymm hge hle)

/-! ## Entries -/

/-- The devices that are tried come in the order of the inventory. -/
theorem idxOf_lt_of_tried {tried : List Nat} {earlier candidate : Nat}
    (hbegin : tried ++ [candidate] <+: task.sweep.candidates) (h : earlier ∈ tried) :
    task.devices.idxOf (task.roster.nameOf earlier) <
      task.devices.idxOf (task.roster.nameOf candidate) := by
  have hsorted : (task.sweep.candidates.map task.roster.nameOf).Pairwise fun device later =>
      task.devices.idxOf device < task.devices.idxOf later := by
    rw [map_nameOf_candidates]
    exact (Roster.pairwise_idxOf_eraseDups task.devices).sublist List.filter_sublist
  have htried := List.pairwise_map.1 (hsorted.sublist (hbegin.sublist.map _))
  exact (List.pairwise_append.1 htried).2.2 earlier h candidate (List.mem_singleton_self _)

/-- The records that a visit has added, of the node at its position. -/
structure Entry (task : Task) (state : State) (position origin : Nat) (tried : List Nat)
    (entry : List MoveRecord) (visit : Visit) : Prop where
  moves : visit.moves = state.moves ++ entry
  orderly : task.Orderly entry
  node : ∀ made ∈ entry, task.names[position]? = some made.node
  target : ∀ made ∈ entry, ∃ candidate ∈ tried, made.target = task.roster.nameOf candidate
  /-- The last record leads to where the visit has come. -/
  last : ∀ made ∈ entry.getLast?, made.target = task.roster.nameOf visit.current ∧
    made.deltaAfter.toInt = visit.traffic.gap
  /-- Nothing was added if the node is still where its visit began. -/
  eq_nil_iff : entry = [] ↔ visit.current = origin

/-- A record that goes on where the entry has come keeps it in order. -/
theorem Entry.orderly_concat {state : State} {position origin candidate : Nat} {tried : List Nat}
    {entry : List MoveRecord} {visit next : Visit} {made : MoveRecord}
    (hbegin : tried ++ [candidate] <+: task.sweep.candidates)
    (h : task.Entry state position origin tried entry visit)
    (hposition : task.names[position]? = some made.node)
    (hfalls : made.deltaAfter < made.deltaBefore) (hcurrent : next.current = candidate)
    (hmade : task.sweep.Records position made visit next) : task.Orderly (entry ++ [made]) := by
  have htarget : made.target = task.roster.nameOf candidate := hcurrent ▸ hmade.target
  have hmem : made.target ∈ task.devices :=
    htarget ▸ (nameOf_candidate (mem_of_prefix_concat hbegin)).1
  -- A visit writes about its own node only, so order is a matter of targets and deltas.
  have hsame : ∀ other ∈ entry, other.node = made.node := fun other ho =>
    Option.some.inj ((h.node other ho).symm.trans hposition)
  refine h.orderly.append (orderly_singleton (List.mem_of_getElem? hposition) hfalls hmem) ?_ ?_ ?_
  · intro other ho later hl
    rw [List.mem_singleton.1 hl, hsame other ho]
  · intro other ho later hl _
    cases hl
    obtain ⟨htarget, hdelta⟩ := h.last other ho
    refine ⟨hmade.source.trans htarget.symm, ?_⟩
    rw [← Int64.toInt_inj, hmade.deltaBefore, hdelta]
  · intro other ho later hl _
    obtain ⟨earlier, hearlier, hother⟩ := h.target other ho
    rw [List.mem_singleton.1 hl, htarget, hother]
    exact idxOf_lt_of_tried hbegin hearlier

/-- Each hop adds one record, from where the visit is to its candidate. -/
theorem entry_of_hop {state : State} {position origin candidate : Nat} {tried : List Nat}
    {entry : List MoveRecord} {visit next : Visit}
    (hbegin : tried ++ [candidate] <+: task.sweep.candidates)
    (h : task.Entry state position origin tried entry visit)
    (hhop : task.sweep.Hop state.placement position origin candidate visit next) :
    ∃ made, task.Entry state position origin (tried ++ [candidate]) (entry ++ [made]) next := by
  obtain ⟨made, hmoves, hmade⟩ := hhop.moves
  obtain ⟨node, hnode, hname⟩ := hmade.node
  have hposition : task.names[position]? = some made.node := by
    rw [names, List.getElem?_map, show task.graph.nodes[position]? = some node from hnode, hname]
    rfl
  have hfalls : made.deltaAfter < made.deltaBefore := by
    rw [Int64.lt_iff_toInt_lt, hmade.deltaAfter, hmade.deltaBefore, hhop.gap_eq]
    exact hhop.improves.1
  refine ⟨made, ?_⟩
  exact {
    moves := by rw [hmoves, h.moves, List.append_assoc]
    orderly := h.orderly_concat hbegin hposition hfalls hhop.current hmade
    node := fun other ho => by
      rcases List.mem_append.1 ho with ho | ho
      · exact h.node other ho
      · rwa [List.mem_singleton.1 ho]
    target := fun other ho => by
      rcases List.mem_append.1 ho with ho | ho
      · obtain ⟨earlier, hearlier, hother⟩ := h.target other ho
        exact ⟨earlier, List.mem_append_left _ hearlier, hother⟩
      · rw [List.mem_singleton.1 ho]
        exact ⟨candidate, List.mem_append_right _ (List.mem_singleton_self _),
          hhop.current ▸ hmade.target⟩
    last := fun other ho => by
      rw [List.getLast?_concat] at ho
      cases ho
      exact ⟨hmade.target, hmade.deltaAfter⟩
    eq_nil_iff := by
      -- The visit never comes back to where it began.
      rw [hhop.current]
      exact iff_of_false (by simp) hhop.ne_origin }

/-- By induction, the search has recorded all its hops. -/
theorem entry_of_search {state : State} {position origin : Nat} {visit : Visit}
    (h : task.sweep.search state position origin task.sweep.candidates = .ok visit) :
    ∃ entry, task.Entry state position origin task.sweep.candidates entry visit := by
  refine search_keeps_along
    (P := fun tried visit => ∃ entry, task.Entry state position origin tried entry visit)
    ?_ ?_ ?_ h
  · rintro tried candidate visit ⟨entry, hentry⟩
    refine ⟨entry, { hentry with target := fun made hmade => ?_ }⟩
    obtain ⟨earlier, hearlier, htarget⟩ := hentry.target made hmade
    exact ⟨earlier, List.mem_append_left _ hearlier, htarget⟩
  · rintro tried candidate visit next hbegin ⟨entry, hentry⟩ hhop
    obtain ⟨made, hnext⟩ := entry_of_hop hbegin hentry hhop
    exact ⟨_, hnext⟩
  · exact fun traffic _ => ⟨[], (List.append_nil _).symm, task.orderly_nil, by simp, by simp,
      by simp, by simp⟩

/-! ## The whole journal -/

/-- The journal after some visits. -/
structure Told (task : Task) (done : List Nat) (state : State) : Prop where
  orderly : task.Orderly state.moves
  /-- It has records of nodes that were visited, and of no others. -/
  done : ∀ made ∈ state.moves, ∃ position ∈ done, task.names[position]? = some made.node
  /-- The nodes that moved are those it names. -/
  moved : state.moved = (state.moves.map MoveRecord.node).toFinset.card

/-- An entry adds the name of its node, unless it is empty. -/
theorem Entry.card_nodes {state : State} {position origin : Nat} {tried : List Nat}
    {entry : List MoveRecord} {visit : Visit}
    (h : task.Entry state position origin tried entry visit)
    (hnew : ∀ made ∈ state.moves, task.names[position]? ≠ some made.node) :
    ((state.moves ++ entry).map MoveRecord.node).toFinset.card =
      (state.moves.map MoveRecord.node).toFinset.card +
        if visit.current = origin then 0 else 1 := by
  cases entry with
  | nil => rw [List.append_nil, if_pos (h.eq_nil_iff.1 rfl), Nat.add_zero]
  | cons first rest =>
    have hfirst := h.node first List.mem_cons_self
    -- However many records the visit has made, they are about one node.
    have hentry : ((first :: rest).map MoveRecord.node).toFinset = {first.node} := by
      refine Finset.eq_singleton_iff_unique_mem.2 ⟨by simp, fun name hname => ?_⟩
      obtain ⟨made, hmade, rfl⟩ := List.mem_map.1 (List.mem_toFinset.1 hname)
      exact Option.some.inj ((h.node made hmade).symm.trans hfirst)
    have hnot : first.node ∉ (state.moves.map MoveRecord.node).toFinset := by
      rw [List.mem_toFinset, List.mem_map]
      rintro ⟨made, hmade, hname⟩
      exact hnew made hmade (hname ▸ hfirst)
    rw [List.map_append, List.toFinset_append, hentry, Finset.union_comm,
      ← Finset.insert_eq, Finset.card_insert_of_notMem hnot,
      if_neg fun hcurrent => List.cons_ne_nil _ _ (h.eq_nil_iff.2 hcurrent)]

/-- What is in the journal before a leg is about nodes that stand earlier. -/
theorem Told.idxOf_lt {done : List Nat} {position : Nat} {state next : State}
    (h : task.Told done state) (hnames : task.names.Nodup)
    (hleg : task.Leg final done position state next) :
    ∀ made ∈ state.moves, task.names.idxOf made.node < position := by
  intro made hmade
  obtain ⟨other, hother, hname⟩ := h.done made hmade
  rw [idxOf_name hnames hname]
  exact hleg.lt other hother

/-- A visit comes after all records of earlier nodes, so what it adds is in order. -/
theorem told_of_leg {done : List Nat} {position : Nat} {state next : State}
    (hnames : task.names.Nodup) (hleg : task.Leg final done position state next)
    (h : task.Told done state) : task.Told (done ++ [position]) next := by
  have hdone : ∀ made ∈ state.moves, ∃ other ∈ done ++ [position],
      task.names[other]? = some made.node := fun made hmade => by
    obtain ⟨other, hother, hname⟩ := h.done made hmade
    exact ⟨other, List.mem_append_left _ hother, hname⟩
  cases hleg.visited with
  | unassigned _ => exact ⟨h.orderly, hdone, h.moved⟩
  | pinned _ _ => exact ⟨h.orderly, hdone, h.moved⟩
  | searched hs =>
    obtain ⟨entry, hentry⟩ := entry_of_search hs.search
    have hmoves := hs.moves.trans hentry.moves
    -- Positions are visited in increasing order, so no earlier record is about this node.
    have hearlier := h.idxOf_lt hnames hleg
    have hlt : ∀ made ∈ state.moves, ∀ later ∈ entry,
        task.names.idxOf made.node < task.names.idxOf later.node := by
      intro made hmade later hlater
      rw [idxOf_name hnames (hentry.node later hlater)]
      exact hearlier made hmade
    have hnew : ∀ made ∈ state.moves, task.names[position]? ≠ some made.node :=
      fun made hmade hposition => (hearlier made hmade).ne (idxOf_name hnames hposition)
    refine ⟨?_, ?_, ?_⟩
    · rw [hmoves]
      refine h.orderly.append hentry.orderly (fun made hmade later hlater =>
        (hlt made hmade later hlater).le) ?_ fun made hmade later hlater hsame => ?_
      · intro made hmade later hlater hsame
        have hne := hlt made (List.mem_of_getLast? hmade) later (List.mem_of_head? hlater)
        exact absurd (congrArg task.names.idxOf hsame) hne.ne
      · exact absurd (congrArg task.names.idxOf hsame) (hlt made hmade later hlater).ne
    · intro made hmade
      rw [hmoves] at hmade
      rcases List.mem_append.1 hmade with hmade | hmade
      · exact hdone made hmade
      · exact ⟨position, List.mem_append_right _ (List.mem_singleton_self _),
          hentry.node made hmade⟩
    · rw [hs.moved, h.moved, hmoves, hentry.card_nodes hnew]

/-- After all visits, the journal is that of the whole graph. -/
theorem Finished.told (h : task.Finished before final result) (hnames : task.names.Nodup) :
    task.Told task.tour final :=
  h.along ⟨task.orderly_nil, fun _ hmade => absurd hmade List.not_mem_nil, rfl⟩
    fun _ _ _ _ hleg htold => told_of_leg hnames hleg htold

/-- What is true of the moves that a sweep returns. -/
structure Journal (task : Task) (result : Result) : Prop extends
    task.Orderly result.moves where
  /-- Replayed from the given graph and the loads before, they lead to the returned
      graph and the loads after. -/
  replays : result.moves.foldlM (Scene.replay task.estimate.computeOf)
      ⟨task.graph, result.deviceLoads.map fun row => (row.device, row.loadBefore.toInt)⟩ =
    some ⟨result.graph, result.deviceLoads.map fun row => (row.device, row.loadAfter.toInt)⟩
  /-- Right after its replay, both devices of a record have the shares that it says. -/
  shares : ∀ earlier made, earlier ++ [made] <+: result.moves → ∃ scene,
    (earlier ++ [made]).foldlM (Scene.replay task.estimate.computeOf)
      ⟨task.graph, result.deviceLoads.map fun row => (row.device, row.loadBefore.toInt)⟩ =
        some scene ∧
    (scene.loads.lookup made.source).map result.share = some made.originShare ∧
    (scene.loads.lookup made.target).map result.share = some made.destinationShare
  /-- The records of a node are in one piece. -/
  contiguous : ∀ earlier first between last later,
    result.moves = earlier ++ first :: between ++ last :: later → first.node = last.node →
      ∀ made ∈ between, made.node = first.node
  /-- They name as many nodes as have moved. -/
  moved : result.moved = (result.moves.map MoveRecord.node).toFinset.card

/-- The shares in the result are measured as those in the sweep. -/
theorem Finished.share_eq (h : task.Finished before final result) :
    result.share = task.scale.share := by
  have hscale := h.inv.accounts.scale
  funext load
  rw [Result.share, ← hscale, Scale.share, h.totalComputeCost, h.idealShare]
  exact if_congr (by rw [Balance.scale, ← Int64.toInt_zero, Int64.toInt_inj]) rfl rfl

/-- Replaying starts from the graph and the loads before. -/
theorem Finished.scene_before (h : task.Finished before final result) :
    task.scene task.placement.site before =
      ⟨task.graph, result.deviceLoads.map fun row => (row.device, row.loadBefore.toInt)⟩ := by
  rw [scene, settle_placement]
  congr 1
  exact (h.map_rows fun _ _ hrow => Prod.ext hrow.name hrow.loadBefore).symm

/-- It ends with the graph and the loads after. -/
theorem Finished.scene_after (h : task.Finished before final result) :
    task.scene final.placement.site final.balance =
      ⟨result.graph, result.deviceLoads.map fun row => (row.device, row.loadAfter.toInt)⟩ := by
  rw [h.graph_eq h.inv.length, scene]
  congr 1
  exact (h.map_rows fun _ _ hrow => Prod.ext hrow.name hrow.loadAfter).symm

/-- If the nodes of a graph have different names, the moves of a sweep are a faithful
    journal of it. -/
theorem journal_of_run (hnames : (task.graph.nodes.map Node.name).Nodup)
    (h : task.run = .ok result) : task.Journal result := by
  obtain ⟨before, final, hf⟩ := run_eq_ok h
  have hrecounted := hf.recounted hnames
  have htold := hf.told hnames
  have horderly : task.Orderly result.moves := hf.moves ▸ htold.orderly
  exact {
    toOrderly := horderly
    replays := by
      rw [hf.moves, ← hf.scene_before, ← hf.scene_after]
      exact hrecounted.replays
    shares := by
      rw [hf.moves, ← hf.scene_before, hf.share_eq]
      exact hrecounted.shares
    contiguous := fun _ _ _ _ _ => horderly.contiguous
    moved := by rw [hf.moved, hf.moves, htold.moved] }

theorem journal_of_relay : ∃ result,
    (relay.graph.nodes.map Node.name).Nodup ∧ relay.run = .ok result ∧ relay.Journal result ∧
      result.moves.map (fun made => (made.node, made.source, made.target)) =
        [("c", "dev0", "dev1"), ("c", "dev1", "dev2"), ("d", "dev9", "dev2")] := by
  have hnames : (relay.graph.nodes.map Node.name).Nodup := by decide +kernel
  obtain ⟨result, h, hmoves, _⟩ := run_relay
  exact ⟨result, hnames, h, journal_of_run hnames h, hmoves⟩

end Task

end DevicePlacement.Sweep

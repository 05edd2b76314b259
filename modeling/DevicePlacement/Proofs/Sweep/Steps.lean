import DevicePlacement.Proofs.Placement.Balance
import DevicePlacement.Sweep

/-!
# The steps of a sweep

What a step of a sweep did, if it returned. There is one case per branch:

* a candidate is skipped, refused or accepted (`Considered`);
* a visit passes a node over or searches the candidates for it (`Visited`).

An accepted candidate is a *hop* (`Hop`). Nothing but hops changes a visit, and
nothing but visits changes a sweep, so what every hop keeps is kept by the visit
(`search_keeps`), and what every visit keeps is kept by the sweep
(`visitAll_keeps`).
-/

namespace DevicePlacement.Sweep

open Checked Function

variable {sweep : Sweep} {placement : Placement} {position origin candidate : Nat}

/-! ## Candidates -/

/-- Whether a candidate is better than where the visit is: it strictly lowers the
    delta, and both devices stay near their ideal share. -/
def Improves (sweep : Sweep) (placement : Placement) (position : Nat) (visit : Visit)
    (candidate : Nat) : Prop :=
  (sweep.priced.arrivals placement position).gap candidate < visit.traffic.gap ∧
    visit.balance.scale.isNear
      (visit.balance.loadOf visit.current - sweep.priced.compute position) = true ∧
    visit.balance.scale.isNear
      (visit.balance.loadOf candidate + sweep.priced.compute position) = true

/-- What the record of a move says: the names of the node and the devices, the
    deltas on both, and their shares once the move is made. -/
structure Records (sweep : Sweep) (position : Nat) (made : MoveRecord) (visit next : Visit) :
    Prop where
  node : ∃ node, sweep.priced.graph.nodes[position]? = some node ∧ made.node = node.name
  source : made.source = sweep.roster.nameOf visit.current
  target : made.target = sweep.roster.nameOf next.current
  deltaBefore : made.deltaBefore.toInt = visit.traffic.gap
  deltaAfter : made.deltaAfter.toInt = next.traffic.gap
  originShare : made.originShare =
    next.balance.scale.share (next.balance.loadOf visit.current)
  destinationShare : made.destinationShare =
    next.balance.scale.share (next.balance.loadOf next.current)

/-- A hop: the candidate was accepted and the visit goes on from there. -/
structure Hop (sweep : Sweep) (placement : Placement) (position origin candidate : Nat)
    (visit next : Visit) : Prop where
  ne_origin : candidate ≠ origin
  ne_current : candidate ≠ visit.current
  improves : sweep.Improves placement position visit candidate
  current : next.current = candidate
  traffic : sweep.priced.traffic placement position candidate = .ok next.traffic
  balance : Balance.Moved visit.current candidate (sweep.priced.compute position)
    visit.balance next.balance
  moves : ∃ made, next.moves = visit.moves ++ [made] ∧ sweep.Records position made visit next

/-- The visit goes on with the delta of the candidate. -/
theorem Hop.gap_eq {visit next : Visit}
    (h : sweep.Hop placement position origin candidate visit next) :
    next.traffic.gap = (sweep.priced.arrivals placement position).gap candidate :=
  PricedGraph.gap_of_traffic h.traffic

/-- What became of a candidate. -/
inductive Considered (sweep : Sweep) (placement : Placement) (position origin candidate : Nat)
    (visit : Visit) : Visit → Prop
  | skipped : candidate = origin ∨ candidate = visit.current →
      Considered sweep placement position origin candidate visit visit
  | refused : candidate ≠ origin → candidate ≠ visit.current →
      ¬ sweep.Improves placement position visit candidate →
      Considered sweep placement position origin candidate visit visit
  | accepted {next : Visit} : sweep.Hop placement position origin candidate visit next →
      Considered sweep placement position origin candidate visit next

/-- A record that is made tells the move from one visit to the next. -/
theorem record_eq_ok {move : Relocation} {balance : Balance} {made : MoveRecord}
    {visit next : Visit} (h : sweep.record position move balance = .ok made)
    (horigin : move.origin = visit.current) (hdestination : move.destination = next.current)
    (hbefore : move.before = visit.traffic) (hafter : move.after = next.traffic)
    (hbalance : balance = next.balance) : sweep.Records position made visit next := by
  -- Each field of the record is a look-up or a difference that has returned.
  obtain ⟨node, hnode, h⟩ := bind_eq_ok.1 h
  obtain ⟨source, hsource, h⟩ := bind_eq_ok.1 h
  obtain ⟨target, htarget, h⟩ := bind_eq_ok.1 h
  obtain ⟨deltaBefore, hdeltaBefore, h⟩ := bind_eq_ok.1 h
  obtain ⟨deltaAfter, hdeltaAfter, h⟩ := bind_eq_ok.1 h
  obtain ⟨originShare, horiginShare, h⟩ := bind_eq_ok.1 h
  obtain ⟨destinationShare, hdestinationShare, h⟩ := bind_eq_ok.1 h
  rw [pure_eq_ok] at h
  subst h hbalance
  rw [horigin] at hsource horiginShare
  rw [hdestination] at htarget hdestinationShare
  exact {
    node := ⟨node, row_eq_ok_iff.1 hnode, rfl⟩
    source := (Roster.name_eq_ok_iff.1 hsource).2.symm
    target := (Roster.name_eq_ok_iff.1 htarget).2.symm
    deltaBefore := hbefore ▸ Traffic.delta_eq_ok hdeltaBefore
    deltaAfter := hafter ▸ Traffic.delta_eq_ok hdeltaAfter
    originShare := Balance.share_eq_ok horiginShare
    destinationShare := Balance.share_eq_ok hdestinationShare }

/-- A candidate is skipped, refused or accepted. -/
theorem consider_eq_ok {visit next : Visit}
    (h : sweep.consider placement position origin visit candidate = .ok next) :
    sweep.Considered placement position origin candidate visit next := by
  rw [consider] at h
  split at h
  · next hskip => cases h; exact .skipped hskip
  next hskip =>
  rw [not_or] at hskip
  obtain ⟨traffic, htraffic, h⟩ := bind_eq_ok.1 h
  obtain ⟨answer, hanswer, h⟩ := bind_eq_ok.1 h
  -- The answer was computed with checked numbers; put it in exact ones.
  have hbeneficial := Balance.isBeneficial_eq_ok hanswer
  rw [(PricedGraph.traffic_eq_ok htraffic).1, PricedGraph.gap_of_traffic htraffic] at hbeneficial
  have himproves : answer = true ↔ sweep.Improves placement position visit candidate := by
    rw [hbeneficial, Bool.and_eq_true, Bool.and_eq_true, decide_eq_true_iff, and_assoc]
    rfl
  split at h
  · next hyes =>
    obtain ⟨balance, hbalance, h⟩ := bind_eq_ok.1 h
    obtain ⟨made, hmade, h⟩ := bind_eq_ok.1 h
    rw [pure_eq_ok] at h
    have hmoved := Balance.apply_eq_ok hbalance
    rw [(PricedGraph.traffic_eq_ok htraffic).1] at hmoved
    subst h
    exact .accepted {
      ne_origin := hskip.1
      ne_current := hskip.2
      improves := himproves.1 hyes
      current := rfl
      traffic := htraffic
      balance := hmoved
      moves := ⟨made, rfl, record_eq_ok hmade rfl rfl rfl rfl rfl⟩ }
  · next hno =>
    cases h
    exact .refused hskip.1 hskip.2 fun h => hno (himproves.2 h)

/-! ## Visits -/

/-- The visit of a node on a device, after some of the candidates. -/
def search (sweep : Sweep) (state : State) (position origin : Nat) (tried : List Nat) :
    Except Fault Visit := do
  let traffic ← sweep.priced.traffic state.placement position origin
  tried.foldlM (sweep.consider state.placement position origin)
    ⟨origin, traffic, state.balance, state.moves⟩

/-- A search over one more candidate considers it where the search has come. -/
theorem search_concat_eq_ok {state : State} {tried : List Nat} {next : Visit} :
    sweep.search state position origin (tried ++ [candidate]) = .ok next ↔
      ∃ visit, sweep.search state position origin tried = .ok visit ∧
        sweep.consider state.placement position origin visit candidate = .ok next := by
  constructor
  · intro h
    obtain ⟨traffic, htraffic, h⟩ := bind_eq_ok.1 h
    obtain ⟨visit, hvisit, h⟩ := foldlM_append_eq_ok.1 h
    obtain ⟨next', hnext, h⟩ := foldlM_cons_eq_ok.1 h
    rw [foldlM_nil_eq_ok] at h
    exact ⟨visit, bind_eq_ok.2 ⟨traffic, htraffic, hvisit⟩, h ▸ hnext⟩
  · rintro ⟨visit, hvisit, hnext⟩
    obtain ⟨traffic, htraffic, hvisit⟩ := bind_eq_ok.1 hvisit
    exact bind_eq_ok.2 ⟨traffic, htraffic, foldlM_append_eq_ok.2
      ⟨visit, hvisit, foldlM_cons_eq_ok.2 ⟨next, hnext, foldlM_nil_eq_ok.2 rfl⟩⟩⟩

/-- A visit that went through the candidates: the node is where the search has come,
    with the loads and the moves of the search, and all else is as it was. -/
structure Searched (sweep : Sweep) (state : State) (position origin : Nat) (visit : Visit)
    (next : State) : Prop where
  site : state.placement.site position = some origin
  unpinned : sweep.pinned.isPinned (sweep.roster.nameOf origin) = false
  search : sweep.search state position origin sweep.candidates = .ok visit
  length : next.placement.devices.length = state.placement.devices.length
  site_next : next.placement.site = update state.placement.site position (some visit.current)
  balance : next.balance = visit.balance
  moves : next.moves = visit.moves
  moved : next.moved = state.moved + if visit.current = origin then 0 else 1

/-- What a visit did. -/
inductive Visited (sweep : Sweep) (state : State) (position : Nat) : State → Prop
  | unassigned : state.placement.site position = none → Visited sweep state position state
  | pinned {origin : Nat} : state.placement.site position = some origin →
      sweep.pinned.isPinned (sweep.roster.nameOf origin) = true →
      Visited sweep state position state
  | searched {origin : Nat} {visit : Visit} {next : State} :
      sweep.Searched state position origin visit next → Visited sweep state position next

/-- A node is passed over, or its visit is a search whose outcome is kept. -/
theorem visit_eq_ok {state next : State} (h : sweep.visit state position = .ok next) :
    sweep.Visited state position next := by
  obtain ⟨device, hdevice, h⟩ := bind_eq_ok.1 h
  obtain ⟨_, hsite⟩ := Placement.device_eq_ok_iff.1 hdevice
  cases device with
  | none => cases h; exact .unassigned hsite
  | some origin =>
    obtain ⟨name, hname, h⟩ := bind_eq_ok.1 h
    obtain ⟨_, rfl⟩ := Roster.name_eq_ok_iff.1 hname
    split at h
    · next hpinned => cases h; exact .pinned hsite hpinned
    next hpinned =>
    rw [Bool.not_eq_true] at hpinned
    obtain ⟨traffic, htraffic, h⟩ := bind_eq_ok.1 h
    obtain ⟨visit, hvisit, h⟩ := bind_eq_ok.1 h
    have hsearch : sweep.search state position origin sweep.candidates = .ok visit :=
      bind_eq_ok.2 ⟨traffic, htraffic, hvisit⟩
    split at h
    · -- The node has stayed, and the placement with it.
      next hstay =>
      rw [pure_eq_ok] at h
      subst h
      refine .searched ⟨hsite, hpinned, hsearch, rfl, ?_, rfl, rfl, by rw [if_pos hstay]; rfl⟩
      rw [hstay, ← hsite, update_eq_self]
    · next hleave =>
      obtain ⟨placement, hassign, h⟩ := bind_eq_ok.1 h
      rw [pure_eq_ok] at h
      subst h
      obtain ⟨_, hlength, hupdate⟩ := Placement.assign_eq_ok hassign
      exact .searched ⟨hsite, hpinned, hsearch, hlength, hupdate, rfl, rfl, by rw [if_neg hleave]⟩

/-- What every hop keeps is kept by the search of the candidates. -/
theorem search_keeps {P : Visit → Prop} {state : State} {tried : List Nat} {visit : Visit}
    (hop : ∀ visit next candidate, candidate ∈ tried → P visit →
      sweep.Hop state.placement position origin candidate visit next → P next)
    (start : ∀ traffic, sweep.priced.traffic state.placement position origin = .ok traffic →
      P ⟨origin, traffic, state.balance, state.moves⟩)
    (h : sweep.search state position origin tried = .ok visit) : P visit := by
  obtain ⟨traffic, htraffic, h⟩ := bind_eq_ok.1 h
  refine foldlM_keeps (fun visit next candidate hc hP h => ?_) (start traffic htraffic) h
  cases consider_eq_ok h with
  | skipped _ => exact hP
  | refused _ _ _ => exact hP
  | accepted hhop => exact hop visit next candidate hc hP hhop

/-- The traffic that a search has is that of the node where it has come. -/
theorem traffic_of_search {state : State} {tried : List Nat} {visit : Visit}
    (h : sweep.search state position origin tried = .ok visit) :
    sweep.priced.traffic state.placement position visit.current = .ok visit.traffic :=
  search_keeps (P := fun visit =>
      sweep.priced.traffic state.placement position visit.current = .ok visit.traffic)
    (fun _ _ _ _ _ hhop => hhop.current ▸ hhop.traffic) (fun _ htraffic => htraffic) h

/-- What every hop keeps is kept by the search, also if it speaks of the candidates
    that were tried, as long as a candidate that comes to nothing does no harm. -/
theorem search_keeps_along {P : List Nat → Visit → Prop} {state : State} {candidates : List Nat}
    {visit : Visit}
    (skip : ∀ tried candidate visit, P tried visit → P (tried ++ [candidate]) visit)
    (hop : ∀ tried candidate visit next, tried ++ [candidate] <+: candidates → P tried visit →
      sweep.Hop state.placement position origin candidate visit next →
      P (tried ++ [candidate]) next)
    (start : ∀ traffic, sweep.priced.traffic state.placement position origin = .ok traffic →
      P [] ⟨origin, traffic, state.balance, state.moves⟩)
    (h : sweep.search state position origin candidates = .ok visit) : P candidates visit := by
  obtain ⟨traffic, htraffic, h⟩ := bind_eq_ok.1 h
  refine foldlM_keeps_along (start traffic htraffic) ?_ h
  intro tried candidate rest visit next hl hP hnext _
  cases consider_eq_ok hnext with
  | skipped _ => exact skip tried candidate visit hP
  | refused _ _ _ => exact skip tried candidate visit hP
  | accepted hhop =>
    have hbegin : tried ++ [candidate] <+: candidates :=
      ⟨rest, by rw [hl, List.append_assoc, List.singleton_append]⟩
    exact hop tried candidate visit next hbegin hP hhop

/-! ## Sweeps -/

/-- What every visit keeps is kept by the sweep. -/
theorem visitAll_keeps {P : State → Prop} {positions : List Nat} {state final : State}
    (visit : ∀ state next position, position ∈ positions → P state →
      sweep.Visited state position next → P next)
    (start : P state) (h : sweep.visitAll state positions = .ok final) : P final := by
  rw [visitAll] at h
  split at h
  · cases h; exact start
  · exact foldlM_keeps (fun state next position hp hP h =>
      visit state next position hp hP (visit_eq_ok h)) start h

end DevicePlacement.Sweep

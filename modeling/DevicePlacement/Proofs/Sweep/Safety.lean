import DevicePlacement.Proofs.Placement.Safety
import DevicePlacement.Proofs.Sweep.Loads

/-!
# A sweep stays in range

With a tame estimate no step of a sweep can fail. What a step needs is what the
invariants say of the steps before it: all nodes are on devices that are known, and
the loads are those of a placement, so that a move never takes more than there is nor
raises a load above the total.

* `returns_consider`, `returns_visit`: a candidate and a visit return, after anything
  that has returned before them;
* `returns_run`: the whole sweep returns.
-/

namespace DevicePlacement.Sweep

open Checked Function

namespace Task

variable {task : Task} {before : Balance} {state : State} {position origin : Nat}

theorem tame_priced (h : task.estimate.Tame task.graph) : task.sweep.priced.Tame :=
  PricedGraph.tame_ofGraph h

theorem compute_nonneg (h : task.estimate.Tame task.graph) (position : Nat) :
    0 ≤ task.compute position :=
  task.compute_eq ▸ (tame_priced h).compute_nonneg position

theorem position_lt (h : position ∈ task.positions) : position < task.sweep.priced.size :=
  List.mem_range.1 (task.sublist_positions.subset h)

/-- The compute costs of the eligible nodes are part of all compute costs. -/
theorem sum_compute_le (h : task.estimate.Tame task.graph) :
    (task.positions.map task.compute).sum ≤ Int64.maxValue.toInt := by
  have hall := (tame_priced h).compute_le
  rw [compute_eq] at hall
  exact (sum_map_le_of_sublist task.sublist_positions fun position _ =>
    compute_nonneg h position).trans hall

/-! ## The start -/

/-- The loads at the start are sums of costs that fit. -/
theorem returns_opening (h : task.estimate.Tame task.graph) : Returns task.opening := by
  refine returns_foldlM fun done position balance hdone hbalance => ?_
  have hp := position_lt (mem_of_prefix_concat hdone)
  have hl : position < task.placement.devices.length := by rwa [length_placement]
  refine (Placement.returns_device hl).bind fun device hdevice => ?_
  cases device with
  | none => exact returns_pure balance
  | some device =>
    have hsite := (Placement.device_eq_ok_iff.1 hdevice).2
    refine ((tame_priced h).closed.returns_computeCost hp).bind fun cost hcost => ?_
    have hcost := PricedGraph.computeCost_eq_ok hcost
    rw [compute_eq] at hcost
    -- The nodes so far and this one are part of the eligible nodes.
    have hopens := opens_of_loadAll (subset_of_prefix_concat hdone) hbalance
    have hnonneg : ∀ position ∈ task.positions, 0 ≤ task.compute position :=
      fun position _ => compute_nonneg h position
    have hsum := (sum_map_le_of_sublist hdone.sublist hnonneg).trans (sum_compute_le h)
    rw [sum_map_concat] at hsum
    have hload := loadOn_nonneg (compute_nonneg h) task.placement.site done device
    have hload' := loadOn_le (compute_nonneg h) task.placement.site done device
    rw [← hopens.carries] at hload hload'
    have hcompute := compute_nonneg h position
    refine Balance.returns_add ?_ (by omega) (by omega) ?_
    · rw [hopens.rows]
      exact task.within_placement position device hsite
    · exact returns_plus_concat hdone hnonneg (sum_compute_le h)
        (congrArg Scale.total hopens.scale) hcost

/-! ## Visits -/

section Visit

variable {visit : Visit} {candidate : Nat}

/-- No load is ever negative. -/
theorem Accounts.loadOf_nonneg {site : Nat → Option Nat} {balance : Balance}
    (hb : task.Accounts site balance) (h : task.estimate.Tame task.graph) (device : Nat) :
    0 ≤ balance.loadOf device := by
  rw [hb.carries]
  exact loadOn_nonneg (compute_nonneg h) _ _ _

/-- There is room for the move of a node that is visited: with it, the load of its
    destination is part of the total. -/
theorem Amid.allows {placement : Placement} {traffic : Traffic}
    (hamid : task.Amid placement position visit) (h : task.estimate.Tame task.graph)
    (hp : position ∈ task.positions) (hcandidate : candidate ∈ task.sweep.candidates)
    (hne : candidate ≠ visit.current)
    (htraffic : task.sweep.priced.traffic placement position candidate = .ok traffic) :
    visit.balance.Allows
      ⟨traffic.computeCost, visit.traffic, traffic, visit.current, candidate⟩ := by
  have hcost := (PricedGraph.traffic_eq_ok htraffic).1
  rw [compute_eq] at hcost
  refine ⟨?_, ?_, hne, ?_, hamid.accounts.loadOf_nonneg h, ?_⟩
  · rw [hamid.accounts.rows]
    exact hamid.current_lt
  · rw [hamid.accounts.rows]
    exact candidate_lt hcandidate
  · exact hcost ▸ compute_nonneg h position
  · -- The load ahead is that of a device under another placement, so the total bounds it.
    have hmoved : loadOn task.compute (update placement.site position (some candidate))
        task.positions candidate = visit.balance.loadOf candidate + task.compute position := by
      have hupdate : loadOn task.compute (update (update placement.site position
          (some visit.current)) position (some candidate)) task.positions candidate = _ :=
        loadOn_update hp task.nodup_positions (update_self ..) candidate
      rw [update_idem, if_neg hne, if_pos rfl, sub_zero] at hupdate
      rw [hupdate, hamid.accounts.carries]
    change visit.balance.loadOf candidate + traffic.computeCost.toInt ≤ _
    rw [hcost, ← hmoved]
    exact (loadOn_le (compute_nonneg h) _ _ _).trans (sum_compute_le h)

/-- A move between devices of the roster can be recorded if its deltas fit. -/
theorem returns_record {move : Relocation} {balance : Balance} (hp : position ∈ task.positions)
    (horigin : move.origin < task.roster.size) (hdestination : move.destination < task.roster.size)
    (hbefore : Returns move.before.delta) (hafter : Returns move.after.delta)
    (hrows : balance.loads.length = task.roster.size) :
    Returns (task.sweep.record position move balance) := by
  refine (returns_row (position_lt hp)).bind fun node _ => ?_
  refine (returns_row horigin).bind fun source _ => ?_
  refine (returns_row hdestination).bind fun target _ => ?_
  refine hbefore.bind fun deltaBefore _ => hafter.bind fun deltaAfter _ => ?_
  refine (Balance.returns_share (hrows ▸ horigin)).bind fun originShare _ => ?_
  exact (Balance.returns_share (hrows ▸ hdestination)).bind fun _ _ => returns_pure _

/-- A candidate can always be considered: its traffic and the loads after the move fit. -/
theorem returns_consider (h : task.estimate.Tame task.graph) (hinv : task.Inv state)
    (hp : position ∈ task.positions) (hcandidate : candidate ∈ task.sweep.candidates)
    (hamid : task.Amid state.placement position visit)
    (htraffic : task.sweep.priced.traffic state.placement position visit.current =
      .ok visit.traffic) :
    Returns (task.sweep.consider state.placement position origin visit candidate) := by
  rw [consider]
  split
  · exact returns_pure visit
  next hskip =>
  have hne : candidate ≠ visit.current := fun e => hskip (.inr e)
  have htame := tame_priced h
  have htraffic' := htame.returns_traffic hinv.length (position_lt hp) candidate
  refine htraffic'.bind fun traffic hthere => ?_
  have hallows := hamid.allows h hp hcandidate hne hthere
  -- No step of the decision faults: both deltas fit, and so do the loads that it weighs.
  have hbefore := htame.returns_delta htraffic
  have hafter := htame.returns_delta hthere
  refine (hallows.returns_isBeneficial hbefore hafter).bind fun answer _ => ?_
  split
  · refine hallows.returns_apply.bind fun balance hbalance => ?_
    have hrows : balance.loads.length = task.roster.size :=
      (Balance.apply_eq_ok hbalance).length.trans hamid.accounts.rows
    have hmade : Returns (task.sweep.record position
        ⟨traffic.computeCost, visit.traffic, traffic, visit.current, candidate⟩ balance) :=
      returns_record hp hamid.current_lt (candidate_lt hcandidate) hbefore hafter hrows
    exact hmade.bind fun made _ => returns_pure _
  · exact returns_pure visit

/-- By induction on the candidates, the search returns. -/
theorem returns_search (h : task.estimate.Tame task.graph) (hinv : task.Inv state)
    (hp : position ∈ task.positions) (hsite : state.placement.site position = some origin) :
    Returns (task.sweep.search state position origin task.sweep.candidates) := by
  have htraffic := (tame_priced h).returns_traffic hinv.length (position_lt hp) origin
  refine htraffic.bind fun traffic htraffic => ?_
  refine returns_foldlM fun tried candidate visit htried hvisit => ?_
  have hsearch : task.sweep.search state position origin tried = .ok visit :=
    bind_eq_ok.2 ⟨traffic, htraffic, hvisit⟩
  have hamid := amid_of_search hinv hp hsite (subset_of_prefix_concat htried) hsearch
  exact returns_consider h hinv hp (mem_of_prefix_concat htried) hamid (traffic_of_search hsearch)

/-- A node that is not assigned or is on a pinned device needs no search. -/
theorem returns_visit (h : task.estimate.Tame task.graph) (hinv : task.Inv state)
    (hp : position ∈ task.positions) : Returns (task.sweep.visit state position) := by
  have hlt : position < state.placement.devices.length := hinv.length ▸ position_lt hp
  refine (Placement.returns_device hlt).bind fun device hdevice => ?_
  cases device with
  | none => exact returns_pure state
  | some origin =>
    have hsite := (Placement.device_eq_ok_iff.1 hdevice).2
    refine (returns_row (hinv.within position origin hsite)).bind fun name _ => ?_
    split
    · exact returns_pure state
    -- The search starts with the traffic at the origin, which is a step of its own in a visit.
    obtain ⟨visit, hvisit⟩ := returns_search h hinv hp hsite
    obtain ⟨traffic, htraffic, hvisit⟩ := bind_eq_ok.1 hvisit
    refine returns_bind_of_eq_ok htraffic (returns_bind_of_eq_ok hvisit ?_)
    split
    · exact returns_pure _
    · exact (Placement.returns_assign hlt visit.current).bind fun _ _ => returns_pure _

end Visit

/-! ## The whole sweep -/

/-- By induction on the positions, so do all visits. -/
theorem returns_visitAll (h : task.estimate.Tame task.graph) (hb : task.opening = .ok before) :
    Returns (task.sweep.visitAll ⟨task.placement, before, [], 0⟩ task.positions) := by
  rw [visitAll]
  split
  · exact ⟨_, rfl⟩
  next hc =>
  refine returns_foldlM fun visited position state hvisited hstate => ?_
  have hafter : task.after visited = .ok state :=
    bind_eq_ok.2 ⟨before, hb, (if_neg hc).trans hstate⟩
  have hinv := inv_after (subset_of_prefix_concat hvisited) hafter
  exact returns_visit h hinv (mem_of_prefix_concat hvisited)

theorem returns_deviceLoad {after : Balance} {device : Nat} (hd : device < task.roster.size)
    (hbefore : before.loads.length = task.roster.size)
    (hafter : after.loads.length = task.roster.size) :
    Returns (task.sweep.deviceLoad before after device) := by
  refine (returns_row hd).bind fun name _ => ?_
  refine (Balance.returns_load (hbefore ▸ hd)).bind fun loadBefore _ => ?_
  refine (Balance.returns_load (hafter ▸ hd)).bind fun loadAfter _ => ?_
  exact (Balance.returns_share (hafter ▸ hd)).bind fun _ _ => returns_pure _

/-- A sweep that has passed the check at its end returns. -/
theorem returns_run_of_conserved {final : State} (hbefore : task.opening = .ok before)
    (hexternal : Returns (task.sweep.priced.totalExternal task.placement))
    (hfinal : task.sweep.visitAll ⟨task.placement, before, [], 0⟩ task.positions = .ok final)
    (hexternal' : Returns (task.sweep.priced.totalExternal final.placement))
    (hconserved : final.balance.isConserved = .ok true) : Returns task.run := by
  have hinv : task.Inv final :=
    inv_after (fun _ hp => hp) (bind_eq_ok.2 ⟨before, hbefore, hfinal⟩)
  refine returns_bind_of_eq_ok hbefore (hexternal.bind fun externalBefore _ => ?_)
  refine returns_bind_of_eq_ok hfinal (hexternal'.bind fun externalAfter _ => ?_)
  refine returns_bind_of_eq_ok hconserved ?_
  refine (returns_mapM fun device hdevice => ?_).bind fun deviceLoads _ => ?_
  · exact returns_deviceLoad (List.mem_range.1 hdevice) (opening_eq_ok hbefore).rows
      hinv.accounts.rows
  · exact (hinv.within.returns_place task.graph).bind fun placed _ => returns_pure _

/-- With a tame estimate, a sweep returns. -/
theorem returns_run (h : task.estimate.Tame task.graph) : Returns task.run := by
  have htame := tame_priced h
  obtain ⟨before, hbefore⟩ := returns_opening h
  obtain ⟨final, hfinal⟩ := returns_visitAll h hbefore
  have hinv : task.Inv final :=
    inv_after (fun _ hp => hp) (bind_eq_ok.2 ⟨before, hbefore, hfinal⟩)
  have hconserved : final.balance.isConserved = .ok true :=
    Balance.isConserved_of_sum (hinv.accounts.loadOf_nonneg h)
      (hinv.accounts.sum.trans hinv.accounts.total_eq.symm)
  exact returns_run_of_conserved hbefore (htame.returns_totalExternal task.length_placement) hfinal
    (htame.returns_totalExternal hinv.length) hconserved

end Task

end DevicePlacement.Sweep

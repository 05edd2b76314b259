import DevicePlacement.Proofs.InStep
import DevicePlacement.Proofs.Sweep.Alike
import DevicePlacement.Proofs.Sweep.Safety

/-!
# Inventories that repeat devices

A device that an inventory lists several times has one number, one load and one place among
the candidates, but it is counted each time when the ideal share is formed. So a sweep over
the inventory without repetitions (`Task.distinct`) is the same sweep, except that shares are
measured against another ideal one:

* `Balance.isBeneficial_withIdeal`: a move is as welcome as before if all loads that are
  weighed for it (`Balance.Weighs`) are near the one ideal share just when they are near
  the other;
* `inStep_consider`, `inStep_visit`: so the steps of the sweep are the same;
* `Task.run_distinct`: so is the whole sweep, if this holds of every move that it considers
  (`Task.Considers`) and there is a load to be shared at all.

Without that the two can differ (`Task.distinct_can_differ`). When no cost is negative, the
loads that a sweep weighs lie between zero and the total (`Task.Considers.within`).
-/

namespace DevicePlacement

open Checked Function

theorem eraseDups_of_nodup {l : List String} (h : l.Nodup) : l.eraseDups = l := by
  induction l with
  | nil => rfl
  | cons name l ih =>
    obtain ⟨hname, hl⟩ := List.nodup_cons.1 h
    have hfilter : l.filter (fun other => !other == name) = l := by
      refine List.filter_eq_self.2 fun other hother => ?_
      have hne : other ≠ name := fun h => hname (h ▸ hother)
      simpa using hne
    rw [List.eraseDups_cons, hfilter, ih hl]

/-! ## Balances -/

namespace Balance

variable {balance next : Balance} {move : Relocation} {device : Nat} {share : Float}

/-- A balance with another ideal share. -/
def withIdeal (balance : Balance) (share : Float) : Balance :=
  { balance with idealShare := share }

/-- The ideal share is only given as a share if there is no load at all. -/
theorem shareOf_withIdeal (h : balance.total ≠ 0) (load : Int64) :
    (balance.withIdeal share).shareOf load = balance.shareOf load := by
  rw [shareOf, shareOf, if_neg h]
  exact if_neg h

theorem share_withIdeal (h : balance.total ≠ 0) (device : Nat) :
    (balance.withIdeal share).share device = balance.share device := by
  simp only [Balance.share, shareOf_withIdeal h]
  rfl

/-- Loads are added up without looking at the ideal share. -/
theorem inStep_add (balance : Balance) (device : Nat) (cost : Int64) :
    InStep (fun next next' => next' = next.withIdeal share) (balance.add device cost)
      ((balance.withIdeal share).add device cost) := by
  rw [add, add]
  refine inStep_bind_left fun load _ => inStep_bind_left fun raised _ => ?_
  refine inStep_bind_left fun loads _ => inStep_bind_left fun total _ => ?_
  exact inStep_pure rfl

/-- They are moved without looking at it, too, and the total stays. -/
theorem inStep_apply (balance : Balance) (move : Relocation) :
    InStep (fun next next' => next' = next.withIdeal share ∧ next.total = balance.total)
      (balance.apply move) ((balance.withIdeal share).apply move) := by
  rw [apply, apply]
  refine inStep_bind_left fun load _ => inStep_bind_left fun origin _ => ?_
  refine inStep_bind_left fun loads _ => inStep_bind_left fun load' _ => ?_
  refine inStep_bind_left fun destination _ => inStep_bind_left fun loads' _ => ?_
  exact inStep_pure ⟨rfl, rfl⟩

/-- The loads that are weighed for a move: what would be left on the device it leaves, if
    it lowers the delta, and what would be on the other one, if that is near its share. -/
inductive Weighs (balance : Balance) (move : Relocation) : Int → Prop
  | origin : move.after.gap < move.before.gap →
      Weighs balance move (balance.loadOf move.origin - move.computeCost.toInt)
  | destination : move.after.gap < move.before.gap →
      balance.scale.isNear (balance.loadOf move.origin - move.computeCost.toInt) = true →
      Weighs balance move (balance.loadOf move.destination + move.computeCost.toInt)

/-- Another ideal share does not matter for a move if it does not for the loads that are
    weighed. -/
theorem isBeneficial_withIdeal
    (h : ∀ load, balance.Weighs move load →
      (balance.withIdeal share).scale.isNear load = balance.scale.isNear load) :
    InStep Eq (balance.isBeneficial move) ((balance.withIdeal share).isBeneficial move) := by
  rw [isBeneficial, isBeneficial]
  refine inStep_bind_left fun after hafter => inStep_bind_left fun before hbefore => ?_
  refine inStep_ite (fun _ => .refl _) fun hlower => ?_
  rw [Traffic.delta_eq_ok hafter, Traffic.delta_eq_ok hbefore, Int.not_le] at hlower
  refine inStep_bind_left fun load hload => inStep_bind_left fun origin horigin => ?_
  have horigin : origin.toInt = balance.loadOf move.origin - move.computeCost.toInt := by
    rw [minus_eq_ok_iff.1 horigin, (load_eq_ok hload).2]
  -- The share is asked for twice: for the load that is left behind, and for the one ahead.
  have hleave : (balance.withIdeal share).isWithinMargin origin =
      balance.isWithinMargin origin := by
    rw [isWithinMargin_eq, isWithinMargin_eq, horigin]
    exact h _ (.origin hlower)
  rw [hleave]
  refine inStep_ite (fun _ => .refl _) fun hnear => ?_
  rw [Bool.not_eq_true', Bool.not_eq_false, isWithinMargin_eq, horigin] at hnear
  refine inStep_bind_left fun load' hload' => inStep_bind_left fun destination hdestination => ?_
  have hdestination : destination.toInt =
      balance.loadOf move.destination + move.computeCost.toInt := by
    rw [plus_eq_ok_iff.1 hdestination, (load_eq_ok hload').2]
  refine inStep_pure ?_
  rw [isWithinMargin_eq, isWithinMargin_eq, hdestination]
  exact (h _ (.destination hlower hnear)).symm

end Balance

/-! ## Steps -/

namespace Sweep

/-- A visit with another ideal share. -/
def Visit.withIdeal (visit : Visit) (share : Float) : Visit :=
  { visit with balance := visit.balance.withIdeal share }

/-- A state with another ideal share. -/
def State.withIdeal (state : State) (share : Float) : State :=
  { state with balance := state.balance.withIdeal share }

/-- A result with another ideal share. -/
def Result.withIdeal (result : Result) (share : Float) : Result :=
  { result with idealShare := share }

variable {sweep : Sweep} {placement : Placement} {state : State} {visit : Visit}
  {position origin candidate : Nat} {share : Float}

/-- A record tells shares, and these are of a total that is not zero. -/
theorem record_withIdeal {balance : Balance} (h : balance.total ≠ 0) (position : Nat)
    (move : Relocation) :
    sweep.record position move (balance.withIdeal share) =
      sweep.record position move balance := by
  simp only [record, Balance.share_withIdeal h]

/-- A candidate is judged alike if another ideal share makes no difference to the loads that are
    weighed. -/
theorem inStep_consider (htotal : visit.balance.total ≠ 0)
    (h : ∀ traffic, candidate ≠ origin → candidate ≠ visit.current →
      sweep.priced.traffic placement position candidate = .ok traffic → ∀ load,
      visit.balance.Weighs ⟨traffic.computeCost, visit.traffic, traffic, visit.current,
        candidate⟩ load →
      (visit.balance.withIdeal share).scale.isNear load = visit.balance.scale.isNear load) :
    InStep (fun next next' => next' = next.withIdeal share)
      (sweep.consider placement position origin visit candidate)
      (sweep.consider placement position origin (visit.withIdeal share) candidate) := by
  rw [consider, consider]
  refine inStep_ite (fun _ => inStep_pure rfl) fun hskip => ?_
  rw [not_or] at hskip
  refine inStep_bind_left fun traffic htraffic => ?_
  refine (Balance.isBeneficial_withIdeal (h traffic hskip.1 hskip.2 htraffic)).bind ?_
  rintro answer _ rfl
  refine inStep_ite (fun _ => ?_) fun _ => inStep_pure rfl
  refine (Balance.inStep_apply visit.balance _).bind fun balance balance' hbalance => ?_
  obtain ⟨rfl, hsame⟩ := hbalance
  rw [record_withIdeal (hsame ▸ htotal)]
  exact inStep_bind_left fun made _ => inStep_pure rfl

/-- A visit is the same if all that it considers is. -/
theorem inStep_visit
    (h : ∀ origin visit tried candidate, state.placement.site position = some origin →
      sweep.pinned.isPinned (sweep.roster.nameOf origin) = false →
      tried ++ [candidate] <+: sweep.candidates →
      sweep.search state position origin tried = .ok visit →
      InStep (fun next next' => next' = next.withIdeal share)
        (sweep.consider state.placement position origin visit candidate)
        (sweep.consider state.placement position origin (visit.withIdeal share) candidate)) :
    InStep (fun next next' => next' = next.withIdeal share)
      (sweep.visit state position) (sweep.visit (state.withIdeal share) position) := by
  rw [visit, visit]
  refine inStep_bind_left fun device hdevice => ?_
  have hsite := (Placement.device_eq_ok_iff.1 hdevice).2
  cases device with
  | none => exact inStep_pure rfl
  | some origin =>
    refine inStep_bind_left fun name hname => ?_
    obtain ⟨_, rfl⟩ := Roster.name_eq_ok_iff.1 hname
    refine inStep_ite (fun _ => inStep_pure rfl) fun hpinned => ?_
    rw [Bool.not_eq_true] at hpinned
    refine inStep_bind_left fun traffic htraffic => ?_
    -- A candidate is known to be alike after those before it, so the loop is followed along.
    have hsearch : InStep (fun next next' => next' = next.withIdeal share)
        (sweep.candidates.foldlM (sweep.consider state.placement position origin)
          ⟨origin, traffic, state.balance, state.moves⟩)
        (sweep.candidates.foldlM (sweep.consider state.placement position origin)
          ⟨origin, traffic, state.balance.withIdeal share, state.moves⟩) := by
      refine InStep.foldlM_along rfl fun tried candidate visit visit' htried hvisit hideal => ?_
      rw [hideal]
      exact h origin visit tried candidate hsite hpinned htried
        (bind_eq_ok.2 ⟨traffic, htraffic, hvisit⟩)
    refine hsearch.bind fun visit visit' hvisit => ?_
    rw [hvisit]
    refine inStep_ite (fun _ => inStep_pure rfl) fun _ => ?_
    exact inStep_bind_left fun placement _ => inStep_pure rfl

theorem deviceLoad_withIdeal {after : Balance} (h : after.total ≠ 0) (before : Balance)
    (device : Nat) :
    sweep.deviceLoad (before.withIdeal share) (after.withIdeal share) device =
      sweep.deviceLoad before after device := by
  simp only [deviceLoad, Balance.share_withIdeal h]
  rfl

/-! ## Tasks -/

namespace Task

variable {task : Task} {before : Balance} {final : State} {load : Int}

/-- The task with every later repetition of a device left out of the inventory. -/
def distinct (task : Task) : Task :=
  { task with devices := task.devices.eraseDups }

theorem ofInventory_eraseDups (devices : List String) :
    Roster.ofInventory devices.eraseDups = Roster.ofInventory devices := by
  have hroster : ∀ inventory, Roster.ofInventory inventory =
      ⟨inventory.eraseDups, inventory.eraseDups.length⟩ := fun inventory => by
    rw [← Roster.names_ofInventory]
    rfl
  have hnodup : devices.eraseDups.Nodup :=
    Roster.names_ofInventory devices ▸ Roster.nodup_ofInventory devices
  rw [hroster, hroster, eraseDups_of_nodup hnodup]

/-- A device that is listed again is known already, so it changes neither the roster nor the
    placement. -/
theorem ofGraph_distinct (task : Task) :
    Placement.ofGraph (Roster.ofInventory task.distinct.devices) task.distinct.graph =
      (task.roster, task.placement) := by
  rw [distinct, ofInventory_eraseDups]
  rfl

theorem roster_distinct (task : Task) : task.distinct.roster = task.roster := by
  rw [roster, ofGraph_distinct]

theorem placement_distinct (task : Task) : task.distinct.placement = task.placement := by
  rw [placement, ofGraph_distinct]

theorem sweep_distinct (task : Task) : task.distinct.sweep = task.sweep := by
  rw [sweep, roster_distinct]
  rfl

/-- The ideal share without repetitions. -/
def evenShare (task : Task) : Float :=
  task.distinct.scale.idealShare

/-- The two sweeps open with the same loads, and only with different ideal shares. -/
theorem inStep_opening_distinct (task : Task) :
    InStep (fun before before' => before' = before.withIdeal task.evenShare) task.opening
      task.distinct.opening := by
  rw [opening, opening, sweep_distinct, placement_distinct, roster_distinct]
  refine InStep.foldlM (fun balance balance' position _ hbalance => ?_) rfl
  rw [hbalance]
  refine inStep_bind_left fun device _ => ?_
  cases device with
  | none => exact inStep_pure rfl
  | some device => exact inStep_bind_left fun cost _ => Balance.inStep_add balance device cost

/-- A move that a sweep considers, and the loads at that time. -/
inductive Considers (task : Task) : Balance → Relocation → Prop
  | intro {visited tried : List Nat} {position origin candidate : Nat} {state : State}
      {visit : Visit} {traffic : Traffic} : 2 ≤ task.sweep.candidates.length →
      visited ++ [position] <+: task.positions → task.after visited = .ok state →
      state.placement.site position = some origin →
      task.pinned.isPinned (task.roster.nameOf origin) = false →
      tried ++ [candidate] <+: task.sweep.candidates →
      task.sweep.search state position origin tried = .ok visit →
      candidate ≠ origin → candidate ≠ visit.current →
      task.sweep.priced.traffic state.placement position candidate = .ok traffic →
      Considers task visit.balance
        ⟨traffic.computeCost, visit.traffic, traffic, visit.current, candidate⟩

/-- The loads that are weighed for a move are those that the devices would have after it. -/
theorem Considers.exists_loadOn {balance : Balance} {move : Relocation}
    (h : task.Considers balance move) (hload : balance.Weighs move load) :
    ∃ (site : Nat → Option Nat) (device : Nat),
      load = loadOn task.compute site task.positions device := by
  cases h with
  | @intro visited tried position origin candidate state visit traffic _ hvisited hafter hsite _
      htried hsearch _ hcurrent htraffic =>
    have hp := mem_of_prefix_concat hvisited
    have hinv := inv_after (subset_of_prefix_concat hvisited) hafter
    have hamid := amid_of_search hinv hp hsite (subset_of_prefix_concat htried) hsearch
    have hcost : traffic.computeCost.toInt = task.compute position := by
      rw [(PricedGraph.traffic_eq_ok htraffic).1, compute_eq]
    -- A load that is weighed is that of a device once the node would be at the candidate.
    have hmoved (device : Nat) : loadOn task.compute
        (update state.placement.site position (some candidate)) task.positions device =
          visit.balance.loadOf device
            - (if device = visit.current then task.compute position else 0)
            + if device = candidate then task.compute position else 0 := by
      rw [hamid.accounts.carries, ← loadOn_update hp task.nodup_positions (update_self ..),
        update_idem]
    refine ⟨update state.placement.site position (some candidate), ?_⟩
    cases hload with
    | origin _ =>
      refine ⟨visit.current, ?_⟩
      rw [hmoved, if_pos rfl, if_neg (Ne.symm hcurrent), add_zero, ← hcost]
    | destination _ _ =>
      refine ⟨candidate, ?_⟩
      rw [hmoved, if_neg hcurrent, if_pos rfl, sub_zero, ← hcost]

/-- When no cost is negative, the loads that are weighed are part of the total. -/
theorem Considers.within {balance : Balance} {move : Relocation}
    (hnonneg : ∀ position, 0 ≤ task.compute position) (h : task.Considers balance move)
    (hload : balance.Weighs move load) : 0 ≤ load ∧ load ≤ task.scale.total := by
  obtain ⟨site, device, rfl⟩ := h.exists_loadOn hload
  exact ⟨loadOn_nonneg hnonneg .., loadOn_le hnonneg ..⟩

/-- Repetitions make no difference to a task: there are none, or there is a load to be
    shared and all loads that are weighed are near their ideal share with the repetitions
    just when they are without them. -/
def Indifferent (task : Task) : Prop :=
  task.devices.Nodup ∨ task.scale.total ≠ 0 ∧
    ∀ balance move load, task.Considers balance move → balance.Weighs move load →
      task.distinct.scale.isNear load = task.scale.isNear load

theorem Accounts.total_ne_zero {site : Nat → Option Nat} {balance : Balance}
    (h : task.Accounts site balance) (htotal : task.scale.total ≠ 0) : balance.total ≠ 0 := by
  intro hzero
  rw [← h.total_eq, hzero, Int64.toInt_zero] at htotal
  exact htotal rfl

/-- With the other ideal share, a balance is measured as without repetitions. -/
theorem Accounts.scale_withIdeal {site : Nat → Option Nat} {balance : Balance}
    (h : task.Accounts site balance) :
    (balance.withIdeal task.evenShare).scale = task.distinct.scale := by
  have hscale : (balance.withIdeal task.evenShare).scale =
      { balance.scale with idealShare := task.evenShare } := rfl
  rw [hscale, h.scale]
  rfl

section Indifferent

variable (htotal : task.scale.total ≠ 0)
  (h : ∀ balance move load, task.Considers balance move → balance.Weighs move load →
    task.distinct.scale.isNear load = task.scale.isNear load)

include htotal h

/-- The visits are the same, as all moves are considered in both sweeps alike. -/
theorem inStep_visitAll_distinct (hbefore : task.opening = .ok before) :
    InStep (fun final final' => final' = final.withIdeal task.evenShare)
      (task.sweep.visitAll ⟨task.placement, before, [], 0⟩ task.positions)
      (task.sweep.visitAll ⟨task.placement, before.withIdeal task.evenShare, [], 0⟩
        task.positions) := by
  rw [visitAll, visitAll]
  refine inStep_ite (fun _ => inStep_pure rfl) fun hmany => ?_
  refine InStep.foldlM_along rfl fun visited position state state' hvisited hstate hideal => ?_
  rw [hideal]
  have hafter : task.after visited = .ok state :=
    bind_eq_ok.2 ⟨before, hbefore, (if_neg hmany).trans hstate⟩
  have hinv := inv_after (subset_of_prefix_concat hvisited) hafter
  refine inStep_visit fun origin visit tried candidate hsite hpinned htried hsearch => ?_
  have hamid := amid_of_search hinv (mem_of_prefix_concat hvisited) hsite
    (subset_of_prefix_concat htried) hsearch
  refine inStep_consider (hamid.accounts.total_ne_zero htotal) ?_
  intro traffic horigin hcurrent htraffic load hload
  rw [hamid.accounts.scale_withIdeal, hamid.accounts.scale]
  exact h _ _ load (.intro (Nat.not_lt.1 hmany) hvisited hafter hsite hpinned htried hsearch
    horigin hcurrent htraffic) hload

omit h in
/-- What is put together in the end differs in the ideal share alone. -/
theorem inStep_conclude_distinct {site : Nat → Option Nat}
    (hfinal : task.Accounts site final.balance) (before : Balance)
    (externalBefore externalAfter : Int64) :
    InStep (fun result result' => result' = result.withIdeal task.evenShare)
      (task.conclude before final externalBefore externalAfter)
      (task.distinct.conclude (before.withIdeal task.evenShare) (final.withIdeal task.evenShare)
        externalBefore externalAfter) := by
  have hrows : task.sweep.deviceLoad (before.withIdeal task.evenShare)
      (final.withIdeal task.evenShare).balance = task.sweep.deviceLoad before final.balance :=
    funext fun device => deviceLoad_withIdeal (hfinal.total_ne_zero htotal) before device
  rw [conclude, conclude, sweep_distinct, roster_distinct, hrows]
  refine inStep_bind_left fun rows _ => inStep_bind_left fun placed _ => ?_
  exact inStep_pure rfl

/-- So the two sweeps stay in step from the opening to the result. -/
theorem inStep_run_distinct :
    InStep (fun result result' => result' = result.withIdeal task.evenShare) task.run
      task.distinct.run := by
  rw [run_eq, run_eq, sweep_distinct, placement_distinct]
  refine (inStep_opening_distinct task).and_ok.bind fun before before' hbefore => ?_
  obtain ⟨rfl, hbefore, _⟩ := hbefore
  refine inStep_bind_left fun externalBefore _ => ?_
  refine (inStep_visitAll_distinct htotal h hbefore).and_ok.bind fun final final' hfinal => ?_
  obtain ⟨rfl, hswept, _⟩ := hfinal
  have hinv : task.Inv final :=
    inv_after (fun _ hp => hp) (bind_eq_ok.2 ⟨before, hbefore, hswept⟩)
  refine inStep_bind_left fun externalAfter _ => ?_
  refine inStep_bind_left fun conserved _ => inStep_ite (fun _ => .stopped _) fun _ => ?_
  exact inStep_conclude_distinct htotal hinv.accounts before externalBefore externalAfter

end Indifferent

/-- If repetitions make no difference to a task, then its sweep and the one without them
    stop with the same fault, or return the same graph, moves and loads, and the same of all
    else but the ideal share. -/
theorem run_distinct (h : task.Indifferent) :
    task.distinct.run = task.run.map (·.withIdeal task.evenShare) := by
  rcases h with hnodup | ⟨htotal, h⟩
  · have hsame : task.distinct = task := by rw [distinct, eraseDups_of_nodup hnodup]
    rw [hsame, evenShare, hsame]
    cases hrun : task.run with
    | error fault => rfl
    | ok result =>
      obtain ⟨before, final, hf⟩ := run_eq_ok hrun
      have hideal : result.idealShare = task.scale.idealShare := by
        rw [hf.idealShare, ← hf.inv.accounts.scale]
        rfl
      rw [← hideal]
      rfl
  · exact (inStep_run_distinct htotal h).eq_map

/-- The inventory of `relay` lists one device twice, which makes no difference to its moves. -/
theorem run_distinct_relay : relay.Indifferent ∧
    relay.distinct.devices = ["dev0", "CPU", "dev1", "dev2"] ∧
    relay.distinct.run = relay.run.map (·.withIdeal relay.evenShare) ∧
    ∃ result, relay.run = .ok result ∧ result.moved = 2 := by
  have htame : relay.estimate.Tame relay.graph := by decide +kernel
  have hnonneg : ∀ position, 0 ≤ relay.compute position := compute_nonneg htame
  have htotal : relay.scale.total = 7 := by decide +kernel
  have hnear : ∀ load : Fin 8, relay.distinct.scale.isNear load = relay.scale.isNear load := by
    decide +kernel
  have h : relay.Indifferent := by
    refine .inr ⟨by rw [htotal]; decide, fun balance move load hmove hload => ?_⟩
    obtain ⟨hleast, hgreatest⟩ := hmove.within hnonneg hload
    obtain ⟨load, rfl⟩ := Int.eq_ofNat_of_zero_le hleast
    rw [htotal] at hgreatest
    exact hnear ⟨load, by omega⟩
  have hmoved : relay.run.toOption.map Result.moved = some 2 := by
    decide +kernel
  obtain ⟨result, hrun, hmoved⟩ := exists_ok_of_toOption hmoved
  exact ⟨h, by decide, run_distinct h, result, hrun, hmoved⟩

/-- A graph whose node `c` may join its producer as long as both devices may have half of
    the load each. -/
def lopsided : Task where
  catalog := OpRegistry.standard.catalog
  knobs := Knobs.alwaysOptimize
  graph := .ofNodes [⟨"p", "Const", "dev1", []⟩, ⟨"c", "Add", "dev0", [.data "p" 0]⟩,
    ⟨"d", "MatMul", "dev0", []⟩]
  devices := ["dev0", "dev1", "dev1", "dev1"]
  estimate := ⟨.ofList [("p", .ofCompute 0 100), ("c", .ofCompute 1 0), ("d", .ofCompute 1 0)],
    .zero⟩

/-- Listed three times, a device makes the ideal share a quarter, and half of the load is
    too much for it. -/
theorem distinct_can_differ : ∃ result other,
    lopsided.run = .ok result ∧ lopsided.distinct.run = .ok other ∧
    result.graph ≠ other.graph ∧ result.moves.length = 0 ∧ other.moves.length = 1 ∧
    result.deviceLoads.map (fun row => (row.device, row.loadAfter)) =
      [("dev0", 2), ("dev1", 0)] ∧
    other.deviceLoads.map (fun row => (row.device, row.loadAfter)) =
      [("dev0", 1), ("dev1", 1)] := by
  have hrun : lopsided.run.toOption.map (fun result => (result.graph.nodes.map Node.device,
      result.moves.length, result.deviceLoads.map fun row => (row.device, row.loadAfter))) =
      some (["dev1", "dev0", "dev0"], 0, [("dev0", 2), ("dev1", 0)]) := by
    decide +kernel
  have hrun' : lopsided.distinct.run.toOption.map (fun other => (other.graph.nodes.map Node.device,
      other.moves.length, other.deviceLoads.map fun row => (row.device, row.loadAfter))) =
      some (["dev1", "dev1", "dev0"], 1, [("dev0", 1), ("dev1", 1)]) := by
    decide +kernel
  obtain ⟨result, hresult, h⟩ := exists_ok_of_toOption hrun
  obtain ⟨other, hother, h'⟩ := exists_ok_of_toOption hrun'
  obtain ⟨hdevices, h⟩ := Prod.mk.inj h
  obtain ⟨hmoves, hrows⟩ := Prod.mk.inj h
  obtain ⟨hdevices', h'⟩ := Prod.mk.inj h'
  obtain ⟨hmoves', hrows'⟩ := Prod.mk.inj h'
  refine ⟨result, other, hresult, hother, fun hsame => ?_, hmoves, hmoves', hrows, hrows'⟩
  rw [hsame, hdevices'] at hdevices
  exact absurd hdevices (by decide)

end Task

end Sweep

end DevicePlacement

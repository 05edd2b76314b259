import DevicePlacement.Proofs.Sweep.Refinement
import Mathlib.Data.Int.ConditionallyCompleteOrder
import Mathlib.Data.List.MinMax
import Mathlib.Order.ConditionallyCompleteLattice.Basic

/-!
# What a visit chooses

A visit takes the first candidate that is better than where the node is and goes on from
there. It compares with the last device that it has taken, never looks back, and passes over
the device it began on. If no candidate that lowers the delta is turned down for the loads
(`Unhindered`), this comes to the same as looking at all devices: the node ends on the one
with the least delta, the first of them if there are several, where the device it began on
comes before all candidates.

* `argmin_of_search`: what has been found after some of the candidates;
* `returns_deltaOn`: every device in question has been given a delta;
* `Task.chooses_of_visit`: the device that the node is left on, by name.
-/

namespace DevicePlacement

/-- The first place where a key is least does not depend on how the elements are told. -/
theorem argmin_map {α β : Type} {f : α → β} {key : β → Int} {key' : α → Int} {l : List α}
    (h : ∀ a ∈ l, key (f a) = key' a) : (l.map f).argmin key = (l.argmin key').map f := by
  induction l using List.reverseRecOn with
  | nil => rfl
  | append_singleton l a ih =>
    have hl : ∀ b ∈ l, key (f b) = key' b := fun b hb => h b (List.mem_append_left [a] hb)
    have ha : key (f a) = key' a := h a (List.mem_append_right l (List.mem_singleton_self a))
    rw [List.map_append, List.map_singleton, List.argmin_concat, List.argmin_concat, ih hl]
    cases hleast : l.argmin key' with
    | none => rfl
    | some least =>
      simp only [Option.map_some, ha, hl least (List.argmin_mem hleast)]
      split <;> rfl

/-- Placements with the same sites are the same. -/
theorem Placement.eq_of_site {placement other : Placement}
    (hl : placement.devices.length = other.devices.length)
    (hs : placement.site = other.site) : placement = other := by
  have hdevices : placement.devices = other.devices := by
    refine List.ext_getElem hl fun position h h' => ?_
    have hsite := congrFun hs position
    rwa [Placement.site, Placement.site, List.getElem?_eq_getElem h, List.getElem?_eq_getElem h',
      Option.join_some, Option.join_some] at hsite
  calc placement = ⟨placement.devices⟩ := rfl
    _ = other := by rw [hdevices]

namespace Sweep

open Checked Function

variable {sweep : Sweep} {state next : State} {visit : Visit} {position origin : Nat}
  {tried : List Nat}

/-- The delta that a node has on a device. -/
def deltaOn (sweep : Sweep) (placement : Placement) (position device : Nat) :
    Except Fault Int64 := do
  (← sweep.priced.traffic placement position device).delta

/-- A delta that is computed is that of what arrives. -/
theorem deltaOn_eq_ok {placement : Placement} {device : Nat} {delta : Int64}
    (h : sweep.deltaOn placement position device = .ok delta) :
    delta.toInt = (sweep.priced.arrivals placement position).gap device := by
  obtain ⟨traffic, htraffic, h⟩ := bind_eq_ok.1 h
  rw [Traffic.delta_eq_ok h, PricedGraph.gap_of_traffic htraffic]

/-- In the visit of a node, every candidate with a lower delta than where the visit has come
    is better: none is turned down for the loads. -/
def Unhindered (sweep : Sweep) (state : State) (position origin : Nat) : Prop :=
  ∀ tried candidate visit, tried ++ [candidate] <+: sweep.candidates →
    sweep.search state position origin tried = .ok visit →
    (sweep.priced.arrivals state.placement position).gap candidate < visit.traffic.gap →
      sweep.Improves state.placement position visit candidate

instance (sweep : Sweep) (placement : Placement) (position : Nat) (visit : Visit)
    (candidate : Nat) : Decidable (sweep.Improves placement position visit candidate) :=
  inferInstanceAs (Decidable (_ ∧ _))

/-- Only the beginnings of the list of candidates matter, so this can be decided. -/
theorem unhindered_iff : sweep.Unhindered state position origin ↔
    ∀ tried ∈ sweep.candidates.inits, ∀ candidate ∈ sweep.candidates[tried.length]?,
      ∀ visit ∈ (sweep.search state position origin tried).toOption,
        (sweep.priced.arrivals state.placement position).gap candidate < visit.traffic.gap →
          sweep.Improves state.placement position visit candidate := by
  -- A candidate and the ones tried before it are a split of the list, which is a finite choice.
  have hbegin {tried : List Nat} {candidate : Nat} : tried ++ [candidate] <+: sweep.candidates ↔
      tried ∈ sweep.candidates.inits ∧ candidate ∈ sweep.candidates[tried.length]? := by
    rw [List.mem_inits]
    constructor
    · rintro ⟨rest, hrest⟩
      exact ⟨⟨candidate :: rest, by simp [← hrest]⟩, by simp [← hrest]⟩
    · rintro ⟨⟨rest, hrest⟩, hcandidate⟩
      rw [← hrest, List.getElem?_append_right (Nat.le_refl _), Nat.sub_self] at hcandidate
      obtain ⟨rest, rfl⟩ := List.head?_eq_some_iff.1 (List.head?_eq_getElem?.trans hcandidate)
      exact ⟨rest, by rw [← hrest, List.append_assoc, List.singleton_append]⟩
  have hreturns (x : Except Fault Visit) (visit : Visit) :
      x = .ok visit ↔ visit ∈ x.toOption := by
    cases x <;> simp [Except.toOption]
  simp only [Unhindered, hbegin, hreturns]
  constructor
  · intro h tried htried candidate hcandidate visit
    exact h tried candidate visit ⟨htried, hcandidate⟩
  · intro h tried candidate visit ⟨htried, hcandidate⟩
    exact h tried htried candidate hcandidate visit

instance (sweep : Sweep) (state : State) (position origin : Nat) :
    Decidable (sweep.Unhindered state position origin) :=
  decidable_of_iff _ unhindered_iff.symm

/-! ## The least delta -/

/-- Unhindered, a search has come to the device with the least delta of those it has seen. -/
theorem argmin_of_search (hfree : sweep.Unhindered state position origin)
    (ht : tried <+: sweep.candidates)
    (h : sweep.search state position origin tried = .ok visit) :
    (origin :: tried).argmin (sweep.priced.arrivals state.placement position).gap =
      some visit.current := by
  induction tried using List.reverseRecOn generalizing visit with
  | nil =>
    obtain ⟨traffic, _, h⟩ := bind_eq_ok.1 h
    rw [foldlM_nil_eq_ok] at h
    rw [← h]
    rfl
  | append_singleton tried candidate ih =>
    obtain ⟨middle, hmiddle, h⟩ := search_concat_eq_ok.1 h
    have hleast := ih ((List.prefix_append tried [candidate]).trans ht) hmiddle
    have hgap := PricedGraph.gap_of_traffic (traffic_of_search hmiddle)
    -- Only a strictly lower gap makes the candidate the minimum, so in a tie the first one stays.
    rw [← List.cons_append, List.argmin_concat, hleast]
    cases consider_eq_ok h with
    | skipped hskip =>
      refine if_neg (Int.not_lt.2 ?_)
      rcases hskip with rfl | rfl
      · exact List.le_of_mem_argmin List.mem_cons_self hleast
      · exact Int.le_refl _
    | refused _ _ hno =>
      refine if_neg fun hlower => ?_
      rw [← hgap] at hlower
      exact hno (hfree tried candidate _ ht hmiddle hlower)
    | accepted hhop =>
      have hlower := hhop.improves.1
      rw [hgap] at hlower
      rw [hhop.current]
      exact if_pos hlower

/-! ## All deltas are there -/

/-- A search is where it began or on one of the candidates it has seen. -/
theorem current_mem_of_search (h : sweep.search state position origin tried = .ok visit) :
    visit.current ∈ origin :: tried :=
  search_keeps (P := fun visit => visit.current ∈ origin :: tried)
    (fun _ _ _ hc _ hhop => hhop.current ▸ List.mem_cons_of_mem origin hc)
    (fun _ _ => List.mem_cons_self) h

/-- A candidate that is not passed over has a delta, and so has the traffic it is compared
    with. -/
theorem returns_of_consider {candidate : Nat} {visit next : Visit}
    (h : sweep.consider state.placement position origin visit candidate = .ok next)
    (hskip : ¬ (candidate = origin ∨ candidate = visit.current)) :
    Returns (sweep.deltaOn state.placement position candidate) ∧ Returns visit.traffic.delta := by
  rw [consider, if_neg hskip] at h
  obtain ⟨traffic, htraffic, h⟩ := bind_eq_ok.1 h
  obtain ⟨answer, hanswer, _⟩ := bind_eq_ok.1 h
  obtain ⟨after, hafter, hanswer⟩ := bind_eq_ok.1 hanswer
  obtain ⟨before, hbefore, _⟩ := bind_eq_ok.1 hanswer
  exact ⟨⟨after, bind_eq_ok.2 ⟨traffic, htraffic, hafter⟩⟩, before, hbefore⟩

/-- After a search, every candidate it has seen has been given a delta, and so has the device
    it began on, if there was another one. -/
theorem returns_deltaOn {device : Nat} (hnodup : tried.Nodup)
    (h : sweep.search state position origin tried = .ok visit) (hd : device ∈ tried)
    (hne : device ≠ origin) :
    Returns (sweep.deltaOn state.placement position device) ∧
      Returns (sweep.deltaOn state.placement position origin) := by
  induction tried using List.reverseRecOn generalizing visit device with
  | nil => cases hd
  | append_singleton tried candidate ih =>
    obtain ⟨middle, hmiddle, h⟩ := search_concat_eq_ok.1 h
    rw [List.nodup_append_comm, List.singleton_append, List.nodup_cons] at hnodup
    rcases List.mem_append.1 hd with hd | hd
    · exact ih hnodup.2 hmiddle hd hne
    rw [List.mem_singleton] at hd
    subst hd
    have hcurrent := current_mem_of_search hmiddle
    have hskip : ¬ (device = origin ∨ device = middle.current) := by
      rintro (h | h)
      · exact hne h
      · exact (List.mem_cons.1 (h ▸ hcurrent)).elim hne hnodup.1
    obtain ⟨hdevice, hmiddleDelta⟩ := returns_of_consider h hskip
    refine ⟨hdevice, ?_⟩
    by_cases hstill : middle.current = origin
    · -- This is the first candidate that is compared with the origin.
      obtain ⟨delta, hdelta⟩ := hmiddleDelta
      have htraffic := traffic_of_search hmiddle
      rw [hstill] at htraffic
      exact ⟨delta, bind_eq_ok.2 ⟨middle.traffic, htraffic, hdelta⟩⟩
    · exact (ih hnodup.2 hmiddle ((List.mem_cons.1 hcurrent).resolve_left hstill) hstill).2

/-! ## Nodes that stay -/

/-- A search that comes to nothing leaves the sweep as it is. -/
theorem Searched.eq_of_still (hs : sweep.Searched state position origin visit next)
    (hcurrent : visit.current = origin) (hbalance : visit.balance = state.balance)
    (hmoves : visit.moves = state.moves) : next = state := by
  have hsite : next.placement.site = state.placement.site := by
    rw [hs.site_next, hcurrent, ← hs.site, update_eq_self]
  have hmoved := hs.moved
  rw [if_pos hcurrent, Nat.add_zero] at hmoved
  calc next = ⟨next.placement, next.balance, next.moves, next.moved⟩ := rfl
    _ = state := by
      rw [Placement.eq_of_site hs.length hsite, hs.balance, hbalance, hs.moves, hmoves, hmoved]

/-- If no candidate has a lower delta than the device the visit began on, nothing happens. -/
theorem Searched.eq_of_least (hs : sweep.Searched state position origin visit next)
    (hleast : ∀ candidate ∈ sweep.candidates,
      (sweep.priced.arrivals state.placement position).gap origin ≤
        (sweep.priced.arrivals state.placement position).gap candidate) : next = state := by
  have hstill := search_keeps
    (P := fun visit => visit.current = origin ∧ visit.balance = state.balance ∧
      visit.moves = state.moves ∧
      visit.traffic.gap = (sweep.priced.arrivals state.placement position).gap origin)
    (fun visit next candidate hc ⟨_, _, _, hgap⟩ hhop => by
      have hlower := hhop.improves.1
      rw [hgap] at hlower
      exact absurd (hleast candidate hc) (Int.not_le.2 hlower))
    (fun traffic htraffic => ⟨rfl, rfl, rfl, PricedGraph.gap_of_traffic htraffic⟩) hs.search
  exact hs.eq_of_still hstill.1 hstill.2.1 hstill.2.2.1

/-! ## The device of choice -/

namespace Task

variable {task : Task}

/-- No device is a candidate twice, as the inventory is enrolled without repetitions. -/
theorem nodup_candidates (task : Task) : task.sweep.candidates.Nodup := by
  refine List.Nodup.of_map task.roster.nameOf ?_
  rw [map_nameOf_candidates, ← Roster.names_ofInventory]
  exact (Roster.nodup_ofInventory task.devices).filter _

/-- With two candidates or more, there is one besides any device. -/
theorem exists_candidate_ne (hc : 2 ≤ task.sweep.candidates.length) (device : Nat) :
    ∃ candidate ∈ task.sweep.candidates, candidate ≠ device := by
  by_contra hnone
  have hall : ∀ candidate ∈ task.sweep.candidates, candidate = device := fun candidate hmem =>
    by_contra fun hne => hnone ⟨candidate, hmem, hne⟩
  have hreplicate := List.eq_replicate_of_mem hall
  have hnodup := task.nodup_candidates
  rw [hreplicate, List.nodup_replicate] at hnodup
  omega

section Visit

variable {state next : State} {position origin device : Nat} {visit : Visit}

/-- All devices that a visit chooses from have a row in the tables. -/
theorem lt_of_mem_choice (hinv : task.Inv state)
    (hsite : state.placement.site position = some origin)
    (hd : device ∈ origin :: task.sweep.candidates) : device < task.roster.size := by
  rcases List.mem_cons.1 hd with rfl | hd
  · exact hinv.within position device hsite
  · exact candidate_lt hd

/-- In a visit that returns, the node has a delta on every device in question. -/
theorem returns_of_searched (hc : 2 ≤ task.sweep.candidates.length)
    (hs : task.sweep.Searched state position origin visit next)
    (hd : device ∈ origin :: task.sweep.candidates) :
    Returns (task.sweep.deltaOn state.placement position device) := by
  by_cases hne : device = origin
  · obtain ⟨other, hother, hne'⟩ := exists_candidate_ne hc origin
    rw [hne]
    exact (returns_deltaOn task.nodup_candidates hs.search hother hne').2
  · have hcandidate := (List.mem_cons.1 hd).resolve_left hne
    exact (returns_deltaOn task.nodup_candidates hs.search hcandidate hne).1

end Visit

/-- What the visit of a node on a device comes to if it is not hindered. -/
structure Chooses (task : Task) (state : State) (position origin : Nat) (next : State) :
    Prop where
  /-- The node has a delta on the device it was on and on every candidate. -/
  delta : ∀ device ∈ origin :: task.sweep.candidates, ∃ delta,
    task.sweep.deltaOn state.placement position device = .ok delta ∧ delta.toInt =
      (task.arrivals (state.placement.siteName task.roster) position).gap
        (task.roster.nameOf device)
  /-- It is left on the first of these devices where this is least. -/
  least : (task.roster.nameOf origin :: task.targets).argmin
      (task.arrivals (state.placement.siteName task.roster) position).gap =
    next.placement.siteName task.roster position
  /-- If no candidate has a lower one, nothing happens at all. -/
  stays : (∀ target ∈ task.targets,
      (task.arrivals (state.placement.siteName task.roster) position).gap
          (task.roster.nameOf origin) ≤
        (task.arrivals (state.placement.siteName task.roster) position).gap target) →
    next = state

/-- If no candidate that lowers the delta is turned down for the loads, the visit of a node
    leaves it on the device with the least delta, as the nodes were when the visit began: on
    the one it was on if that is as good as any, else on the first such candidate. -/
theorem chooses_of_visit {visited : List Nat} {position origin : Nat} {state next : State}
    (hp : visited ++ [position] <+: task.positions) (hs : task.after visited = .ok state)
    (hc : 2 ≤ task.sweep.candidates.length)
    (hsite : state.placement.site position = some origin)
    (hpinned : task.pinned.isPinned (task.roster.nameOf origin) = false)
    (hv : task.sweep.visit state position = .ok next)
    (hfree : task.sweep.Unhindered state position origin) :
    task.Chooses state position origin next := by
  have hinv := inv_after (subset_of_prefix_concat hp) hs
  have hgap : ∀ device ∈ origin :: task.sweep.candidates,
      (task.arrivals (state.placement.siteName task.roster) position).gap
          (task.roster.nameOf device) =
        (task.sweep.priced.arrivals state.placement position).gap device := fun device hd =>
    gap_siteName (mem_of_prefix_concat hp) hinv.within (lt_of_mem_choice hinv hsite hd)
  cases visit_eq_ok hv with
  | unassigned hnone =>
    rw [hsite] at hnone
    cases hnone
  | pinned hsite' hyes =>
    cases hsite.symm.trans hsite'
    exact absurd (hpinned.symm.trans hyes) Bool.false_ne_true
  | searched hsearched =>
    cases hsite.symm.trans hsearched.site
    refine ⟨fun device hd => ?_, ?_, fun hleast => ?_⟩
    · obtain ⟨delta, hdelta⟩ := returns_of_searched hc hsearched hd
      exact ⟨delta, hdelta, by rw [deltaOn_eq_ok hdelta, hgap device hd]⟩
    · rw [targets, ← map_nameOf_candidates, ← List.map_cons, argmin_map hgap,
        argmin_of_search hfree List.prefix_rfl hsearched.search, Placement.siteName,
        hsearched.site_next, update_self]
    · refine hsearched.eq_of_least fun candidate hcandidate => ?_
      rw [← hgap origin List.mem_cons_self, ← hgap candidate (List.mem_cons_of_mem _ hcandidate)]
      refine hleast _ ?_
      rw [targets, ← map_nameOf_candidates]
      exact List.mem_map_of_mem hcandidate

/-- The node `c` is left where `q` is, past the device of `p`, which ships less. -/
theorem chooses_of_relay : ∃ state next, relay.after [] = .ok state ∧
    relay.sweep.visit state 2 = .ok next ∧ relay.sweep.Unhindered state 2 0 ∧
    relay.Chooses state 2 0 next ∧
    next.placement.siteName relay.roster 2 = some "dev2" := by
  have hp : [] ++ [2] <+: relay.positions := by decide +kernel
  have hc : 2 ≤ relay.sweep.candidates.length := by decide +kernel
  have hpinned : relay.pinned.isPinned (relay.roster.nameOf 0) = false := by decide +kernel
  have hrun : (do
      let state ← relay.after []
      return (state, ← relay.sweep.visit state 2) :
        Except Fault (State × State)).toOption.map (fun (state, next) =>
          (state.placement.site 2, decide (relay.sweep.Unhindered state 2 0),
            next.placement.siteName relay.roster 2)) = some (some 0, true, some "dev2") := by
    decide +kernel
  obtain ⟨⟨state, next⟩, hrun, h⟩ := exists_ok_of_toOption hrun
  obtain ⟨hsite, h⟩ := Prod.mk.inj h
  obtain ⟨hfree, hdevice⟩ := Prod.mk.inj h
  obtain ⟨_, hs, hrun⟩ := bind_eq_ok.1 hrun
  obtain ⟨_, hv, hrun⟩ := bind_eq_ok.1 hrun
  cases pure_eq_ok.1 hrun
  have hfree := of_decide_eq_true hfree
  exact ⟨state, next, hs, hv, hfree, chooses_of_visit hp hs hc hsite hpinned hv hfree, hdevice⟩

end Task

end Sweep

end DevicePlacement

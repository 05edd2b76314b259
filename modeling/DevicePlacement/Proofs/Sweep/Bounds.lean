import DevicePlacement.Proofs.Sweep.Loads

/-!
# The balance that a sweep leaves

A hop is only made if both of its devices stay near their ideal share, so right
after it they are. A later hop changes no device but its own two, and those are
near again. So at any time, the devices that some move has touched are near their
ideal share, and the others have the load they began with (`Settled`).

* `settled_of_hop`, `settled_of_visited`: a hop and a visit keep this;
* `bounds_of_run`: it is what the returned rows say, and no touched device is
  pinned.
-/

namespace DevicePlacement.Sweep

/-- A device that occurs in one of the moves. -/
def Touched (moves : List MoveRecord) (device : String) : Prop :=
  ∃ made ∈ moves, made.source = device ∨ made.target = device

/-- One move more touches its two devices. -/
theorem touched_append_singleton {moves : List MoveRecord} {made : MoveRecord} {device : String} :
    Touched (moves ++ [made]) device ↔
      Touched moves device ∨ made.source = device ∨ made.target = device := by
  constructor
  · rintro ⟨other, ho, h⟩
    rcases List.mem_append.1 ho with ho | ho
    · exact .inl ⟨other, ho, h⟩
    · rw [List.mem_singleton.1 ho] at h
      exact .inr h
  · rintro (⟨other, ho, h⟩ | h)
    · exact ⟨other, List.mem_append_left _ ho, h⟩
    · exact ⟨made, List.mem_append_right _ (List.mem_singleton_self _), h⟩

namespace Task

variable {task : Task} {before : Balance} {result : Result}

/-- The devices that moves have touched are near their ideal share and not pinned,
    and the others have the load they began with. -/
structure Settled (task : Task) (before balance : Balance) (moves : List MoveRecord) : Prop where
  scale : balance.scale = task.scale
  near : ∀ device < task.roster.size, Touched moves (task.roster.nameOf device) →
    task.scale.isNear (balance.loadOf device) = true
  same : ∀ device < task.roster.size, ¬ Touched moves (task.roster.nameOf device) →
    balance.loadOf device = before.loadOf device
  enrolled : ∀ device, Touched moves device → device ∈ task.roster.names
  unpinned : ∀ device, Touched moves device → task.pinned.isPinned device = false

/-- Before the first move no device is touched. -/
theorem settled_start (h : task.opening = .ok before) : task.Settled before before [] where
  scale := (opening_eq_ok h).scale
  near _ _ := fun ⟨_, h, _⟩ => absurd h List.not_mem_nil
  same _ _ _ := rfl
  enrolled _ := fun ⟨_, h, _⟩ => absurd h List.not_mem_nil
  unpinned _ := fun ⟨_, h, _⟩ => absurd h List.not_mem_nil

/-! ## Hops -/

section Hop

variable {placement : Placement} {position origin candidate : Nat} {visit next : Visit}

/-- A hop leaves both of its devices near their ideal share. -/
theorem near_of_hop (h : task.sweep.Hop placement position origin candidate visit next) :
    visit.balance.scale.isNear (next.balance.loadOf visit.current) = true ∧
      visit.balance.scale.isNear (next.balance.loadOf candidate) = true := by
  obtain ⟨_, horigin, hdestination⟩ := h.improves
  rw [h.balance.loadOf, h.balance.loadOf]
  constructor
  · rwa [if_pos rfl, if_neg (Ne.symm h.ne_current), add_zero]
  · rwa [if_neg h.ne_current, if_pos rfl, sub_zero]

/-- A hop touches the device it leaves and the one it goes to. -/
theorem touched_of_hop (h : task.sweep.Hop placement position origin candidate visit next)
    {device : String} :
    Touched next.moves device ↔ Touched visit.moves device ∨
      task.roster.nameOf visit.current = device ∨ task.roster.nameOf candidate = device := by
  obtain ⟨made, hmoves, hmade⟩ := h.moves
  rw [hmoves, touched_append_singleton, hmade.source, hmade.target, h.current]
  rfl

/-- A hop leaves both of its devices within the margin, and changes no other. -/
theorem settled_of_hop (hs : task.Settled before visit.balance visit.moves)
    (hlt : visit.current < task.roster.size)
    (hpinned : task.pinned.isPinned (task.roster.nameOf visit.current) = false)
    (hc : candidate ∈ task.sweep.candidates)
    (h : task.sweep.Hop placement position origin candidate visit next) :
    task.Settled before next.balance next.moves where
  scale := h.balance.scale.trans hs.scale
  near device hd ht := by
    obtain ⟨horigin, hdestination⟩ := near_of_hop h
    rw [hs.scale] at horigin hdestination
    by_cases ho : device = visit.current
    · exact ho ▸ horigin
    by_cases hdest : device = candidate
    · exact hdest ▸ hdestination
    -- The hop has passed this device by, so an earlier one has touched it.
    rw [h.balance.loadOf, if_neg ho, if_neg hdest, sub_zero, add_zero]
    rcases (touched_of_hop h).1 ht with ht | ht | ht
    · exact hs.near device hd ht
    · exact absurd ((Roster.nameOf_inj task.nodup_names_roster hlt hd).1 ht).symm ho
    · exact absurd ((Roster.nameOf_inj task.nodup_names_roster (candidate_lt hc) hd).1 ht).symm
        hdest
  same device hd ht := by
    rw [touched_of_hop h, not_or, not_or] at ht
    obtain ⟨ht, horigin, hdestination⟩ := ht
    have ho : device ≠ visit.current := fun e => horigin (congrArg _ e.symm)
    have hdest : device ≠ candidate := fun e => hdestination (congrArg _ e.symm)
    rw [h.balance.loadOf, if_neg ho, if_neg hdest, sub_zero, add_zero]
    exact hs.same device hd ht
  enrolled device ht := by
    rcases (touched_of_hop h).1 ht with ht | rfl | rfl
    · exact hs.enrolled device ht
    · exact Roster.nameOf_mem hlt
    · exact Roster.nameOf_mem (candidate_lt hc)
  unpinned device ht := by
    rcases (touched_of_hop h).1 ht with ht | rfl | rfl
    · exact hs.unpinned device ht
    · exact hpinned
    · exact (nameOf_candidate hc).2

end Hop

/-! ## Visits -/

/-- By induction, so does every search. -/
theorem settled_of_search {state : State} {position origin : Nat} {visit : Visit}
    (hs : task.Settled before state.balance state.moves) (hlt : origin < task.roster.size)
    (hpinned : task.pinned.isPinned (task.roster.nameOf origin) = false)
    (h : task.sweep.search state position origin task.sweep.candidates = .ok visit) :
    task.Settled before visit.balance visit.moves := by
  -- The visit stays on devices that are not pinned: it starts on one, and so are
  -- all candidates.
  have hvisit := search_keeps
    (P := fun visit => task.Settled before visit.balance visit.moves ∧
      visit.current < task.roster.size ∧
      task.pinned.isPinned (task.roster.nameOf visit.current) = false)
    (fun visit next candidate hc hvisit hhop => by
      obtain ⟨hs, hlt, hpinned⟩ := hvisit
      refine ⟨settled_of_hop hs hlt hpinned hc hhop, ?_, ?_⟩
      · exact hhop.current ▸ candidate_lt hc
      · exact hhop.current ▸ (nameOf_candidate hc).2)
    (fun _ _ => ⟨hs, hlt, hpinned⟩) h
  exact hvisit.1

/-- And so does every visit, as it ends with the loads of its search. -/
theorem settled_of_visited {state next : State} {position : Nat} (hi : task.Inv state)
    (hs : task.Settled before state.balance state.moves)
    (h : task.sweep.Visited state position next) :
    task.Settled before next.balance next.moves := by
  cases h with
  | unassigned _ => exact hs
  | pinned _ _ => exact hs
  | @searched origin _ _ hv =>
    rw [hv.balance, hv.moves]
    exact settled_of_search hs (hi.within position origin hv.site) hv.unpinned hv.search

/-- It holds in the end. -/
theorem Finished.settled {final : State} (h : task.Finished before final result) :
    task.Settled before final.balance result.moves := by
  have hfinal := visitAll_keeps
    (P := fun state => task.Inv state ∧ task.Settled before state.balance state.moves)
    (fun state next position hp ⟨hi, hs⟩ hv =>
      ⟨inv_of_visited hp hi hv, settled_of_visited hi hs hv⟩)
    ⟨inv_start h.opening, settled_start h.opening⟩ h.swept
  exact h.moves ▸ hfinal.2

/-! ## The returned rows -/

/-- What is true of the loads that a sweep returns, given its moves. -/
structure Bounds (task : Task) (result : Result) : Prop where
  /-- A touched device has a row, where its share is near the ideal one. -/
  near : ∀ device, Touched result.moves device → ∃ row ∈ result.deviceLoads,
    row.device = device ∧
      (row.shareAfter - result.idealShare).abs ≤ task.knobs.computeMargin + Balance.tolerance
  /-- So it is in every row that the device has. -/
  near_of_row : ∀ row ∈ result.deviceLoads, Touched result.moves row.device →
    (row.shareAfter - result.idealShare).abs ≤ task.knobs.computeMargin + Balance.tolerance
  /-- A device that no move touches keeps its load. -/
  same : ∀ row ∈ result.deviceLoads, ¬ Touched result.moves row.device →
    row.loadAfter = row.loadBefore
  /-- No move touches a pinned device. -/
  unpinned : ∀ device, Touched result.moves device → task.pinned.isPinned device = false

/-- A device that was touched is reported within the margin. -/
theorem Finished.near_of_row {final : State} {row : DeviceLoad}
    (h : task.Finished before final result) (hr : row ∈ result.deviceLoads)
    (ht : Touched result.moves row.device) :
    (row.shareAfter - result.idealShare).abs ≤ task.knobs.computeMargin + Balance.tolerance := by
  obtain ⟨device, hrow⟩ := h.row_of_mem hr
  have hnear := h.settled.near device hrow.device_lt (hrow.name ▸ ht)
  rw [Scale.isNear, decide_eq_true_iff, ← h.settled.scale, ← hrow.shareAfter,
    h.settled.scale] at hnear
  have hideal : result.idealShare = task.scale.idealShare :=
    h.idealShare.trans (congrArg Scale.idealShare h.settled.scale)
  rw [hideal]
  exact hnear

/-- A device that was not is reported with the load it had. -/
theorem Finished.same_of_row {final : State} {row : DeviceLoad}
    (h : task.Finished before final result) (hr : row ∈ result.deviceLoads)
    (ht : ¬ Touched result.moves row.device) : row.loadAfter = row.loadBefore := by
  obtain ⟨device, hrow⟩ := h.row_of_mem hr
  rw [← Int64.toInt_inj, hrow.loadAfter, hrow.loadBefore]
  exact h.settled.same device hrow.device_lt (hrow.name ▸ ht)

/-- Every device that a move touches is not pinned and ends near its ideal share,
    and all other devices keep their loads. -/
theorem bounds_of_run (h : task.run = .ok result) : task.Bounds result := by
  obtain ⟨before, final, hf⟩ := run_eq_ok h
  exact {
    near := fun device ht => by
      have hmem : device ∈ result.deviceLoads.map DeviceLoad.device := by
        rw [hf.map_device]
        exact hf.settled.enrolled device ht
      obtain ⟨row, hr, rfl⟩ := List.mem_map.1 hmem
      exact ⟨row, hr, rfl, hf.near_of_row hr ht⟩
    near_of_row := fun row hr ht => hf.near_of_row hr ht
    same := fun row hr ht => hf.same_of_row hr ht
    unpinned := hf.settled.unpinned }

theorem bounds_of_relay : ∃ result, relay.run = .ok result ∧ relay.Bounds result ∧
    result.moves.map (fun made => (made.node, made.source, made.target)) =
      [("c", "dev0", "dev1"), ("c", "dev1", "dev2"), ("d", "dev9", "dev2")] := by
  obtain ⟨result, h, hmoves, _⟩ := run_relay
  exact ⟨result, h, bounds_of_run h, hmoves⟩

end Task

end DevicePlacement.Sweep

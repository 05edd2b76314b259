import DevicePlacement.Proofs.Placement.Balance

/-!
# Loads of a placement

The load that nodes put on a device, counted from scratch, is the sum of the
compute costs of those that stand on it (`loadOn`). It is what a balance has to
show for every device (`Balance.Carries`).

* `loadOn_update`: a node that changes its site takes its compute cost along;
* `loadOn_map`: devices may be told apart by number or by name;
* `Balance.Moved.carries`: a balance that follows a node shows its new site.
-/

namespace DevicePlacement

open Function

section loadOn

variable {α β : Type} [DecidableEq α] [DecidableEq β] {compute : Nat → Int}
  {site : Nat → Option α} {positions : List Nat} {position : Nat}

/-- The compute costs of the nodes at the given positions that stand on a device. -/
def loadOn (compute : Nat → Int) (site : Nat → Option α) (positions : List Nat) (device : α) :
    Int :=
  (positions.map fun position => if site position = some device then compute position else 0).sum

/-- Loads add up over the positions. -/
theorem loadOn_append (compute : Nat → Int) (site : Nat → Option α) (positions more : List Nat)
    (device : α) :
    loadOn compute site (positions ++ more) device =
      loadOn compute site positions device + loadOn compute site more device := by
  rw [loadOn, List.map_append, List.sum_append, loadOn, loadOn]

/-- A node puts its compute cost on its own device. -/
theorem loadOn_singleton {origin : α} (compute : Nat → Int) (hsite : site position = some origin)
    (device : α) :
    loadOn compute site [position] device = if device = origin then compute position else 0 := by
  rw [loadOn, List.map_singleton, List.sum_singleton]
  exact if_congr (by rw [hsite, Option.some_inj, eq_comm]) rfl rfl

/-- Where no node is, there is no load. -/
theorem loadOn_eq_zero {device : α} (h : ∀ position ∈ positions, site position ≠ some device) :
    loadOn compute site positions device = 0 :=
  List.sum_eq_zero (List.forall_mem_map.2 fun position hp => if_neg (h position hp))

/-- Only who is on a device matters for its load. -/
theorem loadOn_congr {site' : Nat → Option β} {device : α} {device' : β}
    (h : ∀ position ∈ positions, site position = some device ↔ site' position = some device') :
    loadOn compute site positions device = loadOn compute site' positions device' :=
  congrArg List.sum (List.map_congr_left fun position hp => if_congr (h position hp) rfl rfl)

/-- Devices may be told apart by another name, if different ones stay different. -/
theorem loadOn_map {f : α → β} {device : α}
    (h : ∀ position ∈ positions, ∀ other, site position = some other →
      (f other = f device ↔ other = device)) :
    loadOn compute (fun position => (site position).map f) positions (f device) =
      loadOn compute site positions device := by
  refine loadOn_congr fun position hp => ?_
  cases hs : site position with
  | none => simp
  | some other => simpa using h position hp other hs

/-- A node that does not count may move without changing a load. -/
theorem loadOn_update_of_not_mem (h : position ∉ positions) (new : Option α) (device : α) :
    loadOn compute (update site position new) positions device =
      loadOn compute site positions device := by
  refine loadOn_congr fun other ho => ?_
  have hne : other ≠ position := fun e => h (e ▸ ho)
  rw [update_of_ne hne]

/-- A node that changes its site takes its compute cost along. -/
theorem loadOn_update {origin destination : α} (hp : position ∈ positions)
    (hnodup : positions.Nodup) (hsite : site position = some origin) (device : α) :
    loadOn compute (update site position (some destination)) positions device =
      loadOn compute site positions device -
        (if device = origin then compute position else 0) +
        (if device = destination then compute position else 0) := by
  induction positions with
  | nil => cases hp
  | cons other positions ih =>
    rw [List.nodup_cons] at hnodup
    rw [← List.singleton_append, loadOn_append, loadOn_append]
    -- The position occurs once: here, or else somewhere in the rest.
    by_cases ho : other = position
    · subst ho
      rw [loadOn_update_of_not_mem hnodup.1, loadOn_singleton compute hsite,
        loadOn_singleton compute (update_self other _ site)]
      abel
    · have hp' : position ∈ positions := (List.mem_cons.1 hp).resolve_left (Ne.symm ho)
      rw [ih hp' hnodup.2, loadOn_update_of_not_mem (by simpa using Ne.symm ho)]
      abel

end loadOn

namespace Balance

variable {balance next : Balance} {compute : Nat → Int} {site : Nat → Option Nat}
  {positions : List Nat} {position : Nat}

/-- The balance shows, for every device, the load that nodes put on it. -/
def Carries (balance : Balance) (compute : Nat → Int) (site : Nat → Option Nat)
    (positions : List Nat) : Prop :=
  ∀ device, balance.loadOf device = loadOn compute site positions device

/-- A balance that a node was added to also shows the load of this node. -/
theorem Added.carries {device : Nat} (h : Added device (compute position) balance next)
    (hc : balance.Carries compute site positions) (hsite : site position = some device) :
    next.Carries compute site (positions ++ [position]) := by
  intro other
  rw [h.loadOf, hc, loadOn_append, loadOn_singleton compute hsite]

/-- A balance that follows a node shows its new site. -/
theorem Moved.carries {origin destination : Nat}
    (h : Moved origin destination (compute position) balance next)
    (hc : balance.Carries compute (update site position (some origin)) positions)
    (hp : position ∈ positions) (hnodup : positions.Nodup) :
    next.Carries compute (update site position (some destination)) positions := by
  intro device
  -- The node stands on `origin` as far as the balance knows, so that is the site
  -- from which it takes its load along.
  have hupdate : loadOn compute (update (update site position (some origin)) position
      (some destination)) positions device = _ :=
    loadOn_update hp hnodup (update_self ..) device
  rw [update_idem] at hupdate
  rw [h.loadOf, hc, hupdate]

end Balance

end DevicePlacement

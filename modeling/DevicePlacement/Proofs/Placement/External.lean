import DevicePlacement.Proofs.Placement.Traffic
import Mathlib.Algebra.BigOperators.Ring.Finset
import Mathlib.Algebra.Order.BigOperators.Group.Finset
import Mathlib.Tactic.Ring

/-!
# External traffic in exact integers

The external traffic of a placement is what comes in from elsewhere at all nodes
that are assigned (`PricedGraph.external`); a total that was computed is the exact
one (`totalExternal_eq_ok`). It depends on the names of the devices, not on their numbers
(`external_siteName`).

A node that moves changes it at both ends: what comes in at the node itself, and what
the node sends to its consumers on its old and on its new device (`external_update`). If
it leaves no consumer behind on its old device, the consumers have nothing to lose, and
the external traffic falls at least by what the node saves (`external_update_le`).
-/

namespace DevicePlacement

open Function

section Arrivals

variable {α : Type} [DecidableEq α] {size? : Nat → Option Int} {site : Nat → Option α}
  {position : Nat}

/-- What a node on a device takes in from a producer is shipped from elsewhere once the
    producer leaves the device, and no longer once it is there. -/
theorem outer_arrivals_update {origin target : α} (hsite : site position = some origin)
    (hne : target ≠ origin) (device : α) (producers : List Nat) :
    (arrivals size? (update site position (some target)) producers).outer device =
      (arrivals size? site producers).outer device + (size? position).getD 0 *
        producers.count position *
        ((if device = origin then 1 else 0) - if device = target then 1 else 0) := by
  induction producers with
  | nil => simp [arrivals, Arrivals.outer]
  | cons producer producers ih =>
    rw [arrivals_cons, arrivals_cons, Arrivals.outer_append, Arrivals.outer_append, ih]
    -- Only what comes from the node itself changes: it counts as external where its site is another
    -- device.
    by_cases hp : producer = position
    · subst hp
      rw [List.count_cons_self, shipment?, shipment?, update_self, hsite]
      cases size? producer with
      | none => simp
      | some size =>
        by_cases ho : device = origin
        · simp [Arrivals.outer, ho, hne, hne.symm]
          ring
        · by_cases ht : device = target
          · simp [Arrivals.outer, ht, hne, hne.symm]
            ring
          · simp [Arrivals.outer, ho, ht, Ne.symm ho, Ne.symm ht]
    · rw [List.count_cons_of_ne hp, shipment?, shipment?, update_of_ne hp, add_assoc]

end Arrivals

namespace PricedGraph

open Checked

variable {priced : PricedGraph} {placement : Placement} {position : Nat}
  {site : Nat → Option Nat}

/-- What comes in from elsewhere at the node at a position, if it is assigned. -/
def inflow {α : Type} [DecidableEq α] (priced : PricedGraph) (site : Nat → Option α)
    (position : Nat) : Int :=
  match site position with
  | none => 0
  | some device => (DevicePlacement.arrivals priced.size? site
      (priced.producersOf position)).outer device

/-- What comes in from elsewhere at all nodes. -/
def external {α : Type} [DecidableEq α] (priced : PricedGraph) (site : Nat → Option α) : Int :=
  ∑ position ∈ Finset.range priced.size, priced.inflow site position

/-- The sum grows by what comes in at the node, or stays if the node is not assigned. -/
theorem addExternal_eq_ok {sum next : Int64}
    (h : priced.addExternal placement sum position = .ok next) :
    next.toInt = sum.toInt + priced.inflow placement.site position := by
  obtain ⟨device, hdevice, h⟩ := bind_eq_ok.1 h
  rw [inflow, (Placement.device_eq_ok_iff.1 hdevice).2]
  cases device with
  | none => cases h; exact (add_zero _).symm
  | some device =>
    obtain ⟨traffic, htraffic, h⟩ := bind_eq_ok.1 h
    rw [plus_eq_ok_iff.1 h, (traffic_eq_ok htraffic).2.1]
    rfl

/-- By induction, it is what comes in at all of the nodes. -/
theorem foldlM_addExternal_eq_ok {positions : List Nat} {sum : Int64}
    (h : positions.foldlM (priced.addExternal placement) 0 = .ok sum) :
    sum.toInt = (positions.map (priced.inflow placement.site)).sum := by
  refine foldlM_keeps_along
    (P := fun done sum => sum.toInt = (done.map (priced.inflow placement.site)).sum) rfl ?_ h
  intro done position _ sum next _ hsum hnext _
  rw [addExternal_eq_ok hnext, hsum, sum_map_concat]

/-- A total that was computed is the exact one. -/
theorem totalExternal_eq_ok {total : Int64} (h : priced.totalExternal placement = .ok total) :
    total.toInt = priced.external placement.site :=
  foldlM_addExternal_eq_ok h

/-- A node that is assigned takes in what its producers ship from other devices. -/
theorem inflow_of_site {device : Nat} (h : site position = some device) :
    priced.inflow site position = (DevicePlacement.arrivals priced.size? site
      (priced.producersOf position)).outer device := by
  rw [inflow, h]

/-- The devices may be told apart by name instead of by number. -/
theorem external_siteName {roster : Roster} (hnodup : roster.names.Nodup)
    (hwithin : placement.Within roster) :
    priced.external (placement.siteName roster) = priced.external placement.site := by
  refine Finset.sum_congr rfl fun position _ => ?_
  rw [inflow, inflow, Placement.siteName]
  cases hsite : placement.site position with
  | none => rfl
  | some device =>
    have harrivals : DevicePlacement.arrivals priced.size? (placement.siteName roster)
          (priced.producersOf position) =
        (DevicePlacement.arrivals priced.size? placement.site (priced.producersOf position)).map
          fun arrival => (roster.nameOf arrival.1, arrival.2) := arrivals_map roster.nameOf
    simp only [Option.map_some, harrivals]
    -- Names tell devices apart as numbers do, since no name is entered twice.
    refine Arrivals.outer_map fun arrival ha => ?_
    obtain ⟨producer, _, _, hproducer⟩ := mem_arrivals.1 ha
    exact Roster.nameOf_inj hnodup (hwithin _ _ hproducer) (hwithin _ _ hsite)

/-- The number of data inputs from a producer that a node has, if it is on the device. -/
def drawn (priced : PricedGraph) (site : Nat → Option Nat) (producer device consumer : Nat) :
    Int :=
  if site consumer = some device then (priced.producersOf consumer).count producer else 0

/-- The number of data inputs from a producer that the nodes on a device have. -/
def demand (priced : PricedGraph) (site : Nat → Option Nat) (producer device : Nat) : Int :=
  ∑ consumer ∈ Finset.range priced.size, priced.drawn site producer device consumer

/-- When another node moves, each input that is taken from it is shipped from elsewhere if the
    taker is on the device that was left, and no longer if it is on the new one. -/
theorem inflow_update (priced : PricedGraph) {origin target other : Nat}
    (hsite : site position = some origin) (hne : target ≠ origin) (ho : other ≠ position) :
    priced.inflow (update site position (some target)) other =
      priced.inflow site other + (priced.size? position).getD 0 *
        (priced.drawn site position origin other - priced.drawn site position target other) := by
  cases hother : site other with
  | none => simp [inflow, update_of_ne ho, hother, drawn]
  | some device =>
    rw [inflow_of_site hother, inflow_of_site ((update_of_ne ho ..).trans hother),
      outer_arrivals_update hsite hne, drawn, drawn, hother]
    by_cases h : device = origin
    · simp [h, hne.symm]
    · by_cases h' : device = target <;> simp [h, h', hne]

/-- A node that moves changes the external traffic by what comes in at the node itself and
    by what it ships to its consumers on its old and on its new device. -/
theorem external_update {origin target : Nat} (hlt : position < priced.size)
    (hsite : site position = some origin) (hne : target ≠ origin)
    (hself : position ∉ priced.producersOf position) :
    priced.external (update site position (some target)) =
      priced.external site +
        ((DevicePlacement.arrivals priced.size? site (priced.producersOf position)).outer target -
          (DevicePlacement.arrivals priced.size? site
            (priced.producersOf position)).outer origin) +
        (priced.size? position).getD 0 *
          (priced.demand site position origin - priced.demand site position target) := by
  have hmem : position ∈ Finset.range priced.size := Finset.mem_range.2 hlt
  -- The node ships nothing to itself.
  have hzero : ∀ device, priced.drawn site position device position = 0 := fun device => by
    rw [drawn, List.count_eq_zero_of_not_mem hself, Nat.cast_zero, ite_self]
  have hothers := Finset.sum_congr rfl fun other
      (ho : other ∈ (Finset.range priced.size).erase position) =>
    priced.inflow_update hsite hne (Finset.ne_of_mem_erase ho)
  rw [Finset.sum_add_distrib, ← Finset.mul_sum, Finset.sum_sub_distrib] at hothers
  rw [external, external, demand, demand, ← Finset.add_sum_erase _ _ hmem,
    ← Finset.add_sum_erase _ _ hmem, ← Finset.add_sum_erase _ _ hmem,
    ← Finset.add_sum_erase _ _ hmem, hothers, hzero, hzero, inflow_of_site (update_self ..),
    inflow_of_site hsite, arrivals_update hself]
  ring

/-- A node that leaves no consumer behind on its device lowers the external traffic at
    least by what it saves itself. -/
theorem external_update_le {origin target : Nat}
    (hsizes : ∀ producer size, priced.size? producer = some size → 0 ≤ size)
    (hlt : position < priced.size) (hsite : site position = some origin)
    (hconsumers : ∀ consumer device, position ∈ priced.producersOf consumer →
      site consumer = some device → device ≠ origin) :
    priced.external (update site position (some target)) +
        ((DevicePlacement.arrivals priced.size? site (priced.producersOf position)).outer origin -
          (DevicePlacement.arrivals priced.size? site
            (priced.producersOf position)).outer target) ≤
      priced.external site := by
  by_cases hne : target = origin
  · rw [hne, ← hsite, update_eq_self, sub_self, add_zero]
  -- The node would be its own consumer, and left behind by itself.
  have hself : position ∉ priced.producersOf position := fun h =>
    hconsumers position origin h hsite rfl
  have hleft : priced.demand site position origin = 0 := by
    refine Finset.sum_eq_zero fun consumer _ => ite_eq_right_iff.2 fun hconsumer => ?_
    have hnone : position ∉ priced.producersOf consumer := fun h =>
      hconsumers consumer origin h hconsumer rfl
    rw [List.count_eq_zero_of_not_mem hnone, Nat.cast_zero]
  have hjoined : 0 ≤ priced.demand site position target := by
    refine Finset.sum_nonneg fun consumer _ => ?_
    rw [drawn]
    split
    · exact Int.natCast_nonneg _
    · exact le_rfl
  have hsize : 0 ≤ (priced.size? position).getD 0 := by
    cases h : priced.size? position with
    | none => exact le_rfl
    | some size => exact hsizes position size h
  have hpaid := Int.mul_nonneg hsize hjoined
  rw [external_update hlt hsite hne hself, hleft, zero_sub, mul_neg]
  omega

end PricedGraph

end DevicePlacement

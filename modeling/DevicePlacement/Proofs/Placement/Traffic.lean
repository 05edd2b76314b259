import DevicePlacement.Placement.Traffic
import DevicePlacement.Proofs.Placement.PricedGraph
import DevicePlacement.Proofs.Placement.Sites
import Mathlib.Algebra.BigOperators.Group.List.Basic
import Mathlib.Algebra.Ring.Int.Defs

/-!
# Traffic in exact integers

What comes in at a node are its *arrivals*: for every data input that ships
something, the device it comes from and its size. The traffic of the node on a
device splits them into those from elsewhere (`outer`) and those from the device
itself (`inner`).

* `traffic_eq_ok`: a traffic that was computed is the exact one;
* `arrivals_update`: a node that is none of its own producers has the same
  arrivals wherever it is;
* `gap_map`: devices may be told apart by number or by name.
-/

namespace DevicePlacement

theorem sum_map_concat {α : Type} (f : α → Int) (l : List α) (a : α) :
    ((l ++ [a]).map f).sum = (l.map f).sum + f a := by
  rw [List.map_append, List.sum_append, List.map_singleton, List.sum_singleton]

/-- What comes in at a node: devices and sizes. -/
abbrev Arrivals (α : Type) := List (α × Int)

namespace Arrivals

variable {α β : Type} [DecidableEq α] [DecidableEq β]

/-- What comes from the device itself. -/
def inner (arrivals : Arrivals α) (device : α) : Int :=
  (arrivals.map fun arrival => if arrival.1 = device then arrival.2 else 0).sum

/-- What comes from other devices. -/
def outer (arrivals : Arrivals α) (device : α) : Int :=
  (arrivals.map fun arrival => if arrival.1 = device then 0 else arrival.2).sum

/-- What a move has to lower. -/
def gap (arrivals : Arrivals α) (device : α) : Int :=
  arrivals.outer device - arrivals.inner device

theorem outer_append (arrivals more : Arrivals α) (device : α) :
    outer (arrivals ++ more) device = outer arrivals device + outer more device := by
  rw [outer, List.map_append, List.sum_append, outer, outer]

theorem inner_append (arrivals more : Arrivals α) (device : α) :
    inner (arrivals ++ more) device = inner arrivals device + inner more device := by
  rw [inner, List.map_append, List.sum_append, inner, inner]

/-- What comes from elsewhere and what comes from the device itself is all there is. -/
theorem outer_add_inner (arrivals : Arrivals α) (device : α) :
    arrivals.outer device + arrivals.inner device = (arrivals.map Prod.snd).sum := by
  rw [outer, inner, ← List.sum_map_add]
  refine congrArg List.sum (List.map_congr_left fun arrival _ => ?_)
  split
  · exact zero_add _
  · exact add_zero _

/-- What a move lowers is twice what it saves from elsewhere. -/
theorem gap_sub_gap (arrivals : Arrivals α) (device other : α) :
    arrivals.gap device - arrivals.gap other =
      2 * (arrivals.outer device - arrivals.outer other) := by
  have hdevice := arrivals.outer_add_inner device
  have hother := arrivals.outer_add_inner other
  rw [gap, gap]
  omega

section Map

variable {arrivals : Arrivals α} {f : α → β} {device : α}
  (h : ∀ arrival ∈ arrivals, f arrival.1 = f device ↔ arrival.1 = device)

include h

/-- Devices may be told apart by another name, if different ones stay different. -/
theorem outer_map :
    outer (arrivals.map fun arrival => (f arrival.1, arrival.2)) (f device) =
      arrivals.outer device := by
  rw [outer, List.map_map]
  exact congrArg List.sum (List.map_congr_left fun arrival ha => if_congr (h arrival ha) rfl rfl)

theorem inner_map :
    inner (arrivals.map fun arrival => (f arrival.1, arrival.2)) (f device) =
      arrivals.inner device := by
  rw [inner, List.map_map]
  exact congrArg List.sum (List.map_congr_left fun arrival ha => if_congr (h arrival ha) rfl rfl)

/-- What a move has to lower does not depend on how devices are called. -/
theorem gap_map :
    gap (arrivals.map fun arrival => (f arrival.1, arrival.2)) (f device) =
      arrivals.gap device := by
  rw [gap, outer_map h, inner_map h, gap]

end Map

end Arrivals

/-- What a producer ships: its device and its size, if it has both. -/
def shipment? {α : Type} (size? : Nat → Option Int) (site : Nat → Option α) (producer : Nat) :
    Option (α × Int) :=
  (size? producer).bind fun size => (site producer).map fun device => (device, size)

/-- What a list of producers ships. -/
def arrivals {α : Type} (size? : Nat → Option Int) (site : Nat → Option α)
    (producers : List Nat) : Arrivals α :=
  producers.filterMap (shipment? size? site)

section Arrivals

variable {α β : Type} {size? : Nat → Option Int} {site : Nat → Option α} {producers : List Nat}

/-- The arrivals from a list of producers are those from the first and then from the rest. -/
theorem arrivals_cons (producer : Nat) :
    arrivals size? site (producer :: producers) =
      (shipment? size? site producer).toList ++ arrivals size? site producers := by
  rw [arrivals, arrivals, List.filterMap_cons]
  cases shipment? size? site producer with
  | none => rfl
  | some arrival => rfl

/-- Sites that are called otherwise give arrivals from what is called so. -/
theorem arrivals_map (f : α → β) :
    arrivals size? (fun position => (site position).map f) producers =
      (arrivals size? site producers).map fun arrival => (f arrival.1, arrival.2) := by
  rw [arrivals, arrivals, List.map_filterMap]
  refine List.filterMap_congr fun producer _ => ?_
  rw [shipment?, shipment?, Option.map_bind]
  cases size? producer with
  | none => rfl
  | some size => simp only [Option.bind_some, Function.comp_apply, Option.map_map]; rfl

/-- A node that is none of its own producers has the same arrivals wherever it is. -/
theorem arrivals_update {position : Nat} (h : position ∉ producers) (device : Option α) :
    arrivals size? (Function.update site position device) producers =
      arrivals size? site producers := by
  refine List.filterMap_congr fun producer hp => ?_
  have hne : producer ≠ position := fun e => h (e ▸ hp)
  rw [shipment?, Function.update_of_ne hne, shipment?]

/-- Arrivals come from producers that have a size and a site. -/
theorem mem_arrivals {arrival : α × Int} : arrival ∈ arrivals size? site producers ↔
    ∃ producer ∈ producers, size? producer = some arrival.2 ∧ site producer = some arrival.1 := by
  obtain ⟨device, size⟩ := arrival
  simp only [arrivals, shipment?, List.mem_filterMap, Option.bind_eq_some_iff,
    Option.map_eq_some_iff, Prod.mk.injEq]
  constructor
  · rintro ⟨producer, hp, size, hsize, device, hsite, rfl, rfl⟩
    exact ⟨producer, hp, hsize, hsite⟩
  · rintro ⟨producer, hp, hsize, hsite⟩
    exact ⟨producer, hp, size, hsize, device, hsite, rfl, rfl⟩

end Arrivals

/-! ## Checked traffic -/

namespace Traffic

open Checked

/-- The exact delta of a traffic. -/
def gap (traffic : Traffic) : Int :=
  traffic.external.toInt - traffic.internal.toInt

/-- A delta that is computed has not wrapped around. -/
theorem delta_eq_ok {traffic : Traffic} {delta : Int64} (h : traffic.delta = .ok delta) :
    delta.toInt = traffic.gap :=
  minus_eq_ok_iff.1 h

/-- A traffic that has grown by arrivals, as seen from a device. -/
structure Grown (device : Nat) (arrivals : Arrivals Nat) (start traffic : Traffic) : Prop where
  computeCost : traffic.computeCost = start.computeCost
  external : traffic.external.toInt = start.external.toInt + arrivals.outer device
  internal : traffic.internal.toInt = start.internal.toInt + arrivals.inner device

theorem Grown.nil (device : Nat) (traffic : Traffic) : Grown device [] traffic traffic :=
  ⟨rfl, (add_zero _).symm, (add_zero _).symm⟩

/-- Growth by some arrivals and then by more is growth by all of them. -/
theorem Grown.append {device : Nat} {arrivals more : Arrivals Nat} {start middle traffic : Traffic}
    (h : Grown device arrivals start middle) (h' : Grown device more middle traffic) :
    Grown device (arrivals ++ more) start traffic where
  computeCost := h'.computeCost.trans h.computeCost
  external := by rw [h'.external, h.external, Arrivals.outer_append, add_assoc]
  internal := by rw [h'.internal, h.internal, Arrivals.inner_append, add_assoc]

/-- An arrival from the device itself counts as internal, any other as external. -/
theorem add_eq_ok {start traffic : Traffic} {device source : Nat} {size : Int64}
    (h : start.add device source size = .ok traffic) :
    Grown device [(source, size.toInt)] start traffic := by
  rw [add] at h
  split at h
  · next hs =>
    obtain ⟨sum, hsum, h⟩ := bind_eq_ok.1 h
    rw [pure_eq_ok] at h
    subst h
    exact ⟨rfl, by simp [Arrivals.outer, hs], by simp [Arrivals.inner, hs, plus_eq_ok_iff.1 hsum]⟩
  · next hs =>
    obtain ⟨sum, hsum, h⟩ := bind_eq_ok.1 h
    rw [pure_eq_ok] at h
    subst h
    exact ⟨rfl, by simp [Arrivals.outer, hs, plus_eq_ok_iff.1 hsum], by simp [Arrivals.inner, hs]⟩

end Traffic

namespace PricedGraph

open Checked

variable {priced : PricedGraph} {placement : Placement} {position device : Nat}

/-- What comes in at the node at a position. -/
def arrivals (priced : PricedGraph) (placement : Placement) (position : Nat) : Arrivals Nat :=
  DevicePlacement.arrivals priced.size? placement.site (priced.producersOf position)

/-- One more data input adds what its producer ships. -/
theorem addInput_eq_ok {start traffic : Traffic} {producer : Nat}
    (h : priced.addInput placement device start producer = .ok traffic) :
    Traffic.Grown device (shipment? priced.size? placement.site producer).toList start traffic := by
  obtain ⟨cost, hcost, h⟩ := bind_eq_ok.1 h
  rw [shipment?, size?, cost_eq_ok hcost]
  cases cost with
  | none => cases h; exact .nil device start
  | some cost =>
    obtain ⟨source, hsource, h⟩ := bind_eq_ok.1 h
    rw [(Placement.device_eq_ok_iff.1 hsource).2]
    cases source with
    | none => cases h; exact .nil device start
    | some source => exact Traffic.add_eq_ok h

/-- By induction on the producers, the traffic grows by all they ship. -/
theorem foldlM_addInput_eq_ok {start traffic : Traffic} {producers : List Nat}
    (h : producers.foldlM (priced.addInput placement device) start = .ok traffic) :
    Traffic.Grown device (DevicePlacement.arrivals priced.size? placement.site producers)
      start traffic := by
  induction producers generalizing start with
  | nil =>
    rw [foldlM_nil_eq_ok] at h
    exact h ▸ .nil device start
  | cons producer producers ih =>
    obtain ⟨middle, hm, h⟩ := foldlM_cons_eq_ok.1 h
    rw [arrivals_cons]
    exact (addInput_eq_ok hm).append (ih h)

/-- A traffic that was computed is the exact one. -/
theorem traffic_eq_ok {traffic : Traffic}
    (h : priced.traffic placement position device = .ok traffic) :
    traffic.computeCost.toInt = priced.compute position ∧
      traffic.external.toInt = (priced.arrivals placement position).outer device ∧
      traffic.internal.toInt = (priced.arrivals placement position).inner device := by
  obtain ⟨computeCost, hcost, h⟩ := bind_eq_ok.1 h
  obtain ⟨inputs, hinputs, h⟩ := bind_eq_ok.1 h
  have grown := foldlM_addInput_eq_ok h
  rw [arrivals, inputs_eq_ok hinputs]
  refine ⟨?_, ?_, ?_⟩
  · rw [grown.computeCost, computeCost_eq_ok hcost]
  · rw [grown.external, Int64.toInt_zero, zero_add]
  · rw [grown.internal, Int64.toInt_zero, zero_add]

/-- So the delta is that of the arrivals. -/
theorem gap_of_traffic {traffic : Traffic}
    (h : priced.traffic placement position device = .ok traffic) :
    traffic.gap = (priced.arrivals placement position).gap device := by
  obtain ⟨_, hexternal, hinternal⟩ := traffic_eq_ok h
  rw [Traffic.gap, hexternal, hinternal, Arrivals.gap]

end PricedGraph

end DevicePlacement

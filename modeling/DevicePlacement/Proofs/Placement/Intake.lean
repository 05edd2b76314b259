import DevicePlacement.Proofs.InStep
import DevicePlacement.Proofs.Placement.Safety

/-!
# What comes in at a node as a whole

The traffic of a node divides what its producers ship into what comes from the device of the
node and what comes from elsewhere. Where the line runs depends on the device that is asked
for, but what is divided does not (`PricedGraph.intake`). So if the node is moved, its delta
changes by twice what its external traffic changes, and the one falls exactly if the other does.

Nor does it matter where the node itself is, unless it is one of its own producers: the traffic
that is asked for before the node has moved is the one that it has afterwards
(`PricedGraph.traffic_update`).

Both parts are formed one data input after the other, so there is a traffic exactly if neither
part leaves the 64-bit range on the way (`PricedGraph.InputsFit`).
-/

namespace DevicePlacement

open Checked Function

namespace Placement

/-- A placement is asked for a node by its position and by what is there. -/
theorem device_congr {placement other : Placement} {position : Nat}
    (hl : other.devices.length = placement.devices.length)
    (hsite : other.site position = placement.site position) :
    other.device position = placement.device position := by
  by_cases hlt : position < placement.devices.length
  · rw [device_eq_ok_iff.2 ⟨hlt, rfl⟩, device_eq_ok_iff.2 ⟨hl ▸ hlt, hsite⟩]
  · have hle := Nat.le_of_not_lt hlt
    rw [device, device, row, row, List.getElem?_eq_none hle, List.getElem?_eq_none (hl ▸ hle), hl]

end Placement

namespace PricedGraph

variable {priced : PricedGraph} {placement : Placement} {position device : Nat}

/-- What the producers of a node ship to it, one by one for every data input. Producers that
    are not assigned or have no cost ship nothing. -/
def intake (priced : PricedGraph) (placement : Placement) (position : Nat) : Int :=
  ((priced.producersOf position).map fun producer =>
    if (placement.site producer).isSome then (priced.size? producer).getD 0 else 0).sum

/-- Nothing of what arrives at a node is lost, and nothing else arrives. -/
theorem sum_arrivals (priced : PricedGraph) (placement : Placement) (position : Nat) :
    ((priced.arrivals placement position).map Prod.snd).sum = priced.intake placement position := by
  rw [arrivals, intake]
  induction priced.producersOf position with
  | nil => rfl
  | cons producer producers ih =>
    rw [arrivals_cons, List.map_append, List.sum_append, ih, List.map_cons, List.sum_cons,
      shipment?]
    cases priced.size? producer <;> cases placement.site producer <;> simp

/-- The traffic on any device divides the same intake. -/
theorem external_add_internal {traffic : Traffic}
    (h : priced.traffic placement position device = .ok traffic) :
    traffic.external.toInt + traffic.internal.toInt = priced.intake placement position := by
  obtain ⟨_, hexternal, hinternal⟩ := traffic_eq_ok h
  rw [hexternal, hinternal, Arrivals.outer_add_inner, sum_arrivals]

/-- The traffic of a node only depends on where its producers are. -/
theorem traffic_congr {other : Placement}
    (h : ∀ producer ∈ priced.producersOf position,
      other.device producer = placement.device producer) (device : Nat) :
    priced.traffic other position device = priced.traffic placement position device := by
  rw [traffic, traffic]
  refine InStep.eq (inStep_bind_left fun cost _ => inStep_bind_left fun producers hproducers => ?_)
  refine InStep.foldlM (fun traffic traffic' producer hproducer ht => ?_) rfl
  rw [← inputs_eq_ok hproducers] at hproducer
  rw [ht, addInput, addInput, h producer hproducer]
  exact .refl _

/-- A node that is none of its own producers has the same traffic wherever it is. -/
theorem traffic_update {other : Placement} {site : Option Nat}
    (hself : position ∉ priced.producersOf position)
    (hl : other.devices.length = placement.devices.length)
    (hother : other.site = update placement.site position site) (device : Nat) :
    priced.traffic other position device = priced.traffic placement position device := by
  refine traffic_congr (fun producer hproducer => Placement.device_congr hl ?_) device
  rw [hother, update_of_ne (ne_of_mem_of_not_mem hproducer hself)]

/-! ## When there is a traffic -/

/-- What comes in from a device itself and what comes in from elsewhere fit 64 bits after each
    of the inputs. -/
def InputsFit (priced : PricedGraph) (placement : Placement) (position device : Nat) : Prop :=
  ∀ done ∈ (priced.producersOf position).inits,
    Fits ((DevicePlacement.arrivals priced.size? placement.site done).outer device) ∧
      Fits ((DevicePlacement.arrivals priced.size? placement.site done).inner device)

instance (priced : PricedGraph) (placement : Placement) (position device : Nat) :
    Decidable (priced.InputsFit placement position device) :=
  List.decidableBAll _ _

end PricedGraph

/-- An arrival is added to one part and fails only if this part gets out of range. -/
theorem Traffic.add_eq_error {traffic : Traffic} {device source : Nat} {size : Int64}
    {fault : Fault} (h : traffic.add device source size = .error fault) :
    fault = .addition ∧
      ¬ (Fits (traffic.external.toInt + Arrivals.outer [(source, size.toInt)] device) ∧
        Fits (traffic.internal.toInt + Arrivals.inner [(source, size.toInt)] device)) := by
  rw [Arrivals.outer, Arrivals.inner, List.map_singleton, List.map_singleton, List.sum_singleton,
    List.sum_singleton]
  rw [add] at h
  -- One of the two parts takes the arrival, and the other one stays as it is.
  split at h
  · next hs =>
    rw [if_pos hs, if_pos hs]
    rcases bind_eq_error.1 h with h | ⟨_, _, h⟩
    · refine ⟨plus_eq_error h, fun hfits => ?_⟩
      obtain ⟨sum, hsum⟩ := returns_plus_of_fits hfits.2
      cases hsum.symm.trans h
    · cases h
  · next hs =>
    rw [if_neg hs, if_neg hs]
    rcases bind_eq_error.1 h with h | ⟨_, _, h⟩
    · refine ⟨plus_eq_error h, fun hfits => ?_⟩
      obtain ⟨sum, hsum⟩ := returns_plus_of_fits hfits.1
      cases hsum.symm.trans h
    · cases h

namespace PricedGraph

variable {priced : PricedGraph} {placement : Placement} {position device : Nat}

/-- An input can fail to be added only because one of the two parts gets out of range. -/
theorem Closed.addInput_eq_error (h : priced.Closed) {producer : Nat} {traffic : Traffic}
    {fault : Fault} (hp : producer < priced.size) (hl : placement.devices.length = priced.size)
    (herror : priced.addInput placement device traffic producer = .error fault) :
    fault = .addition ∧
      ¬ (Fits (traffic.external.toInt +
          Arrivals.outer (shipment? priced.size? placement.site producer).toList device) ∧
        Fits (traffic.internal.toInt +
          Arrivals.inner (shipment? priced.size? placement.site producer).toList device)) := by
  obtain ⟨cost, hcost⟩ := h.returns_cost hp
  have hdevice : placement.device producer = .ok (placement.site producer) :=
    Placement.device_eq_ok_iff.2 ⟨hl ▸ hp, rfl⟩
  rw [addInput, hcost, hdevice] at herror
  rw [shipment?, size?, cost_eq_ok hcost]
  -- Nothing is added, and so nothing fails, without a cost or without a device.
  cases cost with
  | none => cases herror
  | some cost =>
    cases hsite : placement.site producer with
    | none => rw [hsite] at herror; cases herror
    | some source => rw [hsite] at herror; exact Traffic.add_eq_error herror

/-- The inputs of a traffic that was computed fit. -/
theorem inputsFit_of_traffic {traffic : Traffic}
    (h : priced.traffic placement position device = .ok traffic) :
    priced.InputsFit placement position device := by
  obtain ⟨cost, _, h⟩ := bind_eq_ok.1 h
  obtain ⟨inputs, hinputs, h⟩ := bind_eq_ok.1 h
  intro done hdone
  rw [inputs_eq_ok hinputs, List.mem_inits] at hdone
  obtain ⟨rest, rfl⟩ := hdone
  obtain ⟨middle, hmiddle, _⟩ := foldlM_append_eq_ok.1 h
  have hgrown := foldlM_addInput_eq_ok hmiddle
  have hexternal := hgrown.external
  have hinternal := hgrown.internal
  rw [Int64.toInt_zero, zero_add] at hexternal hinternal
  rw [← hexternal, ← hinternal]
  exact ⟨fits_toInt _, fits_toInt _⟩

/-- A node has no traffic only because an addition fails, and then its inputs do not fit. -/
theorem Closed.traffic_eq_error (h : priced.Closed) (hp : position < priced.size)
    (hl : placement.devices.length = priced.size) {fault : Fault}
    (herror : priced.traffic placement position device = .error fault) :
    fault = .addition ∧ ¬ priced.InputsFit placement position device := by
  obtain ⟨cost, hcost⟩ := h.returns_computeCost hp
  obtain ⟨inputs, hinputs⟩ := h.returns_inputs hp
  rw [traffic, hcost, hinputs] at herror
  -- The first producer at which an addition fails comes after some that were added.
  obtain ⟨done, producer, middle, hdone, hmiddle, hadd⟩ := foldlM_eq_error_iff.1 herror
  rw [← inputs_eq_ok hinputs] at hdone
  have hlt := h.producer_lt position producer (mem_of_prefix_concat hdone)
  have hgrown := foldlM_addInput_eq_ok hmiddle
  obtain ⟨hfault, hnot⟩ := h.addInput_eq_error hlt hl hadd
  refine ⟨hfault, fun hfits => hnot ?_⟩
  have hfits := hfits _ ((List.mem_inits _ _).2 hdone)
  have happend : DevicePlacement.arrivals priced.size? placement.site (done ++ [producer]) =
      DevicePlacement.arrivals priced.size? placement.site done ++
        (shipment? priced.size? placement.site producer).toList := by
    rw [DevicePlacement.arrivals, List.filterMap_append, ← DevicePlacement.arrivals,
      ← DevicePlacement.arrivals, arrivals_cons]
    exact congrArg _ (List.append_nil _)
  rwa [happend, Arrivals.outer_append, Arrivals.inner_append, ← zero_add (Arrivals.outer _ device),
    ← zero_add (Arrivals.inner _ device), ← Int64.toInt_zero, ← hgrown.external,
    ← hgrown.internal] at hfits

/-- There is a traffic exactly if the inputs fit. -/
theorem Closed.returns_traffic_iff (h : priced.Closed) (hp : position < priced.size)
    (hl : placement.devices.length = priced.size) :
    Returns (priced.traffic placement position device) ↔
      priced.InputsFit placement position device := by
  refine ⟨fun hreturns => inputsFit_of_traffic hreturns.choose_spec, fun hfits => ?_⟩
  cases htraffic : priced.traffic placement position device with
  | error fault => exact absurd hfits (h.traffic_eq_error hp hl htraffic).2
  | ok traffic => exact ⟨traffic, rfl⟩

/-- What holds of the traffic of a node on whatever device. -/
structure Conserves (priced : PricedGraph) (placement : Placement) (position : Nat) : Prop where
  /-- Its two parts come to the same everywhere. -/
  sum : ∀ device traffic, priced.traffic placement position device = .ok traffic →
    traffic.external.toInt + traffic.internal.toInt = priced.intake placement position
  /-- Deltas compare as the external traffic does. -/
  compare : ∀ device other here there delta delta',
    priced.traffic placement position device = .ok here →
    priced.traffic placement position other = .ok there →
    here.delta = .ok delta → there.delta = .ok delta' →
      delta.toInt - delta'.toInt = 2 * (here.external.toInt - there.external.toInt) ∧
        (delta.toInt < delta'.toInt ↔ here.external.toInt < there.external.toInt)
  /-- Assigning the node to a device does not change it, unless the node is one of its own
      producers. -/
  assign : position ∉ priced.producersOf position → ∀ target moved,
    placement.assign position target = .ok moved → ∀ device,
      priced.traffic moved position device = priced.traffic placement position device
  /-- For a node of the graph there is one unless an addition fails, which is when the inputs do
      not fit; and the node can be assigned to any device. -/
  returns : position < priced.size → placement.devices.length = priced.size → ∀ device,
    (Returns (priced.traffic placement position device) ↔
      priced.InputsFit placement position device) ∧
    (∀ fault, priced.traffic placement position device = .error fault → fault = .addition) ∧
    Returns (placement.assign position device)

/-- All this holds of every position and every device. -/
theorem Closed.conserves (h : priced.Closed) (placement : Placement) (position : Nat) :
    priced.Conserves placement position where
  sum device traffic htraffic := external_add_internal htraffic
  compare device other here there delta delta' hhere hthere hdelta hdelta' := by
    have hsum := external_add_internal hhere
    have hsum' := external_add_internal hthere
    rw [Traffic.delta_eq_ok hdelta, Traffic.delta_eq_ok hdelta', Traffic.gap, Traffic.gap]
    omega
  assign hself target moved hmoved := by
    obtain ⟨_, hlength, hsite⟩ := Placement.assign_eq_ok hmoved
    exact traffic_update hself hlength hsite
  returns hp hl device := by
    refine ⟨h.returns_traffic_iff hp hl, fun fault herror => ?_,
      Placement.returns_assign (hl ▸ hp) device⟩
    exact (h.traffic_eq_error hp hl herror).1

end PricedGraph

end DevicePlacement

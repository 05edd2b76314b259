import DevicePlacement.Placement.Balance
import DevicePlacement.Proofs.Placement.Traffic
import Mathlib.Tactic.Abel

/-!
# Loads in exact integers

The loads of a balance are a table with one row per device, read here by
`loadOf`. Adding a node raises one row and the total (`add_eq_ok`); a move lowers
one row and raises another, so that the sum of the rows stays what it was
(`apply_eq_ok`).

What makes a share good is the `Scale` of the balance, which moves leave alone.
A considered move is beneficial exactly if it lowers the delta and both devices
stay near their ideal share (`isBeneficial_eq_ok`).
-/

namespace DevicePlacement

/-- What shares are measured against. -/
structure Scale where
  /-- All loads together. -/
  total : Int
  /-- The share that each device should have. -/
  idealShare : Float
  /-- How far a share may be from the ideal one. -/
  margin : Float

namespace Scale

/-- The share of a load. Without any load every share is ideal. -/
def share (scale : Scale) (load : Int) : Float :=
  if scale.total = 0 then scale.idealShare else Float.ofInt load / Float.ofInt scale.total

/-- Whether the share of a load is within the margin of the ideal one. -/
def isNear (scale : Scale) (load : Int) : Bool :=
  (scale.share load - scale.idealShare).abs ≤ scale.margin + Balance.tolerance

end Scale

namespace Balance

open Checked

variable {balance next : Balance} {device : Nat}

/-- What the balance measures shares against. -/
def scale (balance : Balance) : Scale :=
  ⟨balance.total.toInt, balance.idealShare, balance.margin⟩

/-- The load of a device. -/
def loadOf (balance : Balance) (device : Nat) : Int :=
  (balance.loads[device]?.map Int64.toInt).getD 0

/-- The loads of all devices together. -/
def sum (balance : Balance) : Int :=
  (balance.loads.map Int64.toInt).sum

/-- Only a device with a row has a load. -/
theorem load_eq_ok {load : Int64} (h : balance.load device = .ok load) :
    device < balance.loads.length ∧ load.toInt = balance.loadOf device := by
  rw [Balance.load, row_eq_ok_iff] at h
  exact ⟨(List.getElem?_eq_some_iff.1 h).1, by rw [loadOf, h, Option.map_some, Option.getD_some]⟩

/-- The share that a load would be is told by the scale of the balance. -/
theorem shareOf_eq (balance : Balance) (load : Int64) :
    balance.shareOf load = balance.scale.share load.toInt := by
  rw [shareOf, Scale.share]
  exact if_congr (by rw [scale, ← Int64.toInt_zero, Int64.toInt_inj]) rfl rfl

/-- Whether a load is near the average is told by the scale, too. -/
theorem isWithinMargin_eq (balance : Balance) (load : Int64) :
    balance.isWithinMargin load = balance.scale.isNear load.toInt := by
  rw [isWithinMargin, shareOf_eq]
  rfl

/-- The share that is given for a device is that of its load. -/
theorem share_eq_ok {share : Float} (h : balance.share device = .ok share) :
    share = balance.scale.share (balance.loadOf device) := by
  obtain ⟨load, hload, h⟩ := bind_eq_ok.1 h
  rw [pure_eq_ok] at h
  rw [← h, shareOf_eq, (load_eq_ok hload).2]

/-! ## Rows -/

/-- A row that is set changes the load of its own device and of no other. -/
theorem loadOf_set (balance : Balance) (hd : device < balance.loads.length) (load : Int64)
    (other : Nat) :
    loadOf { balance with loads := balance.loads.set device load } other =
      if other = device then load.toInt else balance.loadOf other := by
  rw [loadOf, List.getElem?_set]
  by_cases ho : device = other
  · subst ho
    rw [if_pos rfl, if_pos rfl, if_pos hd, Option.map_some, Option.getD_some]
  · rw [if_neg ho, if_neg (Ne.symm ho), loadOf]

/-- The sum of all loads changes by as much as the row that is set. -/
theorem sum_set (balance : Balance) (hd : device < balance.loads.length) (load : Int64) :
    sum { balance with loads := balance.loads.set device load } =
      balance.sum - balance.loadOf device + load.toInt := by
  have hd' : device < (balance.loads.map Int64.toInt).length := by rwa [List.length_map]
  rw [sum, List.map_set, List.sum_set', dif_pos hd', List.getElem_map, sum, loadOf,
    List.getElem?_eq_getElem hd, Option.map_some, Option.getD_some]
  abel

/-! ## Adding nodes -/

/-- A balance that a node was added to. -/
structure Added (device : Nat) (cost : Int) (balance next : Balance) : Prop where
  length : next.loads.length = balance.loads.length
  loadOf : ∀ other, next.loadOf other = balance.loadOf other + if other = device then cost else 0
  sum : next.sum = balance.sum + cost
  scale : next.scale = { balance.scale with total := balance.scale.total + cost }

/-- An addition that succeeds has not wrapped around: it adds the cost as an integer. -/
theorem add_eq_ok {cost : Int64} (h : balance.add device cost = .ok next) :
    Added device cost.toInt balance next := by
  obtain ⟨load, hload, h⟩ := bind_eq_ok.1 h
  obtain ⟨raised, hraised, h⟩ := bind_eq_ok.1 h
  obtain ⟨loads, hloads, h⟩ := bind_eq_ok.1 h
  obtain ⟨total, htotal, h⟩ := bind_eq_ok.1 h
  rw [pure_eq_ok] at h
  subst h
  obtain ⟨hd, rfl⟩ := setRow_eq_ok_iff.1 hloads
  have hraise : raised.toInt = balance.loadOf device + cost.toInt := by
    rw [plus_eq_ok_iff.1 hraised, (load_eq_ok hload).2]
  refine ⟨List.length_set, fun other => ?_, ?_, ?_⟩
  · -- The row of the device was raised, and the others were not set.
    refine (loadOf_set balance hd raised other).trans ?_
    by_cases ho : other = device
    · rw [if_pos ho, if_pos ho, hraise, ho]
    · rw [if_neg ho, if_neg ho, add_zero]
  · refine (sum_set balance hd raised).trans ?_
    rw [hraise]
    abel
  · rw [Balance.scale, Balance.scale, plus_eq_ok_iff.1 htotal]

/-! ## Moves -/

/-- A balance after a move of a node of the given compute cost. -/
structure Moved (origin destination : Nat) (cost : Int) (balance next : Balance) : Prop where
  length : next.loads.length = balance.loads.length
  loadOf : ∀ other, next.loadOf other =
    balance.loadOf other - (if other = origin then cost else 0) +
      if other = destination then cost else 0
  sum : next.sum = balance.sum
  scale : next.scale = balance.scale

/-- A move that succeeds takes the cost from one device and gives it to the other, in integers. -/
theorem apply_eq_ok {move : Relocation} (h : balance.apply move = .ok next) :
    Moved move.origin move.destination move.computeCost.toInt balance next := by
  obtain ⟨load, hload, h⟩ := bind_eq_ok.1 h
  obtain ⟨lowered, hlowered, h⟩ := bind_eq_ok.1 h
  obtain ⟨loads, hloads, h⟩ := bind_eq_ok.1 h
  obtain ⟨hd, rfl⟩ := setRow_eq_ok_iff.1 hloads
  obtain ⟨load', hload', h⟩ := bind_eq_ok.1 h
  obtain ⟨raised, hraised, h⟩ := bind_eq_ok.1 h
  obtain ⟨loads, hloads, h⟩ := bind_eq_ok.1 h
  obtain ⟨hd', rfl⟩ := setRow_eq_ok_iff.1 hloads
  rw [pure_eq_ok] at h
  subst h
  -- The balance between the two writes: the node has left, and is nowhere yet.
  let middle : Balance := { balance with loads := balance.loads.set move.origin lowered }
  have hlow : lowered.toInt = balance.loadOf move.origin - move.computeCost.toInt := by
    rw [minus_eq_ok_iff.1 hlowered, (load_eq_ok hload).2]
  have hload' : middle.load move.destination = .ok load' := hload'
  have hraise : raised.toInt = middle.loadOf move.destination + move.computeCost.toInt := by
    rw [plus_eq_ok_iff.1 hraised, (load_eq_ok hload').2]
  have hmiddle (other : Nat) :
      middle.loadOf other = balance.loadOf other -
        if other = move.origin then move.computeCost.toInt else 0 := by
    refine (loadOf_set balance hd lowered other).trans ?_
    by_cases ho : other = move.origin
    · rw [if_pos ho, if_pos ho, hlow, ho]
    · rw [if_neg ho, if_neg ho, sub_zero]
  refine ⟨by rw [List.length_set, List.length_set], fun other => ?_, ?_, rfl⟩
  · refine (loadOf_set middle hd' raised other).trans ?_
    rw [← hmiddle]
    by_cases ho : other = move.destination
    · rw [if_pos ho, if_pos ho, hraise, ho]
    · rw [if_neg ho, if_neg ho, add_zero]
  · calc _ = middle.sum - middle.loadOf move.destination + raised.toInt :=
          sum_set middle hd' raised
      _ = balance.sum - balance.loadOf move.origin + lowered.toInt +
          move.computeCost.toInt := by
          rw [hraise, show middle.sum = _ from sum_set balance hd lowered]
          abel
      _ = balance.sum := by
          rw [hlow]
          abel

/-! ## Beneficial moves -/

/-- A considered move is beneficial exactly if it lowers the delta and both
    devices stay near their ideal share. -/
theorem isBeneficial_eq_ok {move : Relocation} {answer : Bool}
    (h : balance.isBeneficial move = .ok answer) :
    answer = (decide (move.after.gap < move.before.gap) &&
      balance.scale.isNear (balance.loadOf move.origin - move.computeCost.toInt) &&
      balance.scale.isNear (balance.loadOf move.destination + move.computeCost.toInt)) := by
  -- The three tests come one after another, and the first that fails decides.
  obtain ⟨after, hafter, h⟩ := bind_eq_ok.1 h
  obtain ⟨before, hbefore, h⟩ := bind_eq_ok.1 h
  rw [← Traffic.delta_eq_ok hafter, ← Traffic.delta_eq_ok hbefore]
  split at h
  · next hle =>
    rw [← pure_eq_ok.1 h, decide_eq_false (Int.not_lt.2 hle), Bool.false_and, Bool.false_and]
  next hlt =>
  obtain ⟨load, hload, h⟩ := bind_eq_ok.1 h
  obtain ⟨origin, horigin, h⟩ := bind_eq_ok.1 h
  have horigin' : origin.toInt = balance.loadOf move.origin - move.computeCost.toInt := by
    rw [minus_eq_ok_iff.1 horigin, (load_eq_ok hload).2]
  rw [decide_eq_true (Int.not_le.1 hlt), Bool.true_and, ← horigin', ← isWithinMargin_eq]
  split at h
  · next hfar =>
    rw [Bool.not_eq_true'] at hfar
    rw [← pure_eq_ok.1 h, hfar, Bool.false_and]
  next hnear =>
  obtain ⟨load', hload', h⟩ := bind_eq_ok.1 h
  obtain ⟨destination, hdestination, h⟩ := bind_eq_ok.1 h
  have hdestination' : destination.toInt =
      balance.loadOf move.destination + move.computeCost.toInt := by
    rw [plus_eq_ok_iff.1 hdestination, (load_eq_ok hload').2]
  rw [Bool.not_eq_true', Bool.not_eq_false] at hnear
  rw [← pure_eq_ok.1 h, hnear, Bool.true_and, ← hdestination', ← isWithinMargin_eq]

/-! ## Devices without load -/

/-- In the beginning all loads are zero. -/
theorem loadOf_ofDevices (devices inventory : Nat) (margin : Float) (device : Nat) :
    (ofDevices devices inventory margin).loadOf device = 0 := by
  rw [loadOf, ofDevices, List.getElem?_replicate]
  split
  · rw [Option.map_some, Option.getD_some, Int64.toInt_zero]
  · rfl

/-- So is their sum. -/
theorem sum_ofDevices (devices inventory : Nat) (margin : Float) :
    (ofDevices devices inventory margin).sum = 0 := by
  rw [sum, ofDevices, List.map_replicate, Int64.toInt_zero]
  exact List.sum_eq_zero fun _ h => List.eq_of_mem_replicate h

end Balance

end DevicePlacement

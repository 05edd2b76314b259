import DevicePlacement.Proofs.Sweep.Safety

/-!
# Loads add up

Calls add nodes to a balance and move them (`Balance.Call`). Each of them changes the loads and
the total alike, so after any calls that return the loads add up to the total
(`Balance.sum_of_after`). The check that they do adds them up once more, from the first device
on. It cannot find anything amiss, then, but it may not come to an end: the total has grown with
the calls and was in range after each of them, while the check goes through other sums, and as
costs can be negative, these need not fit.

* `Checked.exists_perm_partialSumsFit`: numbers whose sum fits can be added up in some order;
* `Checked.partialSumsFit_perm_iff`: they can be added up in every order exactly if the sum of
  those above zero fits, and the sum of those below zero;
* `Balance.addsUp_of_after`: what the check finds after any calls, for this order of the devices
  and for the others;
* `Sweep.Task.returns_run_iff`: a sweep that has come to its check returns exactly if the loads
  can be added up there.

So the check can stop a sweep although all loads are right (`Balance.isConserved_can_fault`).
-/

namespace DevicePlacement

/-! ## Orders of addition -/

namespace Checked

variable {numbers : List Int64} {keep : Int64 → Bool}

/-- The numbers that are kept, added up. -/
def keptSum (keep : Int64 → Bool) (numbers : List Int64) : Int :=
  ((numbers.filter keep).map Int64.toInt).sum

theorem keptSum_cons (number : Int64) (numbers : List Int64) :
    keptSum keep (number :: numbers) =
      (if keep number then number.toInt else 0) + keptSum keep numbers := by
  rw [keptSum, List.filter_cons]
  split
  · rw [List.map_cons, List.sum_cons, keptSum]
  · rw [zero_add, keptSum]

/-- If all numbers are kept, it is their sum. -/
theorem keptSum_of_forall (h : ∀ number ∈ numbers, keep number = true) :
    keptSum keep numbers = (numbers.map Int64.toInt).sum := by
  rw [keptSum, List.filter_eq_self.2 h]

/-- The order of the numbers does not matter to it. -/
theorem keptSum_of_perm {order : List Int64} (h : order.Perm numbers) :
    keptSum keep order = keptSum keep numbers :=
  ((h.filter keep).map Int64.toInt).sum_eq

/-- The numbers above zero, added up. -/
def positiveSum (numbers : List Int64) : Int :=
  keptSum (fun number => 0 < number.toInt) numbers

/-- The numbers below zero, added up. -/
def negativeSum (numbers : List Int64) : Int :=
  keptSum (fun number => number.toInt < 0) numbers

/-- Whichever of the numbers are added up, their sum is between those of one sign. -/
theorem sum_bounds_of_sublist {part : List Int64} (h : part.Sublist numbers) :
    negativeSum numbers ≤ (part.map Int64.toInt).sum ∧
      (part.map Int64.toInt).sum ≤ positiveSum numbers := by
  rw [negativeSum, positiveSum]
  induction h with
  | slnil => exact ⟨le_rfl, le_rfl⟩
  | cons number _ ih =>
    simp only [keptSum_cons, decide_eq_true_eq]
    omega
  | cons_cons number _ ih =>
    simp only [keptSum_cons, decide_eq_true_eq, List.map_cons, List.sum_cons]
    omega

/-- Numbers can be added up in every order exactly if the sums of one sign fit. -/
theorem partialSumsFit_perm_iff : (∀ order, order.Perm numbers → PartialSumsFit order) ↔
    Fits (positiveSum numbers) ∧ Fits (negativeSum numbers) := by
  constructor
  · intro h
    -- Any of the numbers can come first, and their sum is one of those on the way.
    have hfirst (keep : Int64 → Bool) : Fits (keptSum keep numbers) :=
      h _ (List.filter_append_perm keep numbers) _
        ((List.mem_inits _ _).2 (List.prefix_append _ _))
    exact ⟨hfirst _, hfirst _⟩
  · rintro ⟨hpositive, hnegative⟩ order hperm done hdone
    obtain ⟨hlower, hupper⟩ := sum_bounds_of_sublist ((List.mem_inits _ _).1 hdone).sublist
    have hpos : positiveSum order = positiveSum numbers := keptSum_of_perm hperm
    have hneg : negativeSum order = negativeSum numbers := keptSum_of_perm hperm
    exact ⟨hnegative.1.trans (hneg ▸ hlower), (hpos ▸ hupper).trans hpositive.2⟩

/-- On the way from one number that fits to another, one of the steps that are left can be
    taken. -/
theorem exists_fits_add {start : Int} (hne : numbers ≠ []) (hstart : Fits start)
    (hend : Fits (start + (numbers.map Int64.toInt).sum)) :
    ∃ number ∈ numbers, Fits (start + number.toInt) := by
  obtain ⟨first, hfirst⟩ := List.exists_mem_of_ne_nil numbers hne
  obtain ⟨hlower, hupper⟩ := sum_bounds_of_sublist (List.singleton_sublist.2 hfirst)
  rw [List.map_singleton, List.sum_singleton] at hlower hupper
  have hfits (number : Int64) := fits_toInt number
  simp only [Fits] at hstart hend hfits ⊢
  rcases Int.le_total 0 start with hs | hs
  · by_cases hback : ∃ number ∈ numbers, number.toInt ≤ 0
    · -- A step back towards zero never leads out of range.
      obtain ⟨number, hnumber, hn⟩ := hback
      have hnumber' := hfits number
      exact ⟨number, hnumber, by omega⟩
    · -- All steps lead up to the end, so none leads beyond it.
      push Not at hback
      rw [positiveSum, keptSum_of_forall (by simpa using hback)] at hupper
      have hup := hback first hfirst
      exact ⟨first, hfirst, by omega⟩
  · -- Below zero it is the same the other way round.
    by_cases hback : ∃ number ∈ numbers, 0 ≤ number.toInt
    · obtain ⟨number, hnumber, hn⟩ := hback
      have hnumber' := hfits number
      exact ⟨number, hnumber, by omega⟩
    · push Not at hback
      rw [negativeSum, keptSum_of_forall (by simpa using hback)] at hlower
      have hdown := hback first hfirst
      exact ⟨first, hfirst, by omega⟩

/-- Numbers whose sum fits can be put in an order in which every sum on the way fits, too. -/
theorem exists_perm_fits {start : Int} (hstart : Fits start)
    (hend : Fits (start + (numbers.map Int64.toInt).sum)) :
    ∃ order : List Int64, order.Perm numbers ∧
      ∀ done, done <+: order → Fits (start + (done.map Int64.toInt).sum) := by
  -- One step at a time: after each, the start is another number, with the same end.
  induction hlength : numbers.length generalizing start numbers with
  | zero =>
    refine ⟨[], by rw [List.length_eq_zero_iff.1 hlength], fun done hdone => ?_⟩
    rw [List.prefix_nil.1 hdone, List.map_nil, List.sum_nil, add_zero]
    exact hstart
  | succ length ih =>
    have hne : numbers ≠ [] := List.ne_nil_of_length_eq_add_one hlength
    obtain ⟨number, hnumber, hfits⟩ := exists_fits_add hne hstart hend
    have hperm : numbers.Perm (number :: numbers.erase number) := List.perm_cons_erase hnumber
    have hend' : Fits (start + number.toInt + ((numbers.erase number).map Int64.toInt).sum) := by
      rwa [(hperm.map Int64.toInt).sum_eq, List.map_cons, List.sum_cons, ← add_assoc] at hend
    have hlength' : (numbers.erase number).length = length := by
      rw [List.length_erase_of_mem hnumber, hlength, Nat.add_sub_cancel]
    obtain ⟨order, horder, hall⟩ := ih hfits hend' hlength'
    refine ⟨number :: order, (horder.cons number).trans hperm.symm, fun done hdone => ?_⟩
    cases done with
    | nil => rwa [List.map_nil, List.sum_nil, add_zero]
    | cons first done =>
      obtain ⟨rfl, hrest⟩ := List.cons_prefix_cons.1 hdone
      rw [List.map_cons, List.sum_cons, ← add_assoc]
      exact hall done hrest

/-- Numbers whose sum fits can be added up in some order. -/
theorem exists_perm_partialSumsFit (h : Fits (numbers.map Int64.toInt).sum) :
    ∃ order : List Int64, order.Perm numbers ∧ PartialSumsFit order := by
  obtain ⟨order, hperm, hall⟩ :=
    exists_perm_fits (fits_toInt 0) (by rwa [Int64.toInt_zero, zero_add])
  refine ⟨order, hperm, fun done hdone => ?_⟩
  have hfits := hall done ((List.mem_inits _ _).1 hdone)
  rwa [Int64.toInt_zero, zero_add] at hfits

end Checked

open Checked

namespace Balance

/-! ## Calls -/

/-- What can be done to a balance. -/
inductive Call
  /-- A node is added. -/
  | add (device : Nat) (computeCost : Int64)
  /-- A node is moved. -/
  | apply (move : Relocation)

/-- The balance after a call. -/
def make (balance : Balance) : Call → Except Fault Balance
  | .add device computeCost => balance.add device computeCost
  | .apply move => balance.apply move

/-- What becomes of devices without load by calls, one after the other. -/
def after (devices inventory : Nat) (margin : Float) (calls : List Call) :
    Except Fault Balance :=
  calls.foldlM make (ofDevices devices inventory margin)

variable {balance next : Balance} {devices inventory : Nat} {margin : Float} {call : Call}
  {calls : List Call}

/-- A call changes the loads and the total alike. -/
theorem sum_of_make (h : balance.make call = .ok next)
    (hsum : balance.sum = balance.total.toInt) : next.sum = next.total.toInt := by
  cases call with
  | add device cost =>
    have hadded := add_eq_ok h
    calc next.sum = balance.sum + cost.toInt := hadded.sum
      _ = balance.total.toInt + cost.toInt := by rw [hsum]
      _ = next.total.toInt := (congrArg Scale.total hadded.scale).symm
  | apply move =>
    have hmoved := apply_eq_ok h
    calc next.sum = balance.sum := hmoved.sum
      _ = balance.total.toInt := hsum
      _ = next.total.toInt := (congrArg Scale.total hmoved.scale).symm

/-- After any calls, the loads add up to the total. -/
theorem sum_of_after (h : after devices inventory margin calls = .ok balance) :
    balance.sum = balance.total.toInt :=
  foldlM_keeps (P := fun balance => balance.sum = balance.total.toInt)
    (fun _ _ _ _ hsum hmake => sum_of_make hmake hsum) (sum_ofDevices devices inventory margin) h

/-! ## The check -/

/-- The loads add up to the total, and the check finds that they do if it can add them up. -/
structure AddsUp (balance : Balance) : Prop where
  sum : balance.sum = balance.total.toInt
  isConserved : balance.isConserved =
    if PartialSumsFit balance.loads then .ok true else .error .addition
  /-- The order of the devices does not matter exactly if the sums of one sign fit. -/
  everyOrder : (∀ loads, loads.Perm balance.loads →
      { balance with loads := loads }.isConserved = .ok true) ↔
    Fits (positiveSum balance.loads) ∧ Fits (negativeSum balance.loads)
  someOrder : ∃ loads, loads.Perm balance.loads ∧
    { balance with loads := loads }.isConserved = .ok true

/-- In another order of the devices, the check finds that the loads add up if it can add them up
    in that order. -/
theorem isConserved_of_perm {loads : List Int64} (hsum : balance.sum = balance.total.toInt)
    (hperm : loads.Perm balance.loads) :
    { balance with loads := loads }.isConserved = .ok true ↔ PartialSumsFit loads := by
  have hloads : { balance with loads := loads }.sum = balance.total.toInt :=
    (hperm.map Int64.toInt).sum_eq.trans hsum
  rw [isConserved_eq_ite hloads]
  split_ifs with hfits <;> simp [hfits]

/-- It is enough that the loads and the total agree as integers. -/
theorem addsUp_of_sum (hsum : balance.sum = balance.total.toInt) : balance.AddsUp where
  sum := hsum
  isConserved := isConserved_eq_ite hsum
  everyOrder := by
    rw [← partialSumsFit_perm_iff]
    exact forall₂_congr fun _ hperm => isConserved_of_perm hsum hperm
  someOrder := by
    obtain ⟨loads, hperm, hfits⟩ := exists_perm_partialSumsFit (hsum ▸ fits_toInt balance.total)
    exact ⟨loads, hperm, (isConserved_of_perm hsum hperm).2 hfits⟩

/-- After any calls, the check finds that the loads add up to the total, unless a sum of the
    first loads does not fit. -/
theorem addsUp_of_after (h : after devices inventory margin calls = .ok balance) :
    balance.AddsUp :=
  addsUp_of_sum (sum_of_after h)

/-- A move of a node that has no traffic. -/
def transfer (computeCost : Int64) (origin destination : Nat) : Relocation :=
  ⟨computeCost, ⟨computeCost, 0, 0⟩, ⟨computeCost, 0, 0⟩, origin, destination⟩

/-- The check finds that the loads add up, which it would not for every order of the devices. -/
theorem addsUp_of_after_transfer : ∃ balance,
    after 3 3 1 [.add 0 Int64.maxValue, .apply (transfer 1 1 2)] = .ok balance ∧
      balance.loads = [Int64.maxValue, -1, 1] ∧ balance.isConserved = .ok true ∧
      ¬ ∀ loads, loads.Perm balance.loads →
        { balance with loads := loads }.isConserved = .ok true := by
  have h : (after 3 3 1 [.add 0 Int64.maxValue, .apply (transfer 1 1 2)]).toOption.map loads =
      some [Int64.maxValue, -1, 1] := by
    decide +kernel
  obtain ⟨balance, hafter, hloads⟩ := exists_ok_of_toOption h
  have haddsUp := addsUp_of_after hafter
  refine ⟨balance, hafter, hloads, ?_, ?_⟩
  · rw [haddsUp.isConserved, hloads, if_pos (by decide +kernel)]
  · rw [haddsUp.everyOrder, hloads]
    decide +kernel

/-- The check stops although the loads add up to the total: the sum of the first two does not
    fit. -/
theorem isConserved_can_fault : ∃ balance,
    after 3 3 1 [.add 0 Int64.maxValue, .add 2 (-1), .add 1 1] = .ok balance ∧
      balance.sum = balance.total.toInt ∧ balance.isConserved = .error .addition := by
  have h : (after 3 3 1 [.add 0 Int64.maxValue, .add 2 (-1), .add 1 1]).toOption.map loads =
      some [Int64.maxValue, 1, -1] := by
    decide +kernel
  obtain ⟨balance, hafter, hloads⟩ := exists_ok_of_toOption h
  have hsum := sum_of_after hafter
  refine ⟨balance, hafter, hsum, ?_⟩
  rw [isConserved_eq_ite hsum, hloads, if_neg (by decide +kernel)]

end Balance

/-! ## Sweeps -/

namespace Sweep.Task

variable {task : Task} {before : Balance} {final : State}

/-- All balances that a sweep goes through add up. -/
theorem Passes.addsUp {balance : Balance} (h : task.Passes balance) : balance.AddsUp := by
  obtain ⟨site, haccounts⟩ := h.accounts
  exact Balance.addsUp_of_sum (haccounts.sum.trans haccounts.total_eq.symm)

/-- A sweep that has come to its check returns exactly if the loads can be added up there, and
    otherwise stops there. -/
theorem returns_run_iff (hbefore : task.opening = .ok before)
    (hexternal : Returns (task.sweep.priced.totalExternal task.placement))
    (hfinal : task.sweep.visitAll ⟨task.placement, before, [], 0⟩ task.positions = .ok final)
    (hexternal' : Returns (task.sweep.priced.totalExternal final.placement)) :
    (Returns task.run ↔ PartialSumsFit final.balance.loads) ∧
      (task.run = .error .addition ↔ ¬ PartialSumsFit final.balance.loads) := by
  have hafter : task.after task.positions = .ok final := bind_eq_ok.2 ⟨before, hbefore, hfinal⟩
  -- All phases but the check at the end are known to return.
  have hcheck := (Passes.between List.prefix_rfl hafter).addsUp.isConserved
  by_cases hfits : PartialSumsFit final.balance.loads
  · rw [if_pos hfits] at hcheck
    obtain ⟨result, hresult⟩ :=
      returns_run_of_conserved hbefore hexternal hfinal hexternal' hcheck
    simp [hresult, hfits, Returns]
  · rw [if_neg hfits] at hcheck
    obtain ⟨externalBefore, hexternal⟩ := hexternal
    obtain ⟨externalAfter, hexternal'⟩ := hexternal'
    have hrun : task.run = .error .addition := by
      refine bind_eq_error.2 (.inr ⟨before, hbefore, ?_⟩)
      refine bind_eq_error.2 (.inr ⟨externalBefore, hexternal, ?_⟩)
      refine bind_eq_error.2 (.inr ⟨final, hfinal, ?_⟩)
      refine bind_eq_error.2 (.inr ⟨externalAfter, hexternal', ?_⟩)
      exact bind_eq_error.2 (.inl hcheck)
    simp [hrun, hfits, Returns]

/-- Three nodes that stay where they are. Added up in the order of the graph, their compute costs
    fit. -/
def teetering (devices : List String) : Task where
  catalog := OpRegistry.standard.catalog
  knobs := Knobs.alwaysOptimize
  graph := .ofNodes [⟨"a", "MatMul", "dev0", []⟩, ⟨"b", "MatMul", "dev2", []⟩,
    ⟨"c", "MatMul", "dev1", []⟩]
  devices := devices
  estimate := ⟨.ofList [("a", .ofCompute Int64.maxValue 0), ("b", .ofCompute (-1) 0),
    ("c", .ofCompute 1 0)], .zero⟩

-- Only in one of the two orders do the devices have loads that fit when they are added up.
example : (teetering ["dev0", "dev2", "dev1"]).run.toOption.isSome ∧
    (teetering ["dev0", "dev1", "dev2"]).run.toOption.isNone := by
  decide +kernel

end Sweep.Task

end DevicePlacement

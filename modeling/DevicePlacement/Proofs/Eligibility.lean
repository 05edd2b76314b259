import DevicePlacement.Eligibility

/-!
# Which nodes are eligible

A node is eligible exactly if nothing stands in its way (`isEligible_iff`): its
op type is known, holds no state and may move, and the node is on a device, which
under the strict policy is not pinned.
-/

namespace DevicePlacement.Eligibility

variable {eligibility : Eligibility} {node : Node}

/-- The op type of a node is known, holds no state and is one that may move. -/
def Movable (eligibility : Eligibility) (op : String) : Prop :=
  (∃ traits, eligibility.catalog op = some traits ∧ traits.isStateful = false) ∧
    eligibility.isRelocatable op = true

/-- The obstacles are looked for one after the other, and there is none exactly if all of this
    holds. -/
theorem isEligible_iff : eligibility.isEligible node = true ↔
    eligibility.Movable node.op ∧ node.isAssigned = true ∧
      (eligibility.policy = .strict → eligibility.pinned.isPinned node.device = false) := by
  rw [isEligible, obstacle?, Movable]
  cases hop : eligibility.catalog node.op with
  | none => simp
  | some traits =>
    cases hs : traits.isStateful <;> cases hr : eligibility.isRelocatable node.op <;>
      cases ha : node.isAssigned <;> simp [hs]

end DevicePlacement.Eligibility

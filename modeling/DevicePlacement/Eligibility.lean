import DevicePlacement.Cluster.Basic
import DevicePlacement.Graph.Basic
import DevicePlacement.Knobs.Basic
import DevicePlacement.OpRegistry

/-!
# Eligible nodes

Only some nodes may be moved: their op type must be known, hold no state and be
one of the relocatable ones, and they must be assigned to a device, which under
the strict policy must not be pinned. `Eligibility.obstacle?` names the first of
these conditions that a node fails.
-/

namespace DevicePlacement

/-- Why a node is not eligible. -/
inductive Obstacle
  /-- Nothing is known about its op type. -/
  | unknownOp
  /-- Its op type holds state. -/
  | stateful
  /-- Its op type is not one that may move. -/
  | notRelocatable
  /-- It is not assigned to a device. -/
  | unassigned
  /-- It is on a pinned device. -/
  | pinnedDevice
  deriving DecidableEq, Repr

/-- The name of an obstacle. -/
def Obstacle.name : Obstacle → String
  | .unknownOp => "unknown-op"
  | .stateful => "stateful"
  | .notRelocatable => "not-relocatable"
  | .unassigned => "unassigned"
  | .pinnedDevice => "pinned-device"

/-- What decides whether a node is eligible. -/
structure Eligibility where
  /-- What is known about the op types. -/
  catalog : OpCatalog
  /-- Which op types may move. -/
  isRelocatable : String → Bool
  /-- Which devices are pinned. -/
  pinned : PinnedPattern
  /-- How nodes on pinned devices are treated. -/
  policy : PinnedPolicy

namespace Eligibility

/-- The conditions that knobs set. -/
def ofKnobs (catalog : OpCatalog) (knobs : Knobs) (pinned : PinnedPattern) : Eligibility :=
  ⟨catalog, knobs.isRelocatable, pinned, knobs.pinnedPolicy⟩

/-- The conditions with another policy. -/
def withPolicy (eligibility : Eligibility) (policy : PinnedPolicy) : Eligibility :=
  { eligibility with policy := policy }

/-- Why a node is not eligible; `none` if it is. -/
def obstacle? (eligibility : Eligibility) (node : Node) : Option Obstacle :=
  match eligibility.catalog node.op with
  | none => some .unknownOp
  | some traits =>
    if traits.isStateful then some .stateful
    else if !eligibility.isRelocatable node.op then some .notRelocatable
    else if !node.isAssigned then some .unassigned
    else if eligibility.policy = .strict ∧ eligibility.pinned.isPinned node.device then
      some .pinnedDevice
    else none

/-- Whether a node may be moved. -/
def isEligible (eligibility : Eligibility) (node : Node) : Bool :=
  (eligibility.obstacle? node).isNone

end Eligibility

end DevicePlacement

import DevicePlacement.Decimal.Layout

/-!
# Knobs

The knobs set how placement works: which strategy it uses, how far the loads of
devices may drift apart, which graphs are worth the effort, which devices are
pinned and which op types may move.

Knobs can be made freely; `Knobs.flaw?` says what makes them unusable, and
placement only runs with knobs that have no flaw.
-/

namespace DevicePlacement

/-- How nodes are placed. -/
inductive Strategy
  /-- One sweep that trades traffic between devices against even loads. -/
  | localSearch
  /-- All nodes that may move go to the default device. -/
  | defaultDevice
  deriving DecidableEq, Repr

namespace Strategy

/-- The name of a strategy. -/
def name : Strategy → String
  | localSearch => "local-search"
  | defaultDevice => "default-device"

/-- The names that people use for the strategies. -/
def aliases : List (String × Strategy) :=
  [("local-search", localSearch), ("local_search", localSearch), ("partition", localSearch),
    ("default-device", defaultDevice), ("default_device", defaultDevice),
    ("default", defaultDevice)]

/-- A text that names no strategy, in lower case. -/
structure Unknown where
  text : String
  deriving DecidableEq, Repr

/-- The text an unknown strategy is reported with. -/
def Unknown.message (unknown : Unknown) : String :=
  "unknown placement strategy: " ++ unknown.text

/-- The strategy that a text names, whatever the case of its ASCII letters. -/
def ofText (text : String) : Except Unknown Strategy :=
  let lower := String.ofList (text.toList.map Char.toLower)
  match aliases.lookup lower with
  | some strategy => .ok strategy
  | none => .error ⟨lower⟩

end Strategy

/-- How nodes that are on pinned devices are treated. -/
inductive PinnedPolicy
  /-- They are not eligible at all. -/
  | strict
  /-- They count in the loads, but never move. -/
  | lenient
  deriving DecidableEq, Repr

/-- The name of a policy. -/
def PinnedPolicy.name : PinnedPolicy → String
  | strict => "strict"
  | lenient => "lenient"

/-- The settings of placement. -/
structure Knobs where
  /-- How far the share of a device may be from the even one. -/
  computeMargin : Float
  /-- Graphs that run faster than this are left alone. -/
  minExecutionTime : Int64
  strategy : Strategy
  /-- Devices whose name contains this text are pinned. -/
  pinnedDevicePattern : String
  pinnedPolicy : PinnedPolicy
  /-- The op types that may move. -/
  relocatableOps : List String

namespace Knobs

/-- The knobs that are used when none are given. -/
def standard : Knobs where
  computeMargin := 0.2
  minExecutionTime := 1000000
  strategy := .localSearch
  pinnedDevicePattern := "CPU"
  pinnedPolicy := .strict
  relocatableOps := ["MatMul", "Add", "Mul", "ConcatV2"]

/-- The knobs for which every graph is worth the effort. -/
def alwaysOptimize : Knobs :=
  { standard with minExecutionTime := 0 }

/-- The knobs with another margin. -/
def withComputeMargin (knobs : Knobs) (margin : Float) : Knobs :=
  { knobs with computeMargin := margin }

/-- The knobs with another strategy. -/
def withStrategy (knobs : Knobs) (strategy : Strategy) : Knobs :=
  { knobs with strategy := strategy }

/-- Whether nodes of an op type may move. -/
def isRelocatable (knobs : Knobs) (op : String) : Bool :=
  knobs.relocatableOps.contains op

/-- What makes knobs unusable. -/
inductive Flaw
  /-- The margin is no share. -/
  | margin (value : Float)
  /-- The least execution time is negative. -/
  | minExecutionTime
  /-- No device could be pinned. -/
  | noPattern
  /-- No node could move. -/
  | noOps

/-- The text a flaw is reported with. -/
def Flaw.message : Flaw → String
  | .margin value => "compute_margin must be within [0, 1], got " ++ Decimal.plain value
  | .minExecutionTime => "min_execution_time must be >= 0"
  | .noPattern => "pinned_device_pattern must not be empty"
  | .noOps => "relocatable_ops must name at least one op"

/-- The first flaw of the knobs. -/
def flaw? (knobs : Knobs) : Option Flaw :=
  let margin := knobs.computeMargin
  if !(margin.isFinite && 0 ≤ margin && margin ≤ 1) then some (.margin margin)
  else if knobs.minExecutionTime.toInt < 0 then some .minExecutionTime
  else if knobs.pinnedDevicePattern = "" then some .noPattern
  else if knobs.relocatableOps.isEmpty then some .noOps
  else none

end Knobs

end DevicePlacement

import DevicePlacement.Collapse
import DevicePlacement.Cost.Estimator
import DevicePlacement.Stats
import DevicePlacement.Sweep

/-!
# Placing a graph

A `Placer` has usable knobs and knows about op types. To place a graph it asks an
estimator for the costs and then does one of three things. A graph that runs
faster than the threshold is left alone. Without costs for any node, or if the
knobs say so, the eligible nodes collapse on the default device. Otherwise the
graph is swept, provided that some device is not pinned.

Whatever happens, only devices change: the identifier, the versions and all else
of the graph come out as they went in.
-/

namespace DevicePlacement

/-- Usable knobs and what is known about op types. -/
structure Placer where
  knobs : Knobs
  catalog : OpCatalog
  /-- The knobs can be used. -/
  usable : knobs.flaw? = none

/-- A graph after placement and the report about it. -/
structure Placed where
  graph : Graph
  report : Report

namespace Placer

/-- The name that stands in reports. -/
def name : String := "placement_optimizer"

/-- A placer with the given knobs, if they can be used. -/
def ofKnobs (knobs : Knobs) (catalog : OpCatalog) : Except Knobs.Flaw Placer :=
  match h : knobs.flaw? with
  | none => .ok ⟨knobs, catalog, h⟩
  | some flaw => .error flaw

/-- The text with which unusable knobs are reported. -/
def flawMessage (flaw : Knobs.Flaw) : String :=
  "invalid placement knobs: " ++ flaw.message

/-- A report on a graph with nothing but an outcome. -/
def report (graph : Graph) (outcome : Outcome) : Report :=
  Report.ofOutcome name graph.id outcome

/-- Collapses a graph on the default device. -/
def collapse (placer : Placer) (graph : Graph) (devices : List String) : Placed :=
  let result := Collapse.run placer.catalog placer.knobs graph devices
  let outcome := match result.device with
    | some device => Outcome.defaultDevice device result.moved
    | none => .noTargetDevice
  { graph := result.graph
    report := { report graph outcome with eligibleNodes := result.eligible } }

/-- Sweeps a graph. -/
def sweep (placer : Placer) (graph : Graph) (devices : List String) (estimate : Estimate) :
    Except Fault Placed := do
  let result ← Sweep.run placer.catalog placer.knobs graph devices estimate
  return {
    graph := result.graph
    report := { report graph (.localSearch result.moved) with
      eligibleNodes := result.eligible
      totalComputeCost := result.totalComputeCost
      externalCostBefore := some result.externalBefore
      externalCostAfter := some result.externalAfter
      deviceLoads := result.deviceLoads
      moves := result.moves } }

/-- Places a graph that is worth the effort. -/
def placeWith (placer : Placer) (graph : Graph) (devices : List String) (estimate : Estimate) :
    Except Fault Placed :=
  if estimate.nodes.isEmpty ∨ placer.knobs.strategy = .defaultDevice then
    .ok (placer.collapse graph devices)
  else
    match PinnedPattern.defaultDevice? ⟨placer.knobs.pinnedDevicePattern⟩ devices with
    | none => .ok ⟨graph, report graph .noTargetDevice⟩
    | some _ => placer.sweep graph devices estimate

/-- Places a graph for which there is an estimate. The statistics are collected
    for every graph, also for one that is then left alone. -/
def placeEstimated (placer : Placer) (graph : Graph) (devices : List String)
    (estimate : Estimate) : Except Fault Placed := do
  let _ ← CostStats.ofGraph graph estimate
  let time := estimate.summary.executionTime
  let threshold := placer.knobs.minExecutionTime
  let placed ←
    if time.toInt < threshold.toInt then
      .ok ⟨graph, report graph (.skipped time threshold)⟩
    else
      placer.placeWith graph devices estimate
  return {
    graph := { placed.graph with id := graph.id, versions := graph.versions }
    report := { placed.report with predictedExecutionTime := time } }

/-- Places a graph on a cluster, with the costs of an estimator. -/
def place {σ : Type} [Estimator σ] (placer : Placer) (cluster : Cluster) (estimator : σ)
    (graph : Graph) : Except Failure (Placed × σ) := do
  let estimator ← Estimator.prepare estimator graph
  let estimate ← Estimator.predict estimator graph
  let placed ← (placer.placeEstimated graph cluster.names estimate).mapError .fault
  return (placed, estimator)

end Placer

end DevicePlacement

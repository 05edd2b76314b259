import DevicePlacement.Proofs.Recount
import DevicePlacement.Proofs.Skipping

/-!
# Reports tell the truth

A report comes from one of four places: the graph is left alone because it runs fast enough
or because there is nowhere to go, it collapses, or it is swept. Whichever it is, the report
can be checked against the graph before and after (`Placer.Truthful`): its outcome is the one
that the time, the pinned devices and the estimate decide (`Placer.verdict`), and its figures
are those that are counted again from the two graphs. An estimator that fails has its error
returned instead (`Placer.report_of_place`).
-/

namespace DevicePlacement

open Checked

/-- The kinds of outcomes. -/
inductive Outcome.Kind
  | skipped
  | localSearch
  | defaultDevice
  | noTargetDevice
  deriving DecidableEq, Repr

/-- The kind of an outcome. -/
def Outcome.kind : Outcome → Kind
  | skipped _ _ => .skipped
  | localSearch _ => .localSearch
  | defaultDevice _ _ => .defaultDevice
  | noTargetDevice => .noTargetDevice

/-- A graph after placement, with what is filled in at the end. -/
def Placed.complete (placed : Placed) (graph : Graph) (time : Int64) : Placed where
  graph := { placed.graph with id := graph.id, versions := graph.versions }
  report := { placed.report with predictedExecutionTime := time }

namespace Placer

variable {placer : Placer} {graph : Graph} {devices : List String} {estimate : Estimate}
  {placed : Placed}

/-- What is to become of a graph. -/
def verdict (placer : Placer) (devices : List String) (estimate : Estimate) : Outcome.Kind :=
  if estimate.summary.executionTime.toInt < placer.knobs.minExecutionTime.toInt then .skipped
  else if ∀ device ∈ devices,
    PinnedPattern.isPinned ⟨placer.knobs.pinnedDevicePattern⟩ device = true then .noTargetDevice
  else if estimate.nodes.isEmpty ∨ placer.knobs.strategy = .defaultDevice then .defaultDevice
  else .localSearch

/-- A report that says what became of a graph. -/
structure Truthful (placer : Placer) (devices : List String) (estimate : Estimate)
    (graph : Graph) (placed : Placed) : Prop where
  kind : placed.report.outcome.kind = placer.verdict devices estimate
  /-- It counts the nodes that are on another device than before. -/
  moved : placed.report.moved = graph.displaced placed.graph
  unmoved : placed.report.moved = 0 ↔ placed.graph = graph
  /-- The external traffic is reported after a sweep, and only then. -/
  before_isSome : placed.report.externalCostBefore.isSome = true ↔
    placed.report.outcome.kind = .localSearch
  after_isSome : placed.report.externalCostAfter.isSome = true ↔
    placed.report.outcome.kind = .localSearch
  before_eq : ∀ cost, placed.report.externalCostBefore = some cost →
    cost.toInt = graph.externalTraffic estimate
  after_eq : "" ∉ devices → ∀ cost, placed.report.externalCostAfter = some cost →
    cost.toInt = placed.graph.externalTraffic estimate

/-- The report on a graph that is left alone. -/
theorem truthful_of_left {outcome : Outcome}
    (hkind : outcome.kind = placer.verdict devices estimate) (hleft : outcome.kind ≠ .localSearch)
    (hmoved : outcome.moved = 0) :
    placer.Truthful devices estimate graph ⟨graph, report graph outcome⟩ where
  kind := hkind
  moved := hmoved.trans graph.displaced_self.symm
  unmoved := ⟨fun _ => rfl, fun _ => hmoved⟩
  before_isSome := ⟨nofun, fun h => absurd h hleft⟩
  after_isSome := ⟨nofun, fun h => absurd h hleft⟩
  before_eq := nofun
  after_eq := nofun

/-- A cheap graph is passed through, and no external traffic is reported. -/
theorem truthful_of_skipped
    (htime : estimate.summary.executionTime.toInt < placer.knobs.minExecutionTime.toInt) :
    placer.Truthful devices estimate graph ⟨graph, report graph
      (.skipped estimate.summary.executionTime placer.knobs.minExecutionTime)⟩ := by
  refine truthful_of_left ?_ nofun rfl
  rw [verdict, if_pos htime]
  rfl

section Worthwhile

variable
  (htime : ¬ estimate.summary.executionTime.toInt < placer.knobs.minExecutionTime.toInt)

include htime

/-- So is one for which all devices are pinned. -/
theorem truthful_of_stuck
    (hdevice : PinnedPattern.defaultDevice? ⟨placer.knobs.pinnedDevicePattern⟩ devices = none) :
    placer.Truthful devices estimate graph ⟨graph, report graph .noTargetDevice⟩ := by
  refine truthful_of_left ?_ nofun rfl
  rw [verdict, if_neg htime, if_pos (PinnedPattern.defaultDevice?_eq_none.1 hdevice)]
  rfl

/-- A collapse names the device and counts what it moved. -/
theorem truthful_of_collapse
    (hcollapse : estimate.nodes.isEmpty ∨ placer.knobs.strategy = .defaultDevice) :
    placer.Truthful devices estimate graph (placer.collapse graph devices) := by
  cases hdevice : PinnedPattern.defaultDevice? ⟨placer.knobs.pinnedDevicePattern⟩ devices with
  | none =>
    have hstuck : placer.collapse graph devices = ⟨graph, report graph .noTargetDevice⟩ := by
      rw [collapse, Collapse.run, hdevice]
      rfl
    rw [hstuck]
    exact truthful_of_stuck htime hdevice
  | some device =>
    -- There is a device to collapse onto, so not all of them are pinned.
    have hpinned : ¬ ∀ device ∈ devices,
        PinnedPattern.isPinned ⟨placer.knobs.pinnedDevicePattern⟩ device = true := fun h => by
      rw [PinnedPattern.defaultDevice?_eq_none.2 h] at hdevice
      cases hdevice
    have houtcome : (placer.collapse graph devices).report.outcome = .defaultDevice device
        (Collapse.run placer.catalog placer.knobs graph devices).moved := by
      simp only [collapse, Collapse.run, hdevice]
      rfl
    have hkind : (placer.collapse graph devices).report.outcome.kind = .defaultDevice := by
      rw [houtcome, Outcome.kind]
    have hmoved : (placer.collapse graph devices).report.moved =
        graph.displaced (placer.collapse graph devices).graph := by
      rw [Report.moved, houtcome]
      exact (Collapse.displaced_run ..).symm
    have hbefore : (placer.collapse graph devices).report.externalCostBefore = none := rfl
    have hafter : (placer.collapse graph devices).report.externalCostAfter = none := rfl
    exact {
      kind := by rw [hkind, verdict, if_neg htime, if_neg hpinned, if_pos hcollapse]
      moved := hmoved
      unmoved := by
        rw [hmoved]
        exact (Collapse.mayBecome_run ..).displaced_eq_zero_iff
      before_isSome := by simp [hkind, hbefore]
      after_isSome := by simp [hkind, hafter]
      before_eq := by simp [hbefore]
      after_eq := by simp [hafter] }

/-- A sweep reports the external traffic before and after it. -/
theorem truthful_of_sweep
    (hsweep : ¬ (estimate.nodes.isEmpty ∨ placer.knobs.strategy = .defaultDevice))
    (hdevice : PinnedPattern.defaultDevice? ⟨placer.knobs.pinnedDevicePattern⟩ devices ≠ none)
    (h : placer.sweep graph devices estimate = .ok placed) :
    placer.Truthful devices estimate graph placed := by
  obtain ⟨result, hrun, h⟩ := bind_eq_ok.1 h
  rw [pure_eq_ok] at h
  subst h
  let task : Sweep.Task := ⟨placer.catalog, placer.knobs, graph, devices, estimate⟩
  have hrun : task.run = .ok result := hrun
  obtain ⟨before, final, hf⟩ := Sweep.Task.run_eq_ok hrun
  have hmoved : result.moved = graph.displaced result.graph := hf.moved_eq
  exact {
    kind := by
      rw [verdict, if_neg htime, if_neg fun h => hdevice (PinnedPattern.defaultDevice?_eq_none.2 h),
        if_neg hsweep]
      rfl
    moved := hmoved
    unmoved := by
      change result.moved = 0 ↔ result.graph = graph
      rw [hmoved]
      exact (Sweep.Task.mayBecome_of_run hrun).displaced_eq_zero_iff
    before_isSome := ⟨fun _ => rfl, fun _ => rfl⟩
    after_isSome := ⟨fun _ => rfl, fun _ => rfl⟩
    before_eq := fun cost hcost => by
      cases hcost
      exact hf.externalBefore_eq
    after_eq := fun hempty cost hcost => by
      cases hcost
      exact hf.externalAfter_eq hempty hrun }

/-- What is reported belongs to the pass that was chosen. -/
theorem truthful_of_placeWith (h : placer.placeWith graph devices estimate = .ok placed) :
    placer.Truthful devices estimate graph placed := by
  rw [placeWith] at h
  split at h
  · next hcollapse =>
    cases h
    exact truthful_of_collapse htime hcollapse
  next hsweep =>
  split at h
  · next hdevice =>
    cases h
    exact truthful_of_stuck htime hdevice
  · next hdevice =>
    exact truthful_of_sweep htime hsweep (by rw [hdevice]; exact Option.some_ne_none _) h

end Worthwhile

/-- What is filled in at the end makes no difference to the figures. -/
theorem Truthful.complete {time : Int64} (h : placer.Truthful devices estimate graph placed)
    (hbecome : graph.MayBecome placer.catalog placer.knobs devices
      (placed.complete graph time).graph) :
    placer.Truthful devices estimate graph (placed.complete graph time) where
  kind := h.kind
  moved := h.moved
  unmoved := by
    rw [← hbecome.displaced_eq_zero_iff]
    exact iff_of_eq (congrArg (· = 0) h.moved)
  before_isSome := h.before_isSome
  after_isSome := h.after_isSome
  before_eq := h.before_eq
  after_eq := h.after_eq

/-- The threshold comes before this choice. -/
theorem truthful_of_placeEstimated
    (h : placer.placeEstimated graph devices estimate = .ok placed) :
    placer.Truthful devices estimate graph placed := by
  have hbecome := mayBecome_of_placeEstimated h
  obtain ⟨_, _, h⟩ := bind_eq_ok.1 h
  dsimp only at h
  split at h
  · next htime =>
    cases h
    exact (truthful_of_skipped htime).complete hbecome
  · next htime =>
    obtain ⟨inner, hinner, h⟩ := bind_eq_ok.1 h
    rw [pure_eq_ok] at h
    subst h
    exact (truthful_of_placeWith htime hinner).complete hbecome

section Place

variable {σ : Type} [Estimator σ] {cluster : Cluster} {estimator : σ}

/-- What `place` returns is what the steps before the placement and the placement return. -/
theorem placeEstimated_of_place {prepared next : σ}
    (hprepare : Estimator.prepare estimator graph = .ok prepared)
    (hpredict : Estimator.predict prepared graph = .ok estimate)
    (h : placer.place cluster estimator graph = .ok (placed, next)) :
    placer.placeEstimated graph cluster.names estimate = .ok placed := by
  rw [place_of_predict hprepare hpredict] at h
  cases hplaced : placer.placeEstimated graph cluster.names estimate with
  | error fault => rw [hplaced] at h; cases h
  | ok placed' => rw [hplaced] at h; cases h; rfl

/-- A placer returns the error of its estimator, if there is one, and otherwise a report
    that is true of the graph before and after. -/
theorem report_of_place (placer : Placer) (cluster : Cluster) (estimator : σ) (graph : Graph) :
    (∀ failure, Estimator.prepare estimator graph = .error failure →
      placer.place cluster estimator graph = .error failure) ∧
    ∀ prepared, Estimator.prepare estimator graph = .ok prepared →
      (∀ failure, Estimator.predict prepared graph = .error failure →
        placer.place cluster estimator graph = .error failure) ∧
      ∀ estimate placed next, Estimator.predict prepared graph = .ok estimate →
        placer.place cluster estimator graph = .ok (placed, next) →
        placer.Truthful cluster.names estimate graph placed := by
  refine ⟨fun failure hfail => ?_, fun prepared hprepare => ⟨fun failure hfail => ?_, ?_⟩⟩
  · rw [place, hfail]
    rfl
  · simp only [place, hprepare, hfail, bind, Except.bind]
  · intro estimate placed next hpredict h
    exact truthful_of_placeEstimated (placeEstimated_of_place hprepare hpredict h)

end Place

/-- An estimator that answers the same whatever it is asked about. -/
structure Scripted where
  /-- Whether it can be prepared. -/
  prepared : Except Failure Unit
  /-- What it predicts. -/
  predicted : Except Failure Estimate

instance : Estimator Scripted where
  name _ := "scripted"
  prepare estimator _ := estimator.prepared.map fun _ => estimator
  predict estimator _ := estimator.predicted

/-- Errors from either question to the estimator come through; otherwise the sweep of `relay` is
    reported, which brings its external traffic down from 115 to 10. -/
theorem report_of_place_relay : ∃ placer : Placer,
    placer.place (.ofNames Sweep.Task.relay.devices)
      (⟨.error (.cost (.failed "no profile")), .ok .empty⟩ : Scripted) Sweep.Task.relay.graph =
        .error (.cost (.failed "no profile")) ∧
    placer.place (.ofNames Sweep.Task.relay.devices)
      (⟨.ok (), .error (.cost .notPrepared)⟩ : Scripted) Sweep.Task.relay.graph =
        .error (.cost .notPrepared) ∧
    ∃ estimate placed next, placer.place (.ofNames Sweep.Task.relay.devices)
      (⟨Sweep.Task.relay.estimate.nodes, none⟩ : CostTable) Sweep.Task.relay.graph =
        .ok (placed, next) ∧
      placer.Truthful Sweep.Task.relay.devices estimate Sweep.Task.relay.graph placed ∧
      placed.report.outcome = .localSearch 2 ∧ placed.report.externalCostBefore = some 115 ∧
      placed.report.externalCostAfter = some 10 := by
  let placer : Placer := ⟨Sweep.Task.relay.knobs, Sweep.Task.relay.catalog, by decide +kernel⟩
  let cluster : Cluster := .ofNames Sweep.Task.relay.devices
  let table : CostTable := ⟨Sweep.Task.relay.estimate.nodes, none⟩
  have hprepare : Estimator.prepare table Sweep.Task.relay.graph =
    .ok (table.prepare Sweep.Task.relay.graph) := rfl
  have hestimate : ((Estimator.predict (table.prepare Sweep.Task.relay.graph)
      Sweep.Task.relay.graph).toOption.map fun _ => ()) = some () := by
    decide +kernel
  have hreport : ((placer.place cluster table Sweep.Task.relay.graph).toOption.map
      fun outcome => (outcome.1.report.outcome, outcome.1.report.externalCostBefore,
        outcome.1.report.externalCostAfter)) = some (.localSearch 2, some 115, some 10) := by
    decide +kernel
  obtain ⟨estimate, hpredict, _⟩ := exists_ok_of_toOption hestimate
  obtain ⟨⟨placed, next⟩, hplace, hreport⟩ := exists_ok_of_toOption hreport
  obtain ⟨houtcome, hreport⟩ := Prod.mk.inj hreport
  obtain ⟨hbefore, hafter⟩ := Prod.mk.inj hreport
  have hunprepared := (report_of_place placer cluster
    (⟨.error (.cost (.failed "no profile")), .ok .empty⟩ : Scripted) Sweep.Task.relay.graph).1
    (.cost (.failed "no profile")) rfl
  have hunpredicted := ((report_of_place placer cluster
    (⟨.ok (), .error (.cost .notPrepared)⟩ : Scripted) Sweep.Task.relay.graph).2 _ rfl).1
    (.cost .notPrepared) rfl
  have htruthful := ((report_of_place placer cluster table Sweep.Task.relay.graph).2 _
    hprepare).2 estimate placed next hpredict hplace
  exact ⟨placer, hunprepared, hunpredicted, estimate, placed, next, hplace, htruthful, houtcome,
    hbefore, hafter⟩

end Placer

end DevicePlacement

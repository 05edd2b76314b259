import DevicePlacement.Command.Arguments
import DevicePlacement.Report.Format
import DevicePlacement.Session.Workspace

/-!
# What commands do

A command is worked out before anything happens: from the texts of the files it
reads, `Command.script` makes a list of what it prints and writes, in order, and
says how it ends. Performing the script is then all that is left to do, in a
workspace (`Script.perform`) or in the world. A file that cannot be written ends
it early.
-/

namespace DevicePlacement

/-- One thing that a command does. -/
inductive Action
  /-- Prints a line. -/
  | print (line : String)
  /-- Writes the placed graph. -/
  | writeGraph (path text : String)
  /-- Saves the report. -/
  | saveReport (path text : String)
  deriving DecidableEq, Repr

/-- How a command ends. -/
inductive Ending
  /-- It has done everything. -/
  | done
  /-- It could not go on. -/
  | failed (error : SessionError)
  /-- It was stopped. -/
  | stopped (fault : Fault)

/-- The status with which a command leaves. -/
def Ending.status : Ending → Nat
  | done => 0
  | failed _ => 1
  | stopped _ => 101

/-- What a command does and how it ends. -/
structure Script where
  actions : List Action
  ending : Ending

namespace Ending

/-- The ending when a graph has not been placed. -/
def ofFailure : Failure → Ending
  | .cost error => .failed (.estimating error)
  | .fault fault => .stopped fault

end Ending

namespace Script

/-- A script that does nothing but fail. -/
def fail (error : SessionError) : Script := ⟨[], .failed error⟩

/-- A script that does something first. -/
def after (actions : List Action) (script : Script) : Script :=
  ⟨actions ++ script.actions, script.ending⟩

end Script

namespace Command

/-- A graph with two towers of matrix products on two devices, joined in the end. -/
def sampleGraph : Graph :=
  let cpu := "/job:localhost/replica:0/task:0/device:CPU:0"
  let gpu0 := "/job:localhost/replica:0/task:0/device:GPU:0"
  let gpu1 := "/job:localhost/replica:0/task:0/device:GPU:1"
  { id := some "sample-two-tower"
    versions := ⟨1087, 0⟩
    nodes := [
      ⟨"input", "Placeholder", cpu, []⟩,
      ⟨"w0", "VariableV2", gpu0, []⟩,
      ⟨"w1", "VariableV2", gpu1, []⟩,
      ⟨"tower0/mm", "MatMul", gpu0, [.data "input" 0, .data "w0" 0]⟩,
      ⟨"tower1/mm", "MatMul", gpu1, [.data "input" 0, .data "w1" 0]⟩,
      ⟨"tower1/add", "Add", gpu0, [.data "tower1/mm" 0, .data "tower0/mm" 0]⟩,
      ⟨"concat", "ConcatV2", gpu1,
        [.data "tower0/mm" 0, .data "tower1/add" 0, .control "input"]⟩] }

/-- The lines about a graph by itself. -/
def graphLines (stats : GraphStats) : List String :=
  let edges := s!"data_edges={stats.dataEdges}, control_edges={stats.controlEdges}"
  s!"nodes={stats.nodes}, {edges}, unassigned={stats.unassigned}" ::
    stats.perDevice.map fun (device, count) => s!"- {device}: {count} nodes"

/-- The lines about the costs of a graph. -/
def costLines (estimator : String) (stats : CostStats) : List String :=
  let time := toString stats.summary.executionTime.toInt
  let compute := toString stats.totalComputeCost.toInt
  let memory := toString stats.totalMemorySize.toInt
  [s!"estimator={estimator}, execution_time={time}, compute_cost={compute}",
    s!"memory_size={memory}, missing_costs={stats.nodesWithoutCost}"]

/-- The costs of a graph, as lines. -/
def priceLines (costs : CostSource) (graph : Graph) : Except Failure (List String) := do
  let costs ← Estimator.prepare costs graph
  let estimate ← Estimator.predict costs graph
  let stats ← (CostStats.ofGraph graph estimate).mapError .fault
  return costLines (Estimator.name costs) stats

/-- Places a graph. -/
def optimizeScript (files : Files) (environment : Environment) (graph : String)
    (options : SessionOptions) (output report : Option String) : Script :=
  match Session.start options files environment with
  | .error error => .fail error
  | .ok session =>
    match Session.loadGraph files graph with
    | .error error => .fail error
    | .ok graph =>
      match session.place graph with
      | .error failure => ⟨[], .ofFailure failure⟩
      | .ok (placed, _) =>
        let text := placed.graph.toText
        let first := match output with
          | some path => Action.writeGraph path text
          | none => .print text
        let second := report.map fun path => Action.saveReport path placed.report.toText
        ⟨first :: second.toList, .done⟩

/-- Prints the statistics of a graph. -/
def statsScript (files : Files) (graph : String) (costs : Option String) : Script :=
  match Session.loadGraph files graph with
  | .error error => .fail error
  | .ok graph =>
    let lines := (graphLines (.ofGraph graph)).map Action.print
    Script.after lines <|
      match SessionOptions.resolveCosts { SessionOptions.none with costs := costs } files with
      | .error error => .fail error
      | .ok costs =>
        match priceLines costs graph with
        | .error failure => ⟨[], .ofFailure failure⟩
        | .ok lines => ⟨lines.map .print, .done⟩

/-- What a command does. -/
def script (files : Files) (environment : Environment) : Command → Script
  | optimize graph options output report =>
    optimizeScript files environment graph options output report
  | stats graph costs => statsScript files graph costs
  | emitSample => ⟨[.print sampleGraph.toText], .done⟩

end Command

/-- What has come of a script. -/
structure Performance where
  /-- What was printed. -/
  printed : String
  workspace : Workspace
  ending : Ending

namespace Script

/-- Performs actions in a workspace, up to the first file that cannot be written. -/
def performAll (ending : Ending) : List Action → String → Workspace → Performance
  | [], printed, workspace => ⟨printed, workspace, ending⟩
  | .print line :: rest, printed, workspace =>
    performAll ending rest (printed ++ line ++ "\n") workspace
  | .writeGraph path text :: rest, printed, workspace =>
    match workspace.write path text with
    | .ok workspace => performAll ending rest printed workspace
    | .error reason => ⟨printed, workspace, .failed (.writingGraph path reason)⟩
  | .saveReport path text :: rest, printed, workspace =>
    match workspace.write path text with
    | .ok workspace => performAll ending rest printed workspace
    | .error reason => ⟨printed, workspace, .failed (.savingReport reason)⟩

/-- Performs a script in a workspace. -/
def perform (script : Script) (workspace : Workspace) : Performance :=
  performAll script.ending script.actions "" workspace

end Script

end DevicePlacement

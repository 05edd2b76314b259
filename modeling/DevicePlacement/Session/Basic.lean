import DevicePlacement.Cluster.Format
import DevicePlacement.Cost.OpProfiles
import DevicePlacement.Cost.Table
import DevicePlacement.Graph.Format
import DevicePlacement.Knobs.Format
import DevicePlacement.Knobs.Overrides
import DevicePlacement.Placer

/-!
# Sessions

A session places graphs from files with one set of knobs, one cluster and one
estimator. Each of the three may come from a file of its own: knobs default to
the standard ones and are then overridden by the environment and by flags, the
cluster may be a list of device names instead, and without a cost file nodes are
priced by their op types.

Files are read through a function that gives the text of each path, so all of
this is a matter of values.
-/

namespace DevicePlacement

/-- The text of every file that can be read. -/
abbrev Files := String → Except FileError String

/-- What lies behind an error: a file or its text. -/
inductive Cause
  | file (reason : FileError)
  | text (reason : Json.ReadError)
  deriving DecidableEq, Repr

/-- Why a session stops. -/
inductive SessionError
  | readingKnobs (path : String) (reason : FileError)
  | parsingKnobs (path : String) (reason : Json.ReadError)
  /-- A variable of the environment cannot be read. -/
  | environment (flaw : Environment.Flaw)
  /-- The knobs cannot be used. -/
  | unusableKnobs (flaw : Knobs.Flaw)
  | loadingCluster (path : String) (cause : Cause)
  /-- Neither a cluster file nor devices are given. -/
  | noCluster
  | loadingCosts (path : String) (cause : Cause)
  | readingGraph (path : String) (reason : FileError)
  | parsingGraph (path : String) (reason : Json.ReadError)
  | writingGraph (path : String) (reason : FileError)
  /-- The report cannot be saved. -/
  | savingReport (reason : FileError)
  /-- The estimator failed. -/
  | estimating (error : CostError)

namespace SessionError

/-- The text an error is reported with; `none` if there is only a cause. -/
def message? : SessionError → Option String
  | readingKnobs path _ => some ("reading knobs from " ++ path)
  | parsingKnobs path _ => some ("parsing knobs from " ++ path)
  | environment flaw => some flaw.message
  | unusableKnobs flaw => some (Placer.flawMessage flaw)
  | loadingCluster path _ => some ("loading cluster from " ++ path)
  | noCluster => some "either a cluster file or a device list is required"
  | loadingCosts path _ => some ("loading costs from " ++ path)
  | readingGraph path _ => some ("reading graph from " ++ path)
  | parsingGraph path _ => some ("parsing graph from " ++ path)
  | writingGraph path _ => some ("writing graph to " ++ path)
  | savingReport _ => none
  | estimating error => some error.message

/-- What lies behind an error. -/
def cause? : SessionError → Option Cause
  | readingKnobs _ reason => some (.file reason)
  | parsingKnobs _ reason => some (.text reason)
  | loadingCluster _ cause => some cause
  | loadingCosts _ cause => some cause
  | readingGraph _ reason => some (.file reason)
  | parsingGraph _ reason => some (.text reason)
  | writingGraph _ reason => some (.file reason)
  | savingReport reason => some (.file reason)
  | _ => none

end SessionError

/-- Where a session gets its costs from. -/
inductive CostSource
  /-- A table of measured costs. -/
  | table (table : CostTable)
  /-- The op types of the nodes. -/
  | profiles (profiles : OpProfiles)

instance : Estimator CostSource where
  name
    | .table table => Estimator.name table
    | .profiles profiles => Estimator.name profiles
  prepare
    | .table table, graph => (Estimator.prepare table graph).map .table
    | .profiles profiles, graph => (Estimator.prepare profiles graph).map .profiles
  predict
    | .table table, graph => Estimator.predict table graph
    | .profiles profiles, graph => Estimator.predict profiles graph

/-- What a session is made of. -/
structure SessionOptions where
  /-- The cluster file, which comes before the devices. -/
  cluster : Option String
  /-- The names of the devices. -/
  devices : List String
  /-- The cost file. -/
  costs : Option String
  /-- The knob file. -/
  knobs : Option String
  /-- The knobs that are set by flags. -/
  flags : KnobFlags

namespace SessionOptions

/-- The options when none is given. -/
def none : SessionOptions := ⟨.none, [], .none, .none, .none⟩

/-- The knobs of the knob file, or the standard ones. -/
def fileKnobs (options : SessionOptions) (files : Files) : Except SessionError Knobs :=
  match options.knobs with
  | .none => .ok .standard
  | some path => do
    let text ← (files path).mapError (.readingKnobs path)
    (Knobs.ofText text).mapError (.parsingKnobs path)

/-- The knobs of a session. -/
def resolveKnobs (options : SessionOptions) (files : Files) (environment : Environment) :
    Except SessionError Knobs := do
  let knobs ← options.fileKnobs files
  let knobs ← (knobs.withEnvironment environment).mapError .environment
  return knobs.withFlags options.flags

/-- The cluster of a session. -/
def resolveCluster (options : SessionOptions) (files : Files) : Except SessionError Cluster :=
  match options.cluster with
  | some path => do
    let text ← (files path).mapError fun reason => .loadingCluster path (.file reason)
    (Cluster.ofText text).mapError fun reason => .loadingCluster path (.text reason)
  | .none =>
    if options.devices.isEmpty then .error .noCluster
    else .ok (.ofNames options.devices)

/-- The estimator of a session. -/
def resolveCosts (options : SessionOptions) (files : Files) : Except SessionError CostSource :=
  match options.costs with
  | some path => do
    let text ← (files path).mapError fun reason => .loadingCosts path (.file reason)
    let table ← (CostTable.ofText text).mapError fun reason => .loadingCosts path (.text reason)
    return .table table
  | .none => .ok (.profiles .standard)

end SessionOptions

/-- A session. -/
structure Session where
  placer : Placer
  cluster : Cluster
  costs : CostSource

namespace Session

/-- The session of the given options. -/
def start (options : SessionOptions) (files : Files) (environment : Environment) :
    Except SessionError Session := do
  let knobs ← options.resolveKnobs files environment
  let placer ← (Placer.ofKnobs knobs OpRegistry.standard.catalog).mapError .unusableKnobs
  let cluster ← options.resolveCluster files
  let costs ← options.resolveCosts files
  return ⟨placer, cluster, costs⟩

/-- The graph of a graph file. -/
def loadGraph (files : Files) (path : String) : Except SessionError Graph := do
  let text ← (files path).mapError (.readingGraph path)
  (Graph.ofText text).mapError (.parsingGraph path)

/-- Places a graph. -/
def place (session : Session) (graph : Graph) : Except Failure (Placed × Session) := do
  let (placed, costs) ← session.placer.place session.cluster session.costs graph
  return (placed, { session with costs := costs })

end Session

end DevicePlacement

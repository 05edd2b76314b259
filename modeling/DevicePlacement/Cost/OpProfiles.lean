import DevicePlacement.Cost.Estimator

/-!
# Costs by op type

`OpProfiles` prices a node by its op type alone, for graphs that have not been
measured. An op type has a profile, its compute cost and the size of its output;
types without one share a fallback. Computing takes as long as its cost says,
and memory as long as the output takes to be moved with the bandwidth.

The bandwidth is at least one by its type, so the division is always defined.
-/

namespace DevicePlacement

/-- The cost of the operations of a type. -/
structure OpProfile where
  computeCost : Int64
  outputBytes : Int64
  deriving DecidableEq, Repr

/-- An estimator that answers from op types. -/
structure OpProfiles where
  /-- The profiles by op type. -/
  profiles : NameMap OpProfile
  /-- The profile of the other op types. -/
  fallback : OpProfile
  /-- The bytes that are moved in a unit of time. -/
  bandwidth : Int64
  /-- The key of the graph it is prepared for. -/
  preparedFor : Option String
  /-- Something is moved in a unit of time. -/
  bandwidth_pos : 1 ≤ bandwidth.toInt

namespace OpProfiles

/-- The estimator that knows no op type. -/
def empty : OpProfiles where
  profiles := NameMap.empty
  fallback := ⟨1000, 65536⟩
  bandwidth := 64
  preparedFor := none
  bandwidth_pos := by decide

/-- The estimator with the profile of an op type set. -/
def withProfile (prices : OpProfiles) (op : String) (computeCost outputBytes : Int64) :
    OpProfiles :=
  { prices with profiles := prices.profiles.insert op ⟨computeCost, outputBytes⟩ }

/-- The estimator with a fallback for the other op types. -/
def withFallback (prices : OpProfiles) (fallback : OpProfile) : OpProfiles :=
  { prices with fallback := fallback }

/-- The estimator with a bandwidth, which is raised to one if it is less. -/
def withBandwidth (prices : OpProfiles) (bandwidth : Int64) : OpProfiles :=
  if h : 1 ≤ bandwidth.toInt then
    { prices with bandwidth := bandwidth, bandwidth_pos := h }
  else
    { prices with bandwidth := 1, bandwidth_pos := by decide }

/-- The profiles of the common op types. -/
def common : List (String × OpProfile) :=
  [("MatMul", ⟨100000, 1048576⟩), ("Conv2D", ⟨150000, 1048576⟩), ("Add", ⟨5000, 65536⟩),
    ("Mul", ⟨5000, 65536⟩), ("Sub", ⟨5000, 65536⟩), ("ConcatV2", ⟨8000, 131072⟩),
    ("Relu", ⟨2000, 32768⟩), ("Softmax", ⟨4000, 32768⟩), ("Identity", ⟨100, 1024⟩),
    ("Const", ⟨0, 4096⟩), ("Placeholder", ⟨0, 65536⟩), ("NoOp", ⟨0, 0⟩)]

/-- The estimator that knows the common op types. -/
def standard : OpProfiles :=
  { empty with profiles := NameMap.ofList common }

/-- The profile of an op type. -/
def profile (prices : OpProfiles) (op : String) : OpProfile :=
  (prices.profiles.find? op).getD prices.fallback

/-- The cost of a node of an op type. -/
def cost (prices : OpProfiles) (op : String) : NodeCost :=
  let profile := prices.profile op
  { computeCost := profile.computeCost
    maxMemorySize := profile.outputBytes
    memoryTime := Int64.ofInt (profile.outputBytes.toInt.tdiv prices.bandwidth.toInt)
    computeTime := profile.computeCost }

/-- The estimator prepared for a graph. -/
def prepare (prices : OpProfiles) (graph : Graph) : OpProfiles :=
  { prices with preparedFor := some graph.key }

/-- The costs of a list of nodes. -/
def price (prices : OpProfiles) (nodes : List Node) : Except Fault Estimate :=
  nodes.foldlM (fun estimate node => estimate.add node.name (prices.cost node.op)) Estimate.empty

/-- The costs of a graph. Once prepared for one graph the estimator prices any. -/
def predict (prices : OpProfiles) (graph : Graph) : Except Failure Estimate :=
  match prices.preparedFor with
  | none => .error (.cost .notPrepared)
  | some _ => (prices.price graph.nodes).mapError .fault

instance : Estimator OpProfiles where
  name _ := "analytical"
  prepare prices graph := .ok (prices.prepare graph)
  predict := predict

end OpProfiles

end DevicePlacement

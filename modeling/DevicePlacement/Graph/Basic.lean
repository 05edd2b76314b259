import DevicePlacement.Graph.InputRef

/-!
# Computation graphs

A graph is a list of operations, each with a name, an op type, the device it is
assigned to and its inputs. The empty device name says that an operation is not
assigned. The order of the operations matters: it is the order in which
placement visits them, and of operations with the same name a reference means
the first (`Graph.node?`).

A graph also has an identifier and two version numbers, which placement copies
and never reads.
-/

namespace DevicePlacement

/-- An operation of a graph. -/
structure Node where
  /-- The name that references use. -/
  name : String
  /-- The op type. -/
  op : String
  /-- The assigned device; empty if there is none. -/
  device : String
  /-- The inputs, in order. -/
  inputs : List InputRef
  deriving DecidableEq, Repr

/-- The version numbers of a graph. -/
structure Versions where
  /-- The version that made the graph. -/
  producer : Int32
  /-- The oldest version that can read it. -/
  minConsumer : Int32
  deriving DecidableEq, Repr

/-- A computation graph. -/
structure Graph where
  /-- What the graph is called, if anything. -/
  id : Option String
  versions : Versions
  nodes : List Node
  deriving DecidableEq, Repr

/-- A set of names, as a list in increasing order. -/
def insertName (name : String) : List String → List String
  | [] => [name]
  | key :: rest =>
    if name < key then name :: key :: rest
    else if name = key then key :: rest
    else key :: insertName name rest

namespace Node

/-- Whether the node is assigned to a device. -/
def isAssigned (node : Node) : Bool :=
  node.device ≠ ""

/-- The inputs that carry data. -/
def dataInputs (node : Node) : List InputRef :=
  node.inputs.filter fun input => !input.isControl

/-- The number of inputs that only order. -/
def controlCount (node : Node) : Nat :=
  node.inputs.length - node.dataInputs.length

end Node

/-- The versions of a graph that gives none. -/
def Versions.none : Versions := ⟨0, 0⟩

namespace Graph

/-- The graph of a list of nodes. -/
def ofNodes (nodes : List Node) : Graph := ⟨.none, .none, nodes⟩

/-- The first node of a name. -/
def node? (graph : Graph) (name : String) : Option Node :=
  graph.nodes.find? fun node => node.name = name

/-- The graph with the first node of a name assigned to a device. -/
def assign (graph : Graph) (name device : String) : Graph :=
  { graph with nodes := assignFirst graph.nodes }
where
  /-- The nodes with the first one of the name assigned. -/
  assignFirst : List Node → List Node
    | [] => []
    | node :: rest =>
      if node.name = name then { node with device := device } :: rest
      else node :: assignFirst rest

/-- The devices that nodes are assigned to, in increasing order. -/
def devices (graph : Graph) : List String :=
  (graph.nodes.filter Node.isAssigned).foldl (fun names node => insertName node.device names) []

/-- The name by which estimators tell graphs apart. -/
def key (graph : Graph) : String :=
  graph.id.getD "<anonymous>"

/-- A reference to a node that is not in the graph. -/
structure DanglingInput where
  /-- The node with the input. -/
  node : String
  /-- The node it refers to. -/
  producer : String
  deriving DecidableEq, Repr

/-- The text a dangling input is reported with. -/
def DanglingInput.message (dangling : DanglingInput) : String :=
  "node '" ++ dangling.node ++ "' references unknown producer '" ++ dangling.producer ++ "'"

/-- The first input, data or control, that refers to no node of the graph. -/
def danglingInput? (graph : Graph) : Option DanglingInput :=
  graph.nodes.findSome? fun node =>
    (node.inputs.find? fun input => !graph.nodes.any fun other => other.name = input.producer).map
      fun input => ⟨node.name, input.producer⟩

end Graph

end DevicePlacement

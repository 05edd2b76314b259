import DevicePlacement.Graph.Basic

/-!
# Building graphs

A `Graph.Builder` collects operations whose inputs are still in their text form.
`Graph.Builder.build` turns them into a graph, or names the first operation that
repeats an earlier name or has an input that cannot be read; a repeated name
counts before a bad input of the same operation.
-/

namespace DevicePlacement.Graph

/-- An operation as it is given to a builder. -/
structure Operation where
  name : String
  op : String
  device : String
  /-- The inputs in their text form. -/
  inputs : List String
  deriving DecidableEq, Repr

/-- A graph in the making. -/
structure Builder where
  id : Option String
  versions : Versions
  operations : List Operation
  deriving DecidableEq, Repr

/-- Why no graph can be built. -/
inductive Builder.Flaw
  /-- A name is used twice. -/
  | duplicateName (name : String)
  /-- An operation has an input that cannot be read. -/
  | badInput (name : String) (flaw : InputRef.Flaw)
  deriving DecidableEq, Repr

/-- The text a flaw is reported with. -/
def Builder.Flaw.message : Builder.Flaw → String
  | .duplicateName name => "duplicate node name '" ++ name ++ "'"
  | .badInput name flaw => "node '" ++ name ++ "': " ++ flaw.message

namespace Builder

/-- The builder of a graph without operations. -/
def empty : Builder := ⟨none, .none, []⟩

/-- The builder with an identifier for the graph. -/
def withId (builder : Builder) (id : String) : Builder :=
  { builder with id := some id }

/-- The builder with version numbers for the graph. -/
def withVersions (builder : Builder) (producer minConsumer : Int32) : Builder :=
  { builder with versions := ⟨producer, minConsumer⟩ }

/-- The builder with one more operation. -/
def addOp (builder : Builder) (name op device : String) (inputs : List String) : Builder :=
  { builder with operations := builder.operations ++ [⟨name, op, device, inputs⟩] }

/-- The builder with one more matrix product. -/
def addMatMul (builder : Builder) (name device left right : String) : Builder :=
  builder.addOp name "MatMul" device [left, right]

/-- The builder with one more placeholder. -/
def addPlaceholder (builder : Builder) (name device : String) : Builder :=
  builder.addOp name "Placeholder" device []

/-- The node of an operation. -/
def node (operation : Operation) : Except Flaw Node := do
  let inputs ← (operation.inputs.mapM InputRef.ofText).mapError (.badInput operation.name)
  return ⟨operation.name, operation.op, operation.device, inputs⟩

/-- The nodes of a list of operations, when the names `seen` are in use already. -/
def nodes : List String → List Operation → Except Flaw (List Node)
  | _, [] => .ok []
  | seen, operation :: rest =>
    if operation.name ∈ seen then
      .error (.duplicateName operation.name)
    else do
      let first ← node operation
      let others ← nodes (operation.name :: seen) rest
      return first :: others

/-- The graph of a builder. -/
def build (builder : Builder) : Except Flaw Graph := do
  return ⟨builder.id, builder.versions, ← nodes [] builder.operations⟩

end Builder

end DevicePlacement.Graph

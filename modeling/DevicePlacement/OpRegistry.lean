import DevicePlacement.NameMap

/-!
# Op types

Whether a node may be moved depends on what its op type is like. `OpCatalog` is
any source of that knowledge, which may not know every type; `OpRegistry` is the
one that is a table.
-/

namespace DevicePlacement

/-- What is known about an op type. -/
structure OpTraits where
  /-- Whether its operations hold state. -/
  isStateful : Bool
  deriving DecidableEq, Repr

/-- What is known about the op types. -/
abbrev OpCatalog := String → Option OpTraits

/-- A table of op types. -/
structure OpRegistry where
  ops : NameMap OpTraits

namespace OpRegistry

/-- The table without op types. -/
def empty : OpRegistry := ⟨NameMap.empty⟩

/-- The table with one more op type, or new knowledge about it. -/
def register (registry : OpRegistry) (op : String) (traits : OpTraits) : OpRegistry :=
  ⟨registry.ops.insert op traits⟩

/-- What is known about the op types of the table. -/
def catalog (registry : OpRegistry) : OpCatalog :=
  registry.ops.find?

/-- The common op types that hold no state. -/
def statelessOps : List String :=
  ["MatMul", "Add", "AddV2", "Mul", "Sub", "ConcatV2", "Relu", "Softmax", "Identity", "Const",
    "Placeholder", "NoOp"]

/-- The common op types that hold state. -/
def statefulOps : List String :=
  ["Variable", "VariableV2", "VarHandleOp", "Assign", "AssignVariableOp", "ReadVariableOp"]

/-- The table of the common op types. -/
def standard : OpRegistry :=
  ⟨NameMap.ofList (statelessOps.map (·, ⟨false⟩) ++ statefulOps.map (·, ⟨true⟩))⟩

end OpRegistry

end DevicePlacement

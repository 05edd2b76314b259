/-!
# Checked arithmetic

Costs, loads and times are signed 64-bit integers. Sums and differences of them
are formed exactly and then *checked*: one that leaves the 64-bit range stops the
computation with a `Fault`, it never wraps. So a result that is returned at all
is the exact one (`Checked.plus_eq_ok_iff`, `Checked.minus_eq_ok_iff`), and the
order in which numbers are added matters only for whether a result is returned.
-/

namespace DevicePlacement

/-- What stops a computation for good, leaving no result. -/
inductive Fault
  /-- A sum left the 64-bit range. -/
  | addition
  /-- A difference left the 64-bit range. -/
  | subtraction
  /-- A table of `size` rows was asked for the row `index`. -/
  | outOfRange (size index : Nat)
  /-- The loads of the devices did not add up to the total load. -/
  | unbalanced
  deriving DecidableEq, Repr

/-- The text a fault is reported with. -/
def Fault.message : Fault → String
  | .addition => "attempt to add with overflow"
  | .subtraction => "attempt to subtract with overflow"
  | .outOfRange size index => s!"index out of bounds: the len is {size} but the index is {index}"
  | .unbalanced => "assertion failed: tracker.is_conserved()"

namespace Checked

/-- The value as a 64-bit integer, or the fault if it does not fit. -/
def narrow (fault : Fault) (value : Int) : Except Fault Int64 :=
  if Int64.minValue.toInt ≤ value ∧ value ≤ Int64.maxValue.toInt then
    .ok (Int64.ofInt value)
  else
    .error fault

/-- The checked sum of two numbers. -/
def plus (a b : Int64) : Except Fault Int64 :=
  narrow .addition (a.toInt + b.toInt)

/-- The checked difference of two numbers. -/
def minus (a b : Int64) : Except Fault Int64 :=
  narrow .subtraction (a.toInt - b.toInt)

/-- The checked sum of a list, added up from the left. -/
def total (numbers : List Int64) : Except Fault Int64 :=
  numbers.foldlM plus 0

/-- The row `index` of a table. -/
def row {α : Type} (table : List α) (index : Nat) : Except Fault α :=
  match table[index]? with
  | some value => .ok value
  | none => .error (.outOfRange table.length index)

/-- The table with the row `index` replaced. -/
def setRow {α : Type} (table : List α) (index : Nat) (value : α) : Except Fault (List α) :=
  if index < table.length then .ok (table.set index value)
  else .error (.outOfRange table.length index)

theorem row_eq_ok_iff {α : Type} {table : List α} {index : Nat} {value : α} :
    row table index = .ok value ↔ table[index]? = some value := by
  rw [row]
  split <;> simp_all

theorem setRow_eq_ok_iff {α : Type} {table result : List α} {index : Nat} {value : α} :
    setRow table index value = .ok result ↔
      index < table.length ∧ result = table.set index value := by
  rw [setRow]
  split
  · next h => simp [h, eq_comm]
  · next h => simp [h]

theorem narrow_eq_ok_iff {fault : Fault} {value : Int} {result : Int64} :
    narrow fault value = .ok result ↔ result.toInt = value := by
  rw [narrow]
  constructor
  · intro h
    split at h
    · next hv =>
      cases h
      exact Int64.toInt_ofInt_of_le hv.1 (Int.lt_of_le_of_lt hv.2 (by decide))
    · cases h
  · rintro rfl
    rw [if_pos ⟨Int64.minValue_le_toInt result, Int64.toInt_le result⟩, Int64.ofInt_toInt]

theorem plus_eq_ok_iff {a b c : Int64} : plus a b = .ok c ↔ c.toInt = a.toInt + b.toInt :=
  narrow_eq_ok_iff

theorem minus_eq_ok_iff {a b c : Int64} : minus a b = .ok c ↔ c.toInt = a.toInt - b.toInt :=
  narrow_eq_ok_iff

end Checked

end DevicePlacement

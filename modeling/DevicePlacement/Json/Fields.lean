import DevicePlacement.Json.Fragment
import DevicePlacement.NameMap

/-!
# Reading typed values

A *reader* turns a fragment into a value or says what is wrong with it
(`ReadError`). A record is described by its `Fields`, in their order: each has a
name, a reader and possibly a default. It is read either from an object
(`Fields.readMembers`), whose members may come in any order and may include
unknown ones, or from an array (`Fields.readItems`), whose items are the fields
in order.

Of several things wrong with a record the leftmost one in the text is reported.
Only that a field is missing is noticed at the end of the record, and then the
first missing field is named.
-/

namespace DevicePlacement.Json

/-- What is wrong with a text that a value was to be read from. -/
inductive ReadError
  /-- The text is not JSON, or a part of it that is needed has no value. -/
  | malformed
  /-- A field is missing. -/
  | missingField (name : String)
  /-- A field is given twice. -/
  | duplicateField (name : String)
  /-- A choice is none of those known. -/
  | unknownVariant (name : String)
  /-- A value is of the wrong type. -/
  | invalidType
  /-- A number is out of its range. -/
  | invalidValue
  /-- An array has too few or too many items. -/
  | invalidLength
  deriving DecidableEq, Repr

/-- The text of the error; `none` if the text was not JSON. -/
def ReadError.message? : ReadError → Option String
  | .malformed => none
  | .missingField name => some ("missing field \x60" ++ name ++ "\x60")
  | .duplicateField name => some ("duplicate field \x60" ++ name ++ "\x60")
  | .unknownVariant name => some ("unknown variant \x60" ++ name ++ "\x60")
  | .invalidType => some "invalid type"
  | .invalidValue => some "invalid value"
  | .invalidLength => some "invalid length"

/-- A way to read a value of type `α`. -/
abbrev Reader (α : Type) := Fragment → Except ReadError α

namespace Reader

/-- The error for a fragment of a type that was not expected. -/
def mismatch : Fragment → ReadError
  | .valueless => .malformed
  | .broken => .malformed
  | _ => .invalidType

/-- A string. -/
def text : Reader String
  | .string value => .ok value
  | fragment => .error (mismatch fragment)

/-- A truth value. -/
def flag : Reader Bool
  | .bool value => .ok value
  | fragment => .error (mismatch fragment)

/-- A whole number from `least` to `greatest`. -/
def whole (least greatest : Int) : Reader Int
  | .int value => if least ≤ value ∧ value ≤ greatest then .ok value else .error .invalidValue
  | fragment => .error (mismatch fragment)

/-- A signed 64-bit number. -/
def int64 : Reader Int64 := fun fragment =>
  (whole Int64.minValue.toInt Int64.maxValue.toInt fragment).map Int64.ofInt

/-- A signed 32-bit number. -/
def int32 : Reader Int32 := fun fragment =>
  (whole Int32.minValue.toInt Int32.maxValue.toInt fragment).map Int32.ofInt

/-- An unsigned 64-bit number. -/
def uint64 : Reader UInt64 := fun fragment =>
  (whole 0 (UInt64.size - 1) fragment).map fun value => UInt64.ofNat value.toNat

/-- An unsigned 32-bit number. -/
def uint32 : Reader UInt32 := fun fragment =>
  (whole 0 (UInt32.size - 1) fragment).map fun value => UInt32.ofNat value.toNat

/-- A count, which fits 64 bits. -/
def count : Reader Nat := fun fragment =>
  (whole 0 (UInt64.size - 1) fragment).map Int.toNat

/-- A double; whole numbers are rounded to one. -/
def float : Reader Float
  | .float value => .ok value
  | .int value => .ok (Float.ofInt value)
  | fragment => .error (mismatch fragment)

/-- A value that may be absent, which `null` says. -/
def optional {α : Type} (read : Reader α) : Reader (Option α)
  | .null => .ok none
  | fragment => (read fragment).map some

/-- The mark of an array or object that must have been read to its end. -/
def finished (closed : Bool) : Except ReadError Unit :=
  if closed then .ok () else .error .malformed

/-- An array of values. -/
def list {α : Type} (read : Reader α) : Reader (List α)
  | .array items closed => do
    let values ← items.mapM read
    finished closed
    return values
  | fragment => .error (mismatch fragment)

/-- An object as a map; of members with the same name the last one counts. -/
def names {α : Type} (read : Reader α) : Reader (NameMap α)
  | .object members closed => do
    let map ← members.foldlM (fun map member =>
      match member.1 with
      | .name name => (read member.2).map (map.insert name)
      | _ => .error .malformed) NameMap.empty
    finished closed
    return map
  | fragment => .error (mismatch fragment)

/-- Any well-formed value, passed over. -/
def skip : Reader Unit := fun fragment =>
  if fragment.wellFormed then .ok () else .error .malformed

/-- Any value of at most `depth` levels, kept for later. -/
def keep (depth : Nat) : Reader Fragment := fun fragment =>
  if fragment.readable depth then .ok fragment else .error .malformed

/-- One of the given choices by its name. -/
def pick {α : Type} (choices : List (String × α)) (name : String) : Except ReadError α :=
  match NameMap.lookup name choices with
  | some choice => .ok choice
  | none => .error (.unknownVariant name)

/-- A choice: its name, or an object whose only member has that name and the
    value `null`. Other values are rejected as if they were not JSON. -/
def choice {α : Type} (choices : List (String × α)) : Reader α
  | .string name => pick choices name
  | .object ((.name name, value) :: others) closed => do
    let choice ← pick choices name
    match value with
    | .null => if others.isEmpty && closed then .ok choice else .error .malformed
    | value => .error (mismatch value)
  | _ => .error .malformed

/-- A choice by its name alone. -/
def variant {α : Type} (choices : List (String × α)) : Reader α := fun fragment => do
  pick choices (← text fragment)

end Reader

/-- The description of a record: how it is put together from its fields. -/
structure Fields (α : Type) where
  /-- The names of the fields, in order. -/
  names : List String
  /-- Reads the field of the given name, to see whether its value is right. -/
  check : String → Reader Unit
  /-- The record, from the fragments of its fields and the error for a field
      that is missing. -/
  build : (String → Option Fragment) → (String → ReadError) → Except ReadError α

namespace Fields

variable {α β : Type}

/-- A field that must be given. -/
def required (name : String) (read : Reader α) : Fields α where
  names := [name]
  check _ fragment := (read fragment).map fun _ => ()
  build find missing :=
    match find name with
    | some fragment => read fragment
    | none => .error (missing name)

/-- A field with a default. -/
def withDefault (name : String) (default : α) (read : Reader α) : Fields α where
  names := [name]
  check _ fragment := (read fragment).map fun _ => ()
  build find _ :=
    match find name with
    | some fragment => read fragment
    | none => .ok default

/-- A record without fields. -/
def none (value : α) : Fields α where
  names := []
  check _ _ := .ok ()
  build _ _ := .ok value

/-- The fields of two records one after the other. -/
def both (f : Fields (α → β)) (x : Fields α) : Fields β where
  names := f.names ++ x.names
  check name fragment :=
    if name ∈ f.names then f.check name fragment else x.check name fragment
  build find missing := do
    let g ← f.build find missing
    let a ← x.build find missing
    return g a

instance : Functor Fields where
  map g x := both (none g) x

instance : Seq Fields where
  seq f x := both f (x ())

/-- The value of the first member of a name. -/
def member? (members : List (Key × Fragment)) (name : String) : Option Fragment :=
  (members.find? fun member => member.1 = .name name).map Prod.snd

/-- Checks the members of an object from left to right. Fields are read, and may
    come only once; `other` decides about members that are no fields. -/
def checkMembers (fields : Fields α) (other : Reader Unit) :
    List String → List (Key × Fragment) → Except ReadError Unit
  | _, [] => .ok ()
  | seen, (.name name, value) :: rest =>
    if name ∈ fields.names then
      if name ∈ seen then
        .error (.duplicateField name)
      else do
        fields.check name value
        checkMembers fields other (name :: seen) rest
    else do
      other value
      checkMembers fields other seen rest
  | _, _ :: _ => .error .malformed

/-- A record from the members of an object. -/
def readMembers (fields : Fields α) (other : Reader Unit) (members : List (Key × Fragment))
    (closed : Bool) : Except ReadError α := do
  fields.checkMembers other [] members
  Reader.finished closed
  fields.build (member? members) .missingField

/-- Checks the items of an array from left to right against the fields. -/
def checkItems (fields : Fields α) : List String → List Fragment → Except ReadError Unit
  | name :: names, item :: items => do
    fields.check name item
    checkItems fields names items
  | _, _ => .ok ()

/-- A record from the items of an array. `surplus` is the error for more items
    than fields. -/
def readItems (fields : Fields α) (surplus : ReadError) (items : List Fragment)
    (closed : Bool) : Except ReadError α := do
  fields.checkItems fields.names items
  Reader.finished closed
  let record ← fields.build
    (fun name => NameMap.lookup name (fields.names.zip items)) (fun _ => .invalidLength)
  if fields.names.length < items.length then .error surplus else .ok record

/-- A record from an object or an array. -/
def read (fields : Fields α) : Reader α
  | .object members closed => fields.readMembers Reader.skip members closed
  | .array items closed => fields.readItems .malformed items closed
  | fragment => .error (Reader.mismatch fragment)

end Fields

/-- The value of a text that is one document and nothing else. -/
def readText {α : Type} (read : Reader α) (text : String) : Except ReadError α := do
  let (document, alone) := Fragment.ofText text
  let value ← read document
  Reader.finished alone
  return value

end DevicePlacement.Json

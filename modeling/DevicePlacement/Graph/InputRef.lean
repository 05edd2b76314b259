import DevicePlacement.Decimal.Reading

/-!
# Input references

An operation names its inputs in a short text form: `x` is the first output of
the node `x`, `x:2` its third one, and `^x` asks only that `x` has run before.
`InputRef.ofText` reads this form and `InputRef.text` writes it.

The port follows the *last* colon, so a node's name may hold colons itself, but
then its port has to be written out.
-/

namespace DevicePlacement

/-- One input of an operation. -/
inductive InputRef
  /-- The data at an output port of the producer. -/
  | data (producer : String) (port : UInt64)
  /-- The producer comes first, no data flows. -/
  | control (producer : String)
  deriving DecidableEq, Repr

namespace InputRef

/-- The node an input comes from. -/
def producer : InputRef → String
  | data producer _ => producer
  | control producer => producer

/-- Whether no data flows. -/
def isControl : InputRef → Bool
  | data _ _ => false
  | control _ => true

/-- The text form of an input. -/
def text : InputRef → String
  | data producer port =>
    if port = 0 then producer
    else String.ofList (producer.toList ++ ':' :: Nat.toDigits 10 port.toNat)
  | control producer => String.ofList ('^' :: producer.toList)

/-- Why a text is no input reference. -/
inductive Flaw
  /-- Nothing follows the caret. -/
  | noControlProducer
  /-- The text is empty. -/
  | empty
  /-- What follows the last colon is no port. -/
  | badPort (text : String)
  /-- Nothing stands before the last colon. -/
  | noProducer (text : String)
  deriving DecidableEq, Repr

/-- The text a flaw is reported with. -/
def Flaw.message : Flaw → String
  | .noControlProducer => "control input without producer name"
  | .empty => "empty input reference"
  | .badPort text => "invalid output port in input '" ++ text ++ "'"
  | .noProducer text => "invalid input reference '" ++ text ++ "'"

/-- What stands before and after the last occurrence of a character. -/
def splitLast (separator : Char) : List Char → Option (List Char × List Char)
  | [] => none
  | c :: rest =>
    match splitLast separator rest with
    | some (before, after) => some (c :: before, after)
    | none => if c = separator then some ([], rest) else none

/-- The input of a text that does not begin with a caret. -/
def ofDataText (text : String) : Except Flaw InputRef :=
  match splitLast ':' text.toList with
  | none => .ok (.data text 0)
  | some ([], _) => .error (.noProducer text)
  | some (producer, port) =>
    match Decimal.readUInt64? port with
    | some port => .ok (.data (String.ofList producer) port)
    | none => .error (.badPort text)

/-- The input a text refers to. -/
def ofText (text : String) : Except Flaw InputRef :=
  match text.toList with
  | [] => .error .empty
  | '^' :: [] => .error .noControlProducer
  | '^' :: producer => .ok (.control (String.ofList producer))
  | _ => ofDataText text

end InputRef

end DevicePlacement

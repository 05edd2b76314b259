/-!
# Numbers in settings

Settings hold numbers as text: whole numbers with an optional sign, doubles with
an optional sign, point and exponent, and the words for infinity and for what is
no number. Only ASCII digits count, and nothing may stand before or after the
number. A double is read as the one nearest to the number written; a number
beyond the range of doubles is infinite.
-/

namespace DevicePlacement.Decimal

/-- The value of an ASCII digit. -/
def digitValue? (c : Char) : Option Nat :=
  if '0' ≤ c ∧ c ≤ '9' then some (c.toNat - '0'.toNat) else none

/-- Whether a character is an ASCII digit. -/
def isDigit (c : Char) : Bool :=
  (digitValue? c).isSome

/-- The number that a list of digits stands for, digits of `acc` coming first. -/
def ofDigits (acc : Nat) (digits : List Char) : Nat :=
  digits.foldl (fun n c => 10 * n + (digitValue? c).getD 0) acc

/-- The number written by one or more digits and nothing else. -/
def readDigits? (chars : List Char) : Option Nat :=
  if chars.isEmpty then none
  else if chars.all isDigit then some (ofDigits 0 chars)
  else none

/-- A sign taken off a text: whether it was a minus, and the rest. -/
def splitSign : List Char → Bool × List Char
  | '-' :: rest => (true, rest)
  | '+' :: rest => (false, rest)
  | chars => (false, chars)

/-- An optional plus sign taken off a text. -/
def dropPlus : List Char → List Char
  | '+' :: rest => rest
  | chars => chars

/-- An unsigned 64-bit whole number. -/
def readUInt64? (chars : List Char) : Option UInt64 := do
  let n ← readDigits? (dropPlus chars)
  if n < UInt64.size then some (UInt64.ofNat n) else none

/-- A signed 64-bit whole number. -/
def readInt64? (text : String) : Option Int64 := do
  let (negative, digits) := splitSign text.toList
  let n ← readDigits? digits
  let value : Int := if negative then -n else n
  if Int64.minValue.toInt ≤ value ∧ value ≤ Int64.maxValue.toInt then some (Int64.ofInt value)
  else none

/-- The double nearest to `digits * 10 ^ exponent`. Numbers too large or too
    small for any double are recognised by their first digit's weight, so no
    power of ten beyond that range is ever formed. -/
def nearestFloat (digits : Nat) (exponent : Int) : Float :=
  let weight := exponent + (Nat.toDigits 10 digits).length
  if digits = 0 ∨ weight < -400 then 0
  else if 400 < weight then 1 / 0
  else Float.ofScientific digits (exponent < 0) exponent.natAbs

/-- The exponent that ends a number: nothing, or a letter and a whole number. -/
def readExponent? : List Char → Option Int
  | [] => some 0
  | letter :: rest =>
    if letter = 'e' ∨ letter = 'E' then
      let (negative, digits) := splitSign rest
      (readDigits? digits).map fun n => if negative then -(n : Int) else n
    else
      none

/-- An unsigned number: digits with at most one point among or around them, and
    an exponent. -/
def readMagnitude? (chars : List Char) : Option Float := do
  let whole := chars.takeWhile isDigit
  let rest := chars.dropWhile isDigit
  let (fraction, rest) := match rest with
    | '.' :: rest => (rest.takeWhile isDigit, rest.dropWhile isDigit)
    | _ => ([], rest)
  if whole.isEmpty ∧ fraction.isEmpty then none
  let exponent ← readExponent? rest
  some (nearestFloat (ofDigits (ofDigits 0 whole) fraction) (exponent - fraction.length))

/-- A double. -/
def readFloat? (text : String) : Option Float :=
  let (negative, chars) := splitSign text.toList
  let signed (x : Float) : Float := if negative then -x else x
  let word := chars.map Char.toLower
  if word = "nan".toList then some (signed (0 / 0))
  else if word = "inf".toList ∨ word = "infinity".toList then some (signed (1 / 0))
  else (readMagnitude? chars).map signed

end DevicePlacement.Decimal

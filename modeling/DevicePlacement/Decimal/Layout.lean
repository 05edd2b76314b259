import DevicePlacement.Decimal.Shortest

/-!
# Decimal text of doubles

A double is written with its shortest digits. What remains to decide is how the
digits are laid out: where positional writing ends and the exponent takes over,
whether a whole number keeps a point, how the signs of exponents look and how
the values that are no numbers are spelled. A `Layout` holds these decisions and
`Layout.text` follows them.
-/

namespace DevicePlacement.Decimal

/-- How the digits of a number are laid out. -/
structure Layout where
  /-- Of two equally near shortest decimals, the one that is taken. -/
  tie : Tie
  /-- Numbers from `10 ^ first` on, and below `10 ^ last`, are written
      positionally; without bounds all numbers are. -/
  positional : Option (Int × Int)
  /-- Whether a whole number is written with a point and a zero. -/
  keepPoint : Bool
  /-- The text of what is not a number. -/
  nan : String
  /-- The text of positive infinity. -/
  infinity : String
  /-- The text of negative infinity. -/
  negativeInfinity : String

/-- The decimal digits of a whole number. -/
def digitChars (n : Nat) : List Char :=
  Nat.toDigits 10 n

/-- Digits with the decimal point set so that the first digit has the weight
    `10 ^ weight`. -/
def positionalText (keepPoint : Bool) (digits : List Char) (weight : Int) : List Char :=
  if weight < 0 then
    '0' :: '.' :: (List.replicate (-weight - 1).toNat '0' ++ digits)
  else
    let places := weight.toNat + 1
    let whole := digits.take places ++ List.replicate (places - digits.length) '0'
    let fraction := digits.drop places
    if fraction.isEmpty then
      whole ++ (if keepPoint then ['.', '0'] else [])
    else
      whole ++ '.' :: fraction

/-- Digits as a number between one and ten, followed by the exponent. -/
def scientificText (digits : List Char) (weight : Int) : List Char :=
  let exponent := (if weight < 0 then '-' else '+') :: digitChars weight.natAbs
  match digits with
  | [] => []
  | first :: [] => first :: 'e' :: exponent
  | first :: rest => first :: '.' :: (rest ++ 'e' :: exponent)

namespace Layout

/-- The text of a positive decimal. -/
def magnitude (layout : Layout) (d : Decimal) : List Char :=
  let digits := digitChars d.digits
  let weight := d.exponent + digits.length - 1
  match layout.positional with
  | none => positionalText layout.keepPoint digits weight
  | some (first, last) =>
    if first ≤ weight ∧ weight < last then
      positionalText layout.keepPoint digits weight
    else
      scientificText digits weight

/-- The text of a double. -/
def text (layout : Layout) (x : Float) : List Char :=
  let negative : Bool := 0x8000000000000000 ≤ x.toBits
  let signed (chars : List Char) : List Char := if negative then '-' :: chars else chars
  match Binary.ofFloat x with
  | some b => signed (layout.magnitude (shortest layout.tie b))
  | none =>
    if x == 0 then signed (if layout.keepPoint then ['0', '.', '0'] else ['0'])
    else if x.isNaN then layout.nan.toList
    else (if negative then layout.negativeInfinity else layout.infinity).toList

end Layout

/-- Numbers in messages are always positional, whole ones without a point. -/
def plainLayout : Layout where
  tie := .up
  positional := none
  keepPoint := false
  nan := "NaN"
  infinity := "inf"
  negativeInfinity := "-inf"

/-- The text of a double in a message. -/
def plain (x : Float) : String :=
  String.ofList (plainLayout.text x)

end DevicePlacement.Decimal

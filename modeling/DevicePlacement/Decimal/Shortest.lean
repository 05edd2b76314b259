/-!
# The shortest decimal of a double

A finite double is a sign, a whole number `m` and a power of two:
`± m * 2 ^ q` (`Binary.ofFloat`). Every real number strictly between its two
midpoints with the neighbouring doubles reads back as it, and the midpoints
themselves do so when `m` is even. Among the decimals that read back as the
double, `Decimal.shortest` picks one with the fewest digits, and of those the
nearest.

The search needs whole numbers only. The value and the two midpoints are
fractions with one denominator; for one digit, two digits, and so on, the two
decimals of that many digits that enclose the value are tried. Seventeen digits
always suffice, so the search stops there.
-/

namespace DevicePlacement

/-- A positive double `significand * 2 ^ exponent`. -/
structure Binary where
  /-- The whole number `m`, below `2 ^ 53`. -/
  significand : Nat
  /-- The power of two. -/
  exponent : Int
  /-- Whether the next double below is only half as far away as the next one above. -/
  narrowBelow : Bool
  deriving DecidableEq, Repr

/-- The number `digits * 10 ^ exponent`. -/
structure Decimal where
  /-- The digits, as a whole number. -/
  digits : Nat
  /-- The power of ten. -/
  exponent : Int
  deriving DecidableEq, Repr

/-- Which of two decimals that are equally near is taken. -/
inductive Decimal.Tie
  /-- The one whose last digit is even. -/
  | even
  /-- The greater one. -/
  | up
  deriving DecidableEq, Repr

/-- The least significand of the doubles whose significands have full length, `2 ^ 52`. -/
def Binary.fullLength : Nat := 4503599627370496

/-- The magnitude of a finite double; `none` for the others and for zero. -/
def Binary.ofFloat (x : Float) : Option Binary :=
  let bits : Nat := x.toBits.toNat
  let fraction : Nat := bits % fullLength
  let scale : Nat := bits / fullLength % 2048
  if scale = 2047 then
    none
  else if scale = 0 then
    if fraction = 0 then none else some ⟨fraction, -1074, false⟩
  else
    some ⟨fullLength + fraction, (scale : Int) - 1075, fraction = 0 ∧ 1 < scale⟩

namespace Decimal

/-- The number of decimal digits of a whole number; one for zero. -/
def width (n : Nat) : Nat :=
  (Nat.toDigits 10 n).length

/-- The exponent `e` with `10 ^ e ≤ num / den < 10 ^ (e + 1)`. -/
def order (num den : Nat) : Int :=
  if den ≤ num then
    (width (num / den) : Int) - 1
  else
    -(width ((den + num - 1) / num - 1) : Int)

/-- The decimal without its trailing zeros, of which it has at most `fuel`. -/
def trim : Nat → Decimal → Decimal
  | 0, d => d
  | fuel + 1, d =>
    if d.digits ≠ 0 ∧ d.digits % 10 = 0 then trim fuel ⟨d.digits / 10, d.exponent + 1⟩ else d

/-- The better of the two decimals `low` and `low + 1` that enclose a value,
    twice the distance of `low` being `below` and the unit `unit`. -/
def nearer (tie : Tie) (low below unit : Nat) : Nat :=
  if 2 * below < unit then low
  else if unit < 2 * below then low + 1
  else
    match tie with
    | .even => if low % 2 = 0 then low else low + 1
    | .up => low + 1

/-- The decimal of `count` digits that is taken for `num / den`, if one of that
    many digits lies between the fractions `lower / den` and `upper / den`. -/
def atWidth (tie : Tie) (num lower upper den : Nat) (closed : Bool) (order : Int)
    (count : Nat) : Option Decimal :=
  let exponent := order - count + 1
  -- In units of `10 ^ exponent`, all fractions have the denominator `unit`.
  let grow := (-exponent).toNat
  let unit := den * Nat.pow 10 exponent.toNat
  let value := num * Nat.pow 10 grow
  let low := value / unit
  let inside (n : Nat) : Bool :=
    let at_ := n * unit
    let bottom := lower * Nat.pow 10 grow
    let top := upper * Nat.pow 10 grow
    if closed then bottom ≤ at_ ∧ at_ ≤ top else bottom < at_ ∧ at_ < top
  match inside low, inside (low + 1) with
  | true, true => some ⟨nearer tie low (value % unit) unit, exponent⟩
  | true, false => some ⟨low, exponent⟩
  | false, true => some ⟨low + 1, exponent⟩
  | false, false => none

/-- The shortest decimal that reads back as the given double. -/
def shortest (tie : Tie) (b : Binary) : Decimal :=
  -- A quarter of the distance to the next double is the unit of the fractions.
  let grow := (b.exponent - 2).toNat
  let den := Nat.pow 2 (2 - b.exponent).toNat
  let num := 4 * b.significand * Nat.pow 2 grow
  let upper := (4 * b.significand + 2) * Nat.pow 2 grow
  let lower := (4 * b.significand - if b.narrowBelow then 1 else 2) * Nat.pow 2 grow
  let closed := b.significand % 2 == 0
  let e := order num den
  let found := (List.range' 1 17).findSome? (atWidth tie num lower upper den closed e)
  trim 17 (found.getD ⟨num / den, 0⟩)

end Decimal

end DevicePlacement

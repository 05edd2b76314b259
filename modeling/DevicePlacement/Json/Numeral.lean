import DevicePlacement.Decimal.Reading

/-!
# Numbers in JSON text

A JSON number is a sign, whole digits without a leading zero, and optionally a
fraction and an exponent (`Numeral.read`). Its value is whole when it has
neither and fits 64 bits, signed or unsigned; every other number is a double
(`Numeral.value`).

The double is formed in two steps, each rounded once. The digits, as far as they
fit an unsigned 64-bit number, are made a double, and this is multiplied or
divided by a power of ten (`scaled`). So a number of up to fifteen digits and a
moderate exponent is read as the nearest double, and a longer one may be read as
a neighbour of it. A number beyond the range of doubles has no value.
-/

namespace DevicePlacement.Json

open Decimal (isDigit digitValue?)

/-- A number as written. -/
structure Numeral where
  /-- Whether a minus sign stands in front. -/
  negative : Bool
  /-- The digits before the point. -/
  whole : List Char
  /-- The digits after the point, if there is a point. -/
  fraction : Option (List Char)
  /-- The exponent, if there is one: whether it is negative, and its digits. -/
  exponent : Option (Bool × List Char)
  deriving DecidableEq, Repr

/-- The value of a number. -/
inductive Number
  /-- A whole number that fits 64 bits. -/
  | int (value : Int)
  /-- Any other number. -/
  | float (value : Float)

namespace Numeral

/-- One or more digits taken off a text. -/
def readDigits (chars : List Char) : Option (List Char × List Char) :=
  match chars.takeWhile isDigit with
  | [] => none
  | digits => some (digits, chars.dropWhile isDigit)

/-- The fraction of a number, if one begins here; `none` if it has no digits. -/
def readFraction : List Char → Option (Option (List Char) × List Char)
  | '.' :: rest => (readDigits rest).map fun (digits, rest) => (some digits, rest)
  | chars => some (none, chars)

/-- The exponent of a number, if one begins here; `none` if it has no digits. -/
def readExponent : List Char → Option (Option (Bool × List Char) × List Char)
  | letter :: chars =>
    if letter = 'e' ∨ letter = 'E' then
      let sign := Decimal.splitSign chars
      (readDigits sign.2).map fun (digits, rest) => (some (sign.1, digits), rest)
    else
      some (none, letter :: chars)
  | [] => some (none, [])

/-- The digits before the point, of which a zero must be the only one. -/
def readWhole (chars : List Char) : Option (List Char × List Char) := do
  let (digits, rest) ← readDigits chars
  if digits.head? = some '0' ∧ digits.length ≠ 1 then none else some (digits, rest)

/-- A minus sign taken off a text: whether there was one, and the rest. -/
def splitMinus : List Char → Bool × List Char
  | '-' :: rest => (true, rest)
  | chars => (false, chars)

/-- A number taken off a text, as long as possible; `none` if none begins here
    or the one that does is malformed. -/
def read (chars : List Char) : Option (Numeral × List Char) := do
  let sign := splitMinus chars
  let (whole, chars) ← readWhole sign.2
  let (fraction, chars) ← readFraction chars
  let (exponent, chars) ← readExponent chars
  some (⟨sign.1, whole, fraction, exponent⟩, chars)

/-- Digits appended to a number as long as it fits an unsigned 64-bit number:
    the number and how many digits were left over. -/
def collect (significand : Nat) : List Char → Nat × Nat
  | [] => (significand, 0)
  | c :: rest =>
    let next := 10 * significand + (digitValue? c).getD 0
    if next < UInt64.size then collect next rest else (significand, rest.length + 1)

/-- A double divided by `10 ^ places`, in steps of at most 308 places. -/
def scaleDown (x : Float) (places : Nat) : Float :=
  if places ≤ 308 then x / Float.ofScientific 1 false places
  else if x == 0 then x
  else scaleDown (x / Float.ofScientific 1 false 308) (places - 308)
termination_by places

/-- The double of `significand * 10 ^ exponent`; `none` beyond the range of doubles. -/
def scaled (significand : Nat) (exponent : Int) : Option Float :=
  let x := Float.ofNat significand
  if exponent < 0 then
    some (scaleDown x exponent.natAbs)
  else if exponent ≤ 308 then
    let y := x * Float.ofScientific 1 false exponent.toNat
    if y.isInf then none else some y
  else if significand = 0 then
    some x
  else
    none

/-- The double that a number stands for. -/
def floatValue (n : Numeral) : Option Float :=
  let (significand, dropped) := collect 0 n.whole
  let fraction := n.fraction.getD []
  let (significand, unused) := collect significand fraction
  let shift : Int := match n.exponent with
    | some (negative, digits) =>
      let e := Decimal.ofDigits 0 digits
      if negative then -(e : Int) else e
    | none => 0
  let exponent := shift + dropped - (fraction.length - unused : Nat)
  (scaled significand exponent).map fun x => if n.negative then -x else x

/-- The value of a number; `none` beyond the range of doubles. A negative zero
    is a double, as whole numbers have no such value. -/
def value (n : Numeral) : Option Number :=
  let magnitude := Decimal.ofDigits 0 n.whole
  let isWhole := n.fraction.isNone && n.exponent.isNone
  if isWhole && !n.negative && magnitude < UInt64.size then
    some (.int magnitude)
  else if isWhole && n.negative && 0 < magnitude && Int64.minValue.toInt ≤ -(magnitude : Int) then
    some (.int (-magnitude))
  else
    n.floatValue.map .float

theorem length_lt_of_readDigits {chars digits rest : List Char}
    (h : readDigits chars = some (digits, rest)) : rest.length < chars.length := by
  unfold readDigits at h
  split at h
  · cases h
  · next hne =>
    cases h
    cases chars with
    | nil => simp at hne
    | cons c cs =>
      by_cases hc : isDigit c
      · rw [List.dropWhile_cons_of_pos hc]
        exact Nat.lt_succ_of_le (List.dropWhile_sublist _).length_le
      · rw [List.takeWhile_cons_of_neg hc] at hne
        simp at hne

theorem length_le_of_readFraction {chars rest : List Char} {fraction : Option (List Char)}
    (h : readFraction chars = some (fraction, rest)) : rest.length ≤ chars.length := by
  unfold readFraction at h
  split at h
  · next tail =>
    obtain ⟨⟨digits, after⟩, hd, he⟩ := Option.map_eq_some_iff.1 h
    cases he
    exact Nat.le_succ_of_le (Nat.le_of_lt (length_lt_of_readDigits hd))
  · cases h
    exact Nat.le_refl _

theorem length_splitSign_le (chars : List Char) :
    (Decimal.splitSign chars).2.length ≤ chars.length := by
  unfold Decimal.splitSign
  split <;> simp

theorem length_splitMinus_le (chars : List Char) :
    (splitMinus chars).2.length ≤ chars.length := by
  unfold splitMinus
  split <;> simp

theorem length_le_of_readExponent {chars rest : List Char} {exponent : Option (Bool × List Char)}
    (h : readExponent chars = some (exponent, rest)) : rest.length ≤ chars.length := by
  unfold readExponent at h
  split at h
  · next letter tail =>
    split at h
    · obtain ⟨⟨digits, after⟩, hd, he⟩ := Option.map_eq_some_iff.1 h
      cases he
      have := length_splitSign_le tail
      have := length_lt_of_readDigits hd
      simp only [List.length_cons]
      omega
    · cases h
      exact Nat.le_refl _
  · cases h
    exact Nat.le_refl _

theorem length_lt_of_readWhole {chars digits rest : List Char}
    (h : readWhole chars = some (digits, rest)) : rest.length < chars.length := by
  unfold readWhole at h
  obtain ⟨⟨ds, after⟩, hd, he⟩ := Option.bind_eq_some_iff.1 h
  simp only at he
  split at he
  · cases he
  · cases he
    exact length_lt_of_readDigits hd

/-- Reading a number takes at least one character. -/
theorem length_lt_of_read {chars rest : List Char} {n : Numeral}
    (h : read chars = some (n, rest)) : rest.length < chars.length := by
  unfold read at h
  obtain ⟨⟨whole, afterWhole⟩, hw, h⟩ := Option.bind_eq_some_iff.1 h
  obtain ⟨⟨fraction, afterFraction⟩, hf, h⟩ := Option.bind_eq_some_iff.1 h
  obtain ⟨⟨exponent, afterExponent⟩, he, h⟩ := Option.bind_eq_some_iff.1 h
  cases h
  have h1 := length_lt_of_readWhole hw
  have h2 := length_le_of_readFraction hf
  have h3 := length_le_of_readExponent he
  have h4 := length_splitMinus_le chars
  omega

end Numeral

end DevicePlacement.Json

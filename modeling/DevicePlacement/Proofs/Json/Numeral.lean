import DevicePlacement.Json.Basic
import DevicePlacement.Json.Numeral
import Mathlib.Data.List.Basic
import Mathlib.Data.List.TakeWhile

/-!
# Numbers read back

A number is taken off a text as long as possible, so what it is read as depends on what
follows it. After a character that cannot go on with a number (`Numeral.Ends`) it does not:
a text that is one number on its own is the same number there (`Numeral.read_append`).

A whole number is written with its decimal digits and reads back as itself if it fits 64
bits, signed or unsigned (`Numeral.read_intText`).
-/

namespace DevicePlacement

namespace Decimal

/-- The digits are those of ASCII. -/
theorem isDigit_iff {c : Char} : isDigit c = true ↔ '0' ≤ c ∧ c ≤ '9' := by
  rw [isDigit, digitValue?]
  split
  · next h => simp [h]
  · next h => simp [h]

/-- They are the digits that numbers are written with. -/
theorem isDigit_eq (c : Char) : isDigit c = c.isDigit := by
  rw [Bool.eq_iff_iff, isDigit_iff, Char.isDigit]
  simp [Char.le_def]

/-- A number is written with digits only. -/
theorem isDigit_of_mem_digitChars {n : Nat} {c : Char} (h : c ∈ digitChars n) :
    isDigit c = true := by
  rw [isDigit_eq]
  exact Nat.isDigit_of_mem_toDigits (by decide) (by decide) h

/-- A digit counts for its distance from zero. -/
theorem digitValue?_of_isDigit {c : Char} (h : isDigit c = true) :
    (digitValue? c).getD 0 = c.toNat - '0'.toNat := by
  rw [isDigit, digitValue?] at h
  rw [digitValue?]
  split
  · rfl
  · next hc => rw [if_neg hc] at h; cases h

/-- Digits have their decimal value. -/
theorem ofDigits_eq_ofDigitChars {digits : List Char} (h : ∀ c ∈ digits, isDigit c = true) :
    ofDigits 0 digits = Nat.ofDigitChars 10 digits 0 :=
  List.foldl_ext _ _ 0 fun value c hc => by rw [digitValue?_of_isDigit (h c hc)]

/-- The digits of a number stand for it. -/
theorem ofDigits_digitChars (n : Nat) : ofDigits 0 (digitChars n) = n := by
  rw [ofDigits_eq_ofDigitChars fun c => isDigit_of_mem_digitChars]
  exact Nat.ofDigitChars_toDigits (by decide) (by decide)

/-- Digits are taken off up to the first character that is none. -/
theorem takeWhile_isDigit {digits tail : List Char} (hdigits : ∀ c ∈ digits, isDigit c = true)
    (htail : ∀ c ∈ tail.head?, isDigit c = false) :
    (digits ++ tail).takeWhile isDigit = digits ∧ (digits ++ tail).dropWhile isDigit = tail := by
  rw [List.takeWhile_append_of_pos hdigits, List.dropWhile_append_of_pos hdigits]
  cases tail with
  | nil => exact ⟨List.append_nil digits, rfl⟩
  | cons c tail =>
    have hc := htail c rfl
    rw [List.takeWhile_cons_of_neg (by simp [hc]), List.dropWhile_cons_of_neg (by simp [hc])]
    exact ⟨List.append_nil digits, rfl⟩

/-- Only the number zero begins with the digit zero. -/
theorem eq_zero_of_head?_digitChars {n : Nat} (h : (digitChars n).head? = some '0') : n = 0 := by
  induction n using Nat.strongRecOn with
  | _ n ih =>
    rw [digitChars] at h
    by_cases hn : n < 10
    · rw [Nat.toDigits_of_lt_base hn, List.head?_cons, Option.some_inj] at h
      have hall : ∀ n < 10, n.digitChar = '0' → n = 0 := by decide
      exact hall n hn h
    · -- The first digit of `n` is that of `n / 10`, which is not zero.
      rw [not_lt] at hn
      rw [Nat.toDigits_of_base_le (by decide) hn, List.head?_append] at h
      have hdigits : (Nat.toDigits 10 (n / 10)).head? ≠ none :=
        List.head?_eq_none_iff.not.2 Nat.toDigits_ne_nil
      rw [Option.or_of_isSome (Option.ne_none_iff_isSome.1 hdigits)] at h
      have hdiv := ih (n / 10) (by omega) h
      omega

end Decimal

namespace Json.Numeral

open Decimal

variable {chars digits after rest : List Char}

/-- What follows a number goes on with it neither as a digit nor as a point or an exponent. -/
def Ends (rest : List Char) : Prop :=
  ∀ c ∈ rest.head?, isDigit c = false ∧ c ≠ '.' ∧ c ≠ 'e' ∧ c ≠ 'E'

theorem ends_nil : Ends [] := nofun

/-- A character that no number can go on with ends it. -/
theorem ends_cons {c : Char} (h : isDigit c = false ∧ c ≠ '.' ∧ c ≠ 'e' ∧ c ≠ 'E') :
    Ends (c :: rest) := by
  intro c' hc
  cases hc
  exact h

/-! ## Parts of numbers -/

/-- Digits are read up to the first character that is none. -/
theorem readDigits_eq_some_iff : readDigits chars = some (digits, after) ↔
    chars = digits ++ after ∧ digits ≠ [] ∧ (∀ c ∈ digits, isDigit c = true) ∧
      ∀ c ∈ after.head?, isDigit c = false := by
  constructor
  · intro h
    rw [readDigits] at h
    split at h
    · cases h
    next hne =>
    cases h
    refine ⟨List.takeWhile_append_dropWhile.symm, hne, fun c hc => List.mem_takeWhile_imp hc,
      fun c hc => ?_⟩
    -- Digits are taken as long as there are any, so what is left begins with none.
    have hhead := List.head?_dropWhile_not isDigit chars
    rwa [hc] at hhead
  · rintro ⟨rfl, hne, hdigits, hafter⟩
    obtain ⟨htake, hdrop⟩ := takeWhile_isDigit hdigits hafter
    rw [readDigits, htake, hdrop]
    cases digits with
    | nil => exact absurd rfl hne
    | cons c digits => rfl

/-- If all of a text was read, what follows must not go on with the number. -/
theorem head?_append_of_ends (hr : after = [] → Ends rest)
    (h : ∀ c ∈ after.head?, isDigit c = false) :
    ∀ c ∈ (after ++ rest).head?, isDigit c = false := by
  cases after with
  | nil => exact fun c hc => (hr rfl c hc).1
  | cons c after => exact h

/-- Digits are read as before if what follows them is still there, or else if no number goes on
    in the rest. -/
theorem readDigits_append (h : readDigits chars = some (digits, after))
    (hr : after = [] → Ends rest) :
    readDigits (chars ++ rest) = some (digits, after ++ rest) := by
  obtain ⟨rfl, hne, hdigits, hafter⟩ := readDigits_eq_some_iff.1 h
  rw [List.append_assoc]
  exact readDigits_eq_some_iff.2 ⟨rfl, hne, hdigits, head?_append_of_ends hr hafter⟩

theorem ne_nil_of_readDigits (h : readDigits chars = some (digits, after)) : chars ≠ [] := by
  obtain ⟨rfl, hne, _⟩ := readDigits_eq_some_iff.1 h
  exact List.append_ne_nil_of_left_ne_nil hne after

/-- The same holds of the digits before a point. -/
theorem readWhole_append (h : readWhole chars = some (digits, after))
    (hr : after = [] → Ends rest) :
    readWhole (chars ++ rest) = some (digits, after ++ rest) := by
  rw [readWhole] at h ⊢
  obtain ⟨⟨digits', after'⟩, hdigits, h⟩ := Option.bind_eq_some_iff.1 h
  simp only at h
  split at h
  · cases h
  next hzero =>
  cases h
  refine Option.bind_eq_some_iff.2 ⟨_, readDigits_append hdigits hr, ?_⟩
  exact if_neg hzero

/-- It holds of a fraction. -/
theorem readFraction_append {fraction : Option (List Char)}
    (h : readFraction chars = some (fraction, after)) (hr : after = [] → Ends rest) :
    readFraction (chars ++ rest) = some (fraction, after ++ rest) := by
  unfold readFraction at h
  split at h
  · next chars =>
    obtain ⟨⟨digits, after'⟩, hdigits, h⟩ := Option.map_eq_some_iff.1 h
    cases h
    rw [List.cons_append, readFraction, readDigits_append hdigits hr]
    rfl
  next hpoint =>
  cases h
  -- There is no fraction: neither here nor, if nothing is left, in what follows.
  unfold readFraction
  split
  · next chars' hchars =>
    cases chars with
    | nil => exact absurd rfl (hr rfl '.' (by rw [← List.nil_append rest, hchars]; rfl)).2.1
    | cons c chars =>
      cases hchars
      exact absurd rfl (hpoint chars)
  · rfl

/-- A sign is at the front, so it does not matter what comes in the end. -/
theorem splitSign_append (h : chars ≠ []) :
    splitSign (chars ++ rest) = ((splitSign chars).1, (splitSign chars).2 ++ rest) := by
  unfold splitSign
  cases chars with
  | nil => exact absurd rfl h
  | cons c chars =>
    rw [List.cons_append]
    split <;> simp_all

/-- And it holds of an exponent. -/
theorem readExponent_append {exponent : Option (Bool × List Char)}
    (h : readExponent chars = some (exponent, after)) (hr : after = [] → Ends rest) :
    readExponent (chars ++ rest) = some (exponent, after ++ rest) := by
  unfold readExponent at h
  split at h
  · next letter chars =>
    rw [List.cons_append, readExponent]
    split at h
    · next hletter =>
      obtain ⟨⟨digits, after'⟩, hdigits, h⟩ := Option.map_eq_some_iff.1 h
      cases h
      have hne : chars ≠ [] := by
        rintro rfl
        exact ne_nil_of_readDigits hdigits rfl
      rw [if_pos hletter, splitSign_append hne]
      simp only
      rw [readDigits_append hdigits hr]
      rfl
    · next hletter =>
      cases h
      rw [if_neg hletter]
      rfl
  · cases h
    rw [List.nil_append]
    -- The text ends here, and an exponent must not begin in what is appended.
    cases rest with
    | nil => rfl
    | cons c rest =>
      have hc := hr rfl c rfl
      rw [readExponent, if_neg (not_or.2 ⟨hc.2.2.1, hc.2.2.2⟩)]

/-! ## Numbers -/

theorem splitMinus_append (h : chars ≠ []) :
    splitMinus (chars ++ rest) = ((splitMinus chars).1, (splitMinus chars).2 ++ rest) := by
  unfold splitMinus
  cases chars with
  | nil => exact absurd rfl h
  | cons c chars =>
    rw [List.cons_append]
    split <;> simp_all

/-- A text that is one number is the same number in front of what ends it. -/
theorem read_append {n : Numeral} (h : read chars = some (n, [])) (hr : Ends rest) :
    read (chars ++ rest) = some (n, rest) := by
  unfold read at h
  obtain ⟨⟨whole, afterWhole⟩, hwhole, h⟩ := Option.bind_eq_some_iff.1 h
  obtain ⟨⟨fraction, afterFraction⟩, hfraction, h⟩ := Option.bind_eq_some_iff.1 h
  obtain ⟨⟨exponent, afterExponent⟩, hexponent, h⟩ := Option.bind_eq_some_iff.1 h
  cases h
  have hne : chars ≠ [] := by
    rintro rfl
    cases hwhole
  have hr' (after : List Char) : after = [] → Ends rest := fun _ => hr
  rw [read, splitMinus_append hne]
  simp only [Option.bind_eq_bind]
  rw [readWhole_append hwhole (hr' _), Option.bind_some, readFraction_append hfraction (hr' _),
    Option.bind_some, readExponent_append hexponent (hr' _), Option.bind_some, List.nil_append]

/-- A number begins with a minus sign or a digit. -/
theorem exists_cons_of_read {n : Numeral} (h : read chars = some (n, after)) :
    ∃ c tail, chars = c :: tail ∧ (c = '-' ∨ isDigit c = true) := by
  obtain ⟨⟨whole, afterWhole⟩, hwhole, _⟩ := Option.bind_eq_some_iff.1 h
  obtain ⟨⟨digits, afterDigits⟩, hdigits, _⟩ := Option.bind_eq_some_iff.1 hwhole
  obtain ⟨hchars, hne, hdigit, _⟩ := readDigits_eq_some_iff.1 hdigits
  unfold splitMinus at hchars
  split at hchars
  · exact ⟨_, _, rfl, .inl rfl⟩
  · cases digits with
    | nil => exact absurd rfl hne
    | cons c digits => exact ⟨c, _, hchars, .inr (hdigit c List.mem_cons_self)⟩

/-! ## Whole numbers -/

/-- A whole number is written without a leading zero, and so all of it is read. -/
theorem read_digitChars (n : Nat) :
    readWhole (digitChars n) = some (digitChars n, []) := by
  have hdigits : readDigits (digitChars n) = some (digitChars n, []) :=
    readDigits_eq_some_iff.2 ⟨(List.append_nil _).symm, Nat.toDigits_ne_nil,
      fun _ hc => isDigit_of_mem_digitChars hc, nofun⟩
  rw [readWhole, hdigits]
  refine if_neg fun ⟨hzero, hlength⟩ => hlength ?_
  rw [eq_zero_of_head?_digitChars hzero]
  rfl

theorem splitMinus_digitChars (n : Nat) : splitMinus (digitChars n) = (false, digitChars n) := by
  unfold splitMinus
  split
  · next hchars =>
    have hminus := isDigit_of_mem_digitChars (n := n) (c := '-') (hchars ▸ List.mem_cons_self)
    exact absurd hminus (by decide)
  · rfl

/-- A whole number is read from its text as a sign and its digits. -/
theorem read_intText (value : Int) :
    read (intText value) = some (⟨value < 0, digitChars value.natAbs, none, none⟩, []) := by
  have hsign : splitMinus (intText value) = (decide (value < 0), digitChars value.natAbs) := by
    rw [intText]
    by_cases h : value < 0
    · rw [if_pos h, decide_eq_true h]
      rfl
    · rw [if_neg h, decide_eq_false h, splitMinus_digitChars]
  rw [read, hsign]
  simp only [read_digitChars, Option.bind_eq_bind, Option.bind_some, readFraction, readExponent]

/-- A whole number that fits 64 bits has itself as its value. -/
theorem value_of_int {value : Int} (hmin : Int64.minValue.toInt ≤ value)
    (hmax : value < UInt64.size) :
    Numeral.value ⟨value < 0, digitChars value.natAbs, none, none⟩ = some (.int value) := by
  simp only [Numeral.value, ofDigits_digitChars, Option.isNone_none, Bool.and_self, Bool.true_and]
  by_cases h : value < 0
  · simp only [h, decide_true, Bool.not_true, Bool.false_and, Bool.true_and, Bool.false_eq_true,
      if_false]
    rw [if_pos (by simp only [Bool.and_eq_true, decide_eq_true_eq]; omega)]
    congr 2
    omega
  · simp only [h, decide_false, Bool.not_false, Bool.true_and]
    rw [if_pos (by simp only [decide_eq_true_eq]; omega)]
    congr 2
    omega

end Json.Numeral

end DevicePlacement

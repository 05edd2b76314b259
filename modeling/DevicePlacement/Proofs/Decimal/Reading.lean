import DevicePlacement.Proofs.Graph.InputRef
import Mathlib.Algebra.Order.Field.Power
import Mathlib.Data.Rat.Cast.Order
import Mathlib.Tactic.Linarith

/-!
# The numbers that settings may hold

A setting is a text. Which texts stand for numbers, and for which ones, is given by a grammar:

* a whole number is written with digits and perhaps a sign, and must fit 64 bits (`IsInt64`);
* a double is written with digits, one point among or around them and an exponent, or with a
  word for what is no finite number, in any case of its letters; all of it perhaps with a sign
  (`IsDouble`).

The double is the one nearest to the number that is written (`Nearest`). How large that is, the
number of its digits tells before any power of ten is formed (`mul_zpow_lt_zpow_iff`).

To read a text is to find its place in the grammar (`readInt64?_eq_some_iff`,
`readFloat?_eq_some_iff`), so blanks, separators and other digits are refused.
-/

namespace DevicePlacement.Decimal

variable {chars digits tail rest : List Char} {text : String} {negative : Bool} {value : Float}

/-! ## Signs -/

/-- A sign may stand in front: whether it is a minus, and what follows it. -/
inductive Signed : List Char → Bool → List Char → Prop
  | plain (chars : List Char) : Signed chars false chars
  | plus (chars : List Char) : Signed ('+' :: chars) false chars
  | minus (chars : List Char) : Signed ('-' :: chars) true chars

/-- A sign is taken off if there is one. -/
theorem signed_splitSign (chars : List Char) :
    Signed chars (splitSign chars).1 (splitSign chars).2 := by
  fun_cases splitSign chars with
  | case1 rest => exact .minus rest
  | case2 rest => exact .plus rest
  | case3 => exact .plain chars

/-- A sign is taken off if what follows does not begin with another one. -/
theorem Signed.splitSign_eq (h : Signed chars negative rest)
    (hrest : ∀ c ∈ rest.head?, c ≠ '+' ∧ c ≠ '-') : splitSign chars = (negative, rest) := by
  cases h with
  | plus => rfl
  | minus => rfl
  | plain =>
    cases chars with
    | nil => rfl
    | cons c chars =>
      obtain ⟨hplus, hminus⟩ := hrest c rfl
      simp [splitSign, hplus, hminus]

/-- A number without a sign does not begin with one. -/
theorem Spells.head_ne {n : Nat} (h : Spells digits n) : ∀ c ∈ digits.head?, c ≠ '+' ∧ c ≠ '-' := by
  intro c hc
  have hascii := h.ascii c (List.mem_of_head? hc)
  constructor <;> rintro rfl <;> exact absurd hascii (by decide)

/-! ## Whole numbers -/

/-- A text that stands for a signed 64-bit number: digits, perhaps with a sign in front. -/
def IsInt64 (text : String) (value : Int64) : Prop :=
  ∃ negative digits n, Signed text.toList negative digits ∧ Spells digits n ∧
    value.toInt = if negative then -(n : Int) else n

/-- The reader of whole numbers accepts what the grammar does, and gives the same numbers. -/
theorem readInt64?_eq_some_iff {value : Int64} : readInt64? text = some value ↔
    IsInt64 text value := by
  rw [readInt64?]
  constructor
  · intro h
    obtain ⟨n, hn, h⟩ := Option.bind_eq_some_iff.1 h
    refine ⟨_, _, n, signed_splitSign text.toList, readDigits?_eq_some_iff.1 hn, ?_⟩
    simp only [Option.ite_none_right_eq_some, Option.some_inj] at h
    obtain ⟨hfits, rfl⟩ := h
    exact Int64.toInt_ofInt_of_le hfits.1 (Int.lt_add_one_of_le hfits.2)
  · rintro ⟨negative, digits, n, hsign, hdigits, hvalue⟩
    rw [hsign.splitSign_eq hdigits.head_ne]
    refine Option.bind_eq_some_iff.2 ⟨n, readDigits?_eq_some_iff.2 hdigits, ?_⟩
    simp only [Option.ite_none_right_eq_some, Option.some_inj, ← hvalue]
    exact ⟨⟨value.minValue_le_toInt, value.toInt_le⟩, value.ofInt_toInt⟩

/-! ## The nearest double -/

section Nearest

variable {n : Nat} {exponent : Int} {other : Float}

/-- The double for `n * 10 ^ exponent`. Far beyond the range of doubles it is zero or infinite,
    and else the number is rounded. -/
inductive Nearest (n : Nat) (exponent : Int) : Float → Prop
  | zero : n * 10 ^ exponent < (10 ^ (-401 : Int) : ℚ) → Nearest n exponent 0
  | infinite : (10 ^ (400 : Int) : ℚ) ≤ n * 10 ^ exponent → Nearest n exponent (1 / 0)
  | rounded : (10 ^ (-401 : Int) : ℚ) ≤ n * 10 ^ exponent →
      n * 10 ^ exponent < (10 ^ (400 : Int) : ℚ) →
      Nearest n exponent (.ofScientific n (exponent < 0) exponent.natAbs)

/-- The digits and the exponent of a number tell which powers of ten it is below. -/
theorem mul_zpow_lt_zpow_iff (hn : n ≠ 0) (exponent bound : Int) :
    n * 10 ^ exponent < (10 ^ bound : ℚ) ↔
      exponent + (Nat.toDigits 10 n).length ≤ bound := by
  have hpower : (0 : ℚ) < 10 ^ exponent := zpow_pos (by norm_num) exponent
  rw [← lt_div_iff₀ hpower, ← zpow_sub₀ (by norm_num)]
  rcases lt_or_ge 0 (bound - exponent) with hpos | hneg
  · obtain ⟨k, hk⟩ := Int.eq_ofNat_of_zero_le hpos.le
    have hlt : (n : ℚ) < 10 ^ k ↔ n < 10 ^ k := by exact_mod_cast Iff.rfl
    rw [hk, zpow_natCast, hlt, ← Nat.length_toDigits_le_iff (by decide) (by omega)]
    omega
  · -- The number is at least one and has a digit, and the power of ten is at most one.
    have hone : (1 : ℚ) ≤ n := by exact_mod_cast Nat.pos_of_ne_zero hn
    have hle : (10 : ℚ) ^ (bound - exponent) ≤ 1 := zpow_le_one_of_nonpos₀ (by norm_num) hneg
    have hdigit : 0 < (Nat.toDigits 10 n).length := Nat.length_toDigits_pos
    constructor
    · intro hlt
      linarith
    · intro hlength
      omega

/-- The reader compares the weight of the first digit, and thereby the number itself. -/
theorem nearest_nearestFloat (n : Nat) (exponent : Int) :
    Nearest n exponent (nearestFloat n exponent) := by
  rw [nearestFloat]
  by_cases hn : n = 0
  · rw [if_pos (.inl hn)]
    exact .zero (by rw [hn]; norm_num)
  have hbelow := mul_zpow_lt_zpow_iff hn exponent
  by_cases hsmall : exponent + (Nat.toDigits 10 n).length < -400
  · rw [if_pos (.inr hsmall)]
    exact .zero ((hbelow _).2 (by omega))
  rw [if_neg (not_or.2 ⟨hn, hsmall⟩)]
  by_cases hlarge : 400 < exponent + (Nat.toDigits 10 n).length
  · rw [if_pos hlarge]
    refine .infinite (not_lt.1 fun hlt => ?_)
    have hlength := (hbelow _).1 hlt
    omega
  · rw [if_neg hlarge]
    refine .rounded (not_lt.1 fun hlt => ?_) ((hbelow _).2 (by omega))
    have hlength := (hbelow _).1 hlt
    omega

/-- A number has one double: the ranges of the rules do not meet. -/
theorem Nearest.unique (h : Nearest n exponent value) (hother : Nearest n exponent other) :
    value = other := by
  have hrange : (10 ^ (-401 : Int) : ℚ) < 10 ^ (400 : Int) :=
    zpow_lt_zpow_right₀ (by norm_num) (by norm_num)
  cases h with
  | zero hsmall =>
    cases hother with
    | zero _ => rfl
    | infinite hlarge => exact absurd hlarge (by linarith)
    | rounded hlower _ => exact absurd hlower (by linarith)
  | infinite hlarge =>
    cases hother with
    | zero hsmall => exact absurd hlarge (by linarith)
    | infinite _ => rfl
    | rounded _ hupper => exact absurd hlarge (by linarith)
  | rounded hlower hupper =>
    cases hother with
    | zero hsmall => exact absurd hlower (by linarith)
    | infinite hlarge => exact absurd hlarge (by linarith)
    | rounded _ _ => rfl

/-- The double that a number is read as is the nearest one. -/
theorem nearestFloat_eq_iff : nearestFloat n exponent = value ↔ Nearest n exponent value := by
  constructor
  · rintro rfl
    exact nearest_nearestFloat n exponent
  · exact (nearest_nearestFloat n exponent).unique

end Nearest

/-! ## Doubles -/

/-- The exponent that may end a number. -/
inductive Exponent : List Char → Int → Prop
  | none : Exponent [] 0
  | some {letter : Char} {chars digits : List Char} {negative : Bool} {n : Nat} :
      letter = 'e' ∨ letter = 'E' → Signed chars negative digits → Spells digits n →
      Exponent (letter :: chars) (if negative then -(n : Int) else n)

/-- A number without a sign: digits, at least one, with at most one point, and an exponent. -/
inductive Magnitude : List Char → Float → Prop
  | whole {digits tail : List Char} {n : Nat} {exponent : Int} {value : Float} :
      Spells digits n → Exponent tail exponent → Nearest n exponent value →
      Magnitude (digits ++ tail) value
  | point {whole fraction tail : List Char} {n : Nat} {exponent : Int} {value : Float} :
      Spells (whole ++ fraction) n → Exponent tail exponent →
      Nearest n (exponent - fraction.length) value →
      Magnitude (whole ++ '.' :: (fraction ++ tail)) value

/-- A double without a sign. -/
inductive Unsigned (chars : List Char) : Float → Prop
  | nan : chars.map Char.toLower = "nan".toList → Unsigned chars (0 / 0)
  | infinite : chars.map Char.toLower = "inf".toList ∨
      chars.map Char.toLower = "infinity".toList → Unsigned chars (1 / 0)
  | number {value : Float} : Magnitude chars value → Unsigned chars value

/-- A text that stands for a double. -/
def IsDouble (text : String) (value : Float) : Prop :=
  ∃ negative chars magnitude, Signed text.toList negative chars ∧ Unsigned chars magnitude ∧
    value = if negative then -magnitude else magnitude

/-- An exponent is read up to the end of the text. -/
theorem readExponent?_eq_some_iff {exponent : Int} : readExponent? chars = some exponent ↔
    Exponent chars exponent := by
  constructor
  · intro h
    cases chars with
    | nil => cases h; exact .none
    | cons letter chars =>
      -- A letter must come first, and all that follows it belongs to the exponent.
      rw [readExponent?] at h
      split at h
      · next hletter =>
        obtain ⟨_, hcast, rfl⟩ := Option.map_eq_some_iff.1 h
        obtain ⟨n, hn, hcast⟩ := Option.bind_eq_some_iff.1 hcast
        cases hcast
        exact .some hletter (signed_splitSign chars) (readDigits?_eq_some_iff.1 hn)
      · cases h
  · rintro (_ | ⟨hletter, hsign, hdigits⟩)
    · rfl
    · rw [readExponent?, if_pos hletter, hsign.splitSign_eq hdigits.head_ne]
      refine Option.map_eq_some_iff.2 ⟨_, ?_, rfl⟩
      exact Option.bind_eq_some_iff.2 ⟨_, readDigits?_eq_some_iff.2 hdigits, rfl⟩

/-- Neither digits nor a point go on where an exponent begins. -/
theorem Exponent.head_ne {exponent : Int} (h : Exponent chars exponent) :
    ∀ c ∈ chars.head?, isDigit c = false ∧ c ≠ '.' := by
  intro c hc
  cases h with
  | none => cases hc
  | some hletter _ _ =>
    cases hc
    rcases hletter with rfl | rfl <;> decide

/-- Digits before and after a point make one number. -/
theorem ofDigits_append (digits more : List Char) :
    ofDigits (ofDigits 0 digits) more = ofDigits 0 (digits ++ more) :=
  List.foldl_append.symm

theorem spells_iff {n : Nat} : Spells digits n ↔
    digits ≠ [] ∧ (∀ c ∈ digits, isDigit c = true) ∧ ofDigits 0 digits = n := by
  constructor
  · intro h
    have hdigits : ∀ c ∈ digits, isDigit c = true := fun c hc => isDigit_iff.2 (h.ascii c hc)
    exact ⟨h.ne_nil, hdigits, (ofDigits_eq_ofDigitChars hdigits).trans h.value⟩
  · rintro ⟨hne, hdigits, hvalue⟩
    exact ⟨hne, fun c hc => isDigit_iff.1 (hdigits c hc),
      (ofDigits_eq_ofDigitChars hdigits).symm.trans hvalue⟩

theorem ite_none_bind_eq_some_iff {α β : Type} {p : Prop} [Decidable p] {x : Option α} {f : α → β}
    {b : β} : (if p then none else x.bind fun a => some (f a)) = some b ↔
      ¬ p ∧ ∃ a, x = some a ∧ f a = b := by
  rw [Option.ite_none_left_eq_some, Option.bind_eq_some_iff]
  simp only [Option.some_inj]

/-- A number in which a point follows the first digits. -/
theorem readMagnitude?_of_point (h : chars.dropWhile isDigit = '.' :: tail) :
    readMagnitude? chars = some value ↔
      chars.takeWhile isDigit ++ tail.takeWhile isDigit ≠ [] ∧
        ∃ exponent, readExponent? (tail.dropWhile isDigit) = some exponent ∧
          Nearest (ofDigits 0 (chars.takeWhile isDigit ++ tail.takeWhile isDigit))
            (exponent - (tail.takeWhile isDigit).length) value := by
  simp only [readMagnitude?, h, List.isEmpty_iff, ← List.append_eq_nil_iff, ofDigits_append,
    ← nearestFloat_eq_iff]
  exact ite_none_bind_eq_some_iff

/-- A number in which no point follows the first digits. -/
theorem readMagnitude?_of_no_point (h : ∀ tail, chars.dropWhile isDigit ≠ '.' :: tail) :
    readMagnitude? chars = some value ↔ chars.takeWhile isDigit ≠ [] ∧
      ∃ exponent, readExponent? (chars.dropWhile isDigit) = some exponent ∧
        Nearest (ofDigits 0 (chars.takeWhile isDigit)) exponent value := by
  simp only [readMagnitude?, List.isEmpty_iff, and_true, ofDigits_append, List.append_nil,
    List.length_nil, Int.natCast_zero, Int.sub_zero, ← nearestFloat_eq_iff]
  exact ite_none_bind_eq_some_iff

/-- The digits are read as far as they go, and what comes then decides which rule applies. -/
theorem readMagnitude?_eq_some_iff : readMagnitude? chars = some value ↔ Magnitude chars value := by
  constructor
  · intro h
    -- The reader looks for a point behind the first digits.
    by_cases hpoint : ∃ tail, chars.dropWhile isDigit = '.' :: tail
    · obtain ⟨tail, htail⟩ := hpoint
      obtain ⟨hne, exponent, hexponent, hvalue⟩ := (readMagnitude?_of_point htail).1 h
      have hchars : chars = chars.takeWhile isDigit ++
          '.' :: (tail.takeWhile isDigit ++ tail.dropWhile isDigit) := by
        rw [List.takeWhile_append_dropWhile, ← htail, List.takeWhile_append_dropWhile]
      have hdigits : ∀ c ∈ chars.takeWhile isDigit ++ tail.takeWhile isDigit,
          isDigit c = true := by
        intro c hc
        exact (List.mem_append.1 hc).elim List.mem_takeWhile_imp List.mem_takeWhile_imp
      have hmagnitude := Magnitude.point (spells_iff.2 ⟨hne, hdigits, rfl⟩)
        (readExponent?_eq_some_iff.1 hexponent) hvalue
      rwa [← hchars] at hmagnitude
    · rw [not_exists] at hpoint
      obtain ⟨hne, exponent, hexponent, hvalue⟩ := (readMagnitude?_of_no_point hpoint).1 h
      have hmagnitude := Magnitude.whole
        (spells_iff.2 ⟨hne, fun c hc => List.mem_takeWhile_imp hc, rfl⟩)
        (readExponent?_eq_some_iff.1 hexponent) hvalue
      rwa [List.takeWhile_append_dropWhile] at hmagnitude
  · -- The other way round, the digits end where the exponent or the point begins.
    rintro (⟨hdigits, hexponent, hvalue⟩ |
      @⟨whole, fraction, tail, n, exponent, value, hdigits, hexponent, hvalue⟩)
    · obtain ⟨hne, hall, rfl⟩ := spells_iff.1 hdigits
      obtain ⟨htake, hdrop⟩ := takeWhile_isDigit hall fun c hc => (hexponent.head_ne c hc).1
      rw [readMagnitude?_of_no_point, htake, hdrop]
      · exact ⟨hne, _, readExponent?_eq_some_iff.2 hexponent, hvalue⟩
      · intro tail htail
        rw [hdrop] at htail
        exact (hexponent.head_ne '.' (by rw [htail]; rfl)).2 rfl
    · obtain ⟨hne, hall, rfl⟩ := spells_iff.1 hdigits
      rw [List.forall_mem_append] at hall
      have hpoint : ∀ c ∈ ('.' :: (fraction ++ tail)).head?, isDigit c = false := by
        intro c hc
        cases hc
        decide
      obtain ⟨htake, hdrop⟩ := takeWhile_isDigit hall.1 hpoint
      obtain ⟨htake', hdrop'⟩ :=
        takeWhile_isDigit hall.2 fun c hc => (hexponent.head_ne c hc).1
      rw [readMagnitude?_of_point hdrop, htake, htake', hdrop']
      exact ⟨hne, _, readExponent?_eq_some_iff.2 hexponent, hvalue⟩

/-- A number begins with a digit or with its point, and so with no letter and no sign. -/
theorem Magnitude.exists_cons (h : Magnitude chars value) :
    ∃ c rest, chars = c :: rest ∧ (isDigit c = true ∨ c = '.') := by
  cases h with
  | @whole digits tail n exponent value hdigits _ _ =>
    obtain ⟨hne, hall, _⟩ := spells_iff.1 hdigits
    obtain ⟨c, rest, rfl⟩ := List.exists_cons_of_ne_nil hne
    exact ⟨c, rest ++ tail, rfl, .inl (hall c List.mem_cons_self)⟩
  | @point whole fraction tail n exponent value hdigits _ _ =>
    obtain ⟨_, hall, _⟩ := spells_iff.1 hdigits
    cases whole with
    | nil => exact ⟨'.', fraction ++ tail, rfl, .inr rfl⟩
    | cons c whole => exact ⟨c, _, rfl, .inl (hall c List.mem_cons_self)⟩

/-- Digits have no case. -/
theorem toLower_of_isDigit {c : Char} (h : isDigit c = true) : c.toLower = c := by
  have hlt : c.toNat < 'A'.toNat := Nat.lt_of_le_of_lt (isDigit_iff.1 h).2 (by decide)
  exact dif_neg fun hupper => Nat.not_le.2 hlt hupper.1

/-- A number is no word that begins with neither a digit nor a point. -/
theorem Magnitude.map_toLower_ne (h : Magnitude chars value) {word : List Char}
    (hword : (word.head?.any fun c => isDigit c || c == '.') = false) :
    chars.map Char.toLower ≠ word := by
  obtain ⟨c, rest, rfl, hc⟩ := h.exists_cons
  have hlower : c.toLower = c := by
    rcases hc with hc | rfl
    · exact toLower_of_isDigit hc
    · rfl
  rintro rfl
  rw [List.map_cons, hlower, List.head?_cons, Option.any_some, Bool.or_eq_false_iff] at hword
  rcases hc with hc | rfl
  · cases hc.symm.trans hword.1
  · cases hword.2

/-- A double without a sign does not begin with one, so no sign is taken off twice. -/
theorem Unsigned.head_ne (h : Unsigned chars value) :
    ∀ c ∈ chars.head?, c ≠ '+' ∧ c ≠ '-' := by
  -- Signs have no case, so a word in small letters would begin with the sign as well.
  have hword {word : List Char} (hlower : chars.map Char.toLower = word)
      (hsigns : '+' ∉ word.head? ∧ '-' ∉ word.head?) : ∀ c ∈ chars.head?, c ≠ '+' ∧ c ≠ '-' := by
    intro c hc
    have hmem : c.toLower ∈ word.head? := by
      rw [← hlower, List.head?_map, hc]
      rfl
    constructor <;> rintro rfl
    · exact hsigns.1 hmem
    · exact hsigns.2 hmem
  cases h with
  | nan hlower => exact hword hlower (by decide)
  | infinite hlower =>
    rcases hlower with hlower | hlower
    · exact hword hlower (by decide)
    · exact hword hlower (by decide)
  | number hnumber =>
    obtain ⟨c, rest, rfl, hc⟩ := hnumber.exists_cons
    rintro _ ⟨⟩
    constructor <;> rintro rfl <;> exact absurd hc (by decide)

/-- What is left of a double when its sign is taken off, the sign being put back in the end. -/
theorem read_unsigned_iff (signed : Float → Float) :
    (if chars.map Char.toLower = "nan".toList then some (signed (0 / 0))
      else if chars.map Char.toLower = "inf".toList ∨ chars.map Char.toLower = "infinity".toList
        then some (signed (1 / 0))
      else (readMagnitude? chars).map signed) = some value ↔
      ∃ magnitude, Unsigned chars magnitude ∧ value = signed magnitude := by
  constructor
  · intro h
    split at h
    · next hnan => cases h; exact ⟨_, .nan hnan, rfl⟩
    split at h
    · next hinfinite => cases h; exact ⟨_, .infinite hinfinite, rfl⟩
    · obtain ⟨magnitude, hread, rfl⟩ := Option.map_eq_some_iff.1 h
      exact ⟨magnitude, .number (readMagnitude?_eq_some_iff.1 hread), rfl⟩
  · rintro ⟨magnitude, hnan | hinfinite | hnumber, rfl⟩
    · rw [if_pos hnan]
    · -- No word for the infinite stands for what is no number.
      have hnan : chars.map Char.toLower ≠ "nan".toList := by
        rcases hinfinite with hword | hword <;> rw [hword] <;> decide
      rw [if_neg hnan, if_pos hinfinite]
    · rw [if_neg (hnumber.map_toLower_ne (by decide)),
        if_neg (not_or.2 ⟨hnumber.map_toLower_ne (by decide), hnumber.map_toLower_ne (by decide)⟩),
        readMagnitude?_eq_some_iff.2 hnumber, Option.map_some]

/-- The reader of doubles accepts what the grammar does, and gives the same doubles. -/
theorem readFloat?_eq_some_iff : readFloat? text = some value ↔ IsDouble text value := by
  rw [readFloat?]
  refine (read_unsigned_iff _).trans ⟨?_, ?_⟩
  · rintro ⟨magnitude, hmagnitude, hvalue⟩
    exact ⟨_, _, magnitude, signed_splitSign text.toList, hmagnitude, hvalue⟩
  · rintro ⟨negative, chars, magnitude, hsign, hmagnitude, hvalue⟩
    have hsplit := hsign.splitSign_eq hmagnitude.head_ne
    exact ⟨magnitude, (congrArg Prod.snd hsplit).symm ▸ hmagnitude,
      (congrArg Prod.fst hsplit).symm ▸ hvalue⟩

example : readFloat? "0.25" = some (.ofScientific 25 true 2) := rfl

end DevicePlacement.Decimal

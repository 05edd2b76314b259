import DevicePlacement.Proofs.Json.Fields

/-!
# Doubles read back

A finite double is written as a number with a point or an exponent (`Decimal.Pointed`). How
numbers are rounded is left open here: that a double is read from its text as it was is what
`Json.ReadsBack` says of a text with nothing else in it. The double then also comes back from
within a document (`Json.ReadsBack.exact`), because its text is read as one number, which is
never taken for a whole one.
-/

namespace DevicePlacement

open Decimal (isDigit digitChars)

/-! ## The text of a double -/

namespace Decimal

variable {c first : Char} {chars whole fraction rest : List Char}

/-- A text of digits and marks that begins as a number and has a point or an exponent. -/
structure Pointed (chars : List Char) : Prop where
  begins : ∃ c tail, chars = c :: tail ∧ (c = '-' ∨ isDigit c = true)
  plain : ∀ c ∈ chars, isDigit c = true ∨ c ∈ ['-', '+', '.', 'e']
  marked : '.' ∈ chars ∨ 'e' ∈ chars

theorem Pointed.minus (h : Pointed chars) : Pointed ('-' :: chars) where
  begins := ⟨_, _, rfl, .inl rfl⟩
  plain := List.forall_mem_cons.2 ⟨.inr List.mem_cons_self, h.plain⟩
  marked := h.marked.imp (List.mem_cons_of_mem _) (List.mem_cons_of_mem _)

/-- Digits with a point among them make a number with a point. -/
theorem pointed_of_point (hwhole : ∀ c ∈ first :: whole, isDigit c = true)
    (hfraction : ∀ c ∈ fraction, isDigit c = true) :
    Pointed (first :: whole ++ '.' :: fraction) where
  begins := ⟨first, _, rfl, .inr (hwhole first List.mem_cons_self)⟩
  plain c hc := by
    rcases List.mem_append.1 hc with hc | hc
    · exact .inl (hwhole c hc)
    rcases List.mem_cons.1 hc with rfl | hc
    · exact .inr (by simp)
    · exact .inl (hfraction c hc)
  marked := .inl (List.mem_append_right _ List.mem_cons_self)

theorem isDigit_of_mem_zeros (count : Nat) :
    ∀ c ∈ List.replicate count '0', isDigit c = true := by
  intro c hc
  rw [List.eq_of_mem_replicate hc]
  rfl

/-- Moderate numbers are written out, with a point even if nothing follows it. -/
theorem pointed_positionalText (hdigits : ∀ c ∈ first :: rest, isDigit c = true) (weight : Int) :
    Pointed (positionalText true (first :: rest) weight) := by
  rw [positionalText]
  by_cases hweight : weight < 0
  · rw [if_pos hweight]
    have hzero : ∀ c ∈ ['0'], isDigit c = true := isDigit_of_mem_zeros 1
    exact pointed_of_point hzero
      (List.forall_mem_append.2 ⟨isDigit_of_mem_zeros (-weight - 1).toNat, hdigits⟩)
  · rw [if_neg hweight]
    -- The first digit stands before the point, with some of the others or with zeros.
    simp only [List.take_succ_cons, List.drop_succ_cons, List.cons_append, if_true]
    obtain ⟨hfirst, hrest⟩ := List.forall_mem_cons.1 hdigits
    have hwhole : ∀ c ∈ first :: (rest.take weight.toNat ++
        List.replicate (weight.toNat + 1 - (first :: rest).length) '0'), isDigit c = true :=
      List.forall_mem_cons.2 ⟨hfirst, List.forall_mem_append.2
        ⟨fun c hc => hrest c (List.mem_of_mem_take hc), isDigit_of_mem_zeros _⟩⟩
    split
    · exact pointed_of_point hwhole (isDigit_of_mem_zeros 1)
    · exact pointed_of_point hwhole fun c hc => hrest c (List.mem_of_mem_drop hc)

/-- Very large and very small numbers are written with an exponent. -/
theorem pointed_scientificText (hdigits : ∀ c ∈ first :: rest, isDigit c = true) (weight : Int) :
    Pointed (scientificText (first :: rest) weight) := by
  obtain ⟨hfirst, hrest⟩ := List.forall_mem_cons.1 hdigits
  have hexponent : ∀ c ∈ 'e' :: (if weight < 0 then '-' else '+') :: digitChars weight.natAbs,
      isDigit c = true ∨ c ∈ ['-', '+', '.', 'e'] := by
    refine List.forall_mem_cons.2 ⟨.inr (by simp), List.forall_mem_cons.2 ⟨.inr ?_, ?_⟩⟩
    · split <;> simp
    · exact fun c hc => .inl (isDigit_of_mem_digitChars hc)
  -- A single digit is written without a point, and then the exponent is the mark.
  cases rest with
  | nil =>
    exact ⟨⟨first, _, rfl, .inr hfirst⟩, List.forall_mem_cons.2 ⟨.inl hfirst, hexponent⟩,
      .inr (by simp [scientificText])⟩
  | cons second rest =>
    refine ⟨⟨first, _, rfl, .inr hfirst⟩, ?_, .inl (by simp [scientificText])⟩
    refine List.forall_mem_cons.2 ⟨.inl hfirst, List.forall_mem_cons.2 ⟨.inr (by simp), ?_⟩⟩
    exact List.forall_mem_append.2 ⟨fun c hc => .inl (hrest c hc), hexponent⟩

/-- Either way there is a point or an exponent. -/
theorem pointed_magnitude (d : Decimal) : Pointed (Json.numberLayout.magnitude d) := by
  have hdigits : ∀ c ∈ digitChars d.digits, isDigit c = true :=
    fun c hc => isDigit_of_mem_digitChars hc
  obtain ⟨first, rest, hchars⟩ := List.exists_cons_of_ne_nil
    (show digitChars d.digits ≠ [] from Nat.toDigits_ne_nil)
  rw [Layout.magnitude]
  rw [hchars] at hdigits ⊢
  simp only [Json.numberLayout]
  split
  · exact pointed_positionalText hdigits _
  · exact pointed_scientificText hdigits _

/-- A double is written as a number with a point or an exponent, or else as `null`. -/
theorem text_eq_null_or_pointed (x : Float) :
    Json.numberLayout.text x = ['n', 'u', 'l', 'l'] ∨ Pointed (Json.numberLayout.text x) := by
  have hsigned {chars : List Char} (negative : Bool) (h : Pointed chars) :
      Pointed (if negative = true then '-' :: chars else chars) := by
    split
    · exact h.minus
    · exact h
  rw [Layout.text]
  cases Binary.ofFloat x with
  | some b => exact .inr (hsigned _ (pointed_magnitude _))
  | none =>
    -- The double is zero, or it is no number, or infinite.
    dsimp only
    split
    · exact .inr (hsigned _ (pointed_of_point (isDigit_of_mem_zeros 1) (isDigit_of_mem_zeros 1)))
    split
    · exact .inl rfl
    split <;> exact .inl rfl

end Decimal

namespace Json

/-! ## Numbers taken off a text -/

namespace Numeral

variable {n : Numeral} {chars after : List Char}

/-- A fraction is taken off the front, and if there is none nothing is taken. -/
theorem exists_of_readFraction {fraction : Option (List Char)}
    (h : readFraction chars = some (fraction, after)) :
    ∃ front, chars = front ++ after ∧ (fraction = none → front = []) := by
  unfold readFraction at h
  split at h
  · next tail =>
    obtain ⟨⟨digits, rest⟩, hdigits, h⟩ := Option.map_eq_some_iff.1 h
    cases h
    obtain ⟨rfl, _⟩ := readDigits_eq_some_iff.1 hdigits
    exact ⟨'.' :: digits, rfl, nofun⟩
  · cases h
    exact ⟨[], rfl, fun _ => rfl⟩

/-- So is a sign. -/
theorem exists_of_splitSign (chars : List Char) :
    ∃ front, chars = front ++ (Decimal.splitSign chars).2 := by
  unfold Decimal.splitSign
  split
  · exact ⟨['-'], rfl⟩
  · exact ⟨['+'], rfl⟩
  · exact ⟨[], rfl⟩

/-- So is an exponent. -/
theorem exists_of_readExponent {exponent : Option (Bool × List Char)}
    (h : readExponent chars = some (exponent, after)) :
    ∃ front, chars = front ++ after ∧ (exponent = none → front = []) := by
  unfold readExponent at h
  split at h
  · next letter tail =>
    split at h
    · obtain ⟨⟨digits, rest⟩, hdigits, h⟩ := Option.map_eq_some_iff.1 h
      cases h
      obtain ⟨hrest, _⟩ := readDigits_eq_some_iff.1 hdigits
      obtain ⟨sign, htail⟩ := exists_of_splitSign tail
      -- What is taken off is the letter, the sign if there is one, and the digits.
      refine ⟨letter :: (sign ++ digits), ?_, nofun⟩
      rw [List.cons_append, List.append_assoc, ← hrest, ← htail]
    · cases h
      exact ⟨[], rfl, fun _ => rfl⟩
  · cases h
    exact ⟨[], rfl, fun _ => rfl⟩

/-- The sign of a number can only be a minus. -/
theorem exists_of_splitMinus (chars : List Char) :
    ∃ front, chars = front ++ (splitMinus chars).2 ∧ ∀ c ∈ front, c = '-' := by
  unfold splitMinus
  split
  · exact ⟨['-'], rfl, fun c hc => List.mem_singleton.1 hc⟩
  · exact ⟨[], rfl, nofun⟩

/-- Whole digits are digits, whether a zero leads or not. -/
theorem readDigits_of_readWhole {digits : List Char} (h : readWhole chars = some (digits, after)) :
    readDigits chars = some (digits, after) := by
  obtain ⟨⟨digits, rest⟩, hdigits, h⟩ := Option.bind_eq_some_iff.1 h
  simp only at h
  split at h
  · cases h
  · cases h
    exact hdigits

/-- A number is taken off the front of a text. If it has neither a fraction nor an exponent,
    it consists of digits, with or without a minus sign. -/
theorem exists_of_read (h : read chars = some (n, after)) :
    ∃ front, chars = front ++ after ∧
      (n.fraction = none → n.exponent = none → ∀ c ∈ front, c = '-' ∨ isDigit c = true) := by
  obtain ⟨⟨whole, afterWhole⟩, hwhole, h⟩ := Option.bind_eq_some_iff.1 h
  obtain ⟨⟨fraction, afterFraction⟩, hfraction, h⟩ := Option.bind_eq_some_iff.1 h
  obtain ⟨⟨exponent, afterExponent⟩, hexponent, h⟩ := Option.bind_eq_some_iff.1 h
  cases h
  obtain ⟨sign, hchars, hsign⟩ := exists_of_splitMinus chars
  obtain ⟨hwhole, _, hdigits, _⟩ :=
    readDigits_eq_some_iff.1 (readDigits_of_readWhole hwhole)
  obtain ⟨point, hpoint, hfraction⟩ := exists_of_readFraction hfraction
  obtain ⟨power, hpower, hexponent⟩ := exists_of_readExponent hexponent
  -- The number is made of four pieces, two of which may be missing.
  refine ⟨sign ++ whole ++ point ++ power, ?_, ?_⟩
  · rw [hchars, hwhole, hpoint, hpower]
    simp only [List.append_assoc]
  · intro hnone hnone'
    rw [hfraction hnone, hexponent hnone', List.append_nil, List.append_nil]
    exact List.forall_mem_append.2
      ⟨fun c hc => .inl (hsign c hc), fun c hc => .inr (hdigits c hc)⟩

/-- Only a number without a fraction and an exponent can be a whole number. -/
theorem value_eq_float (h : ¬ (n.fraction = none ∧ n.exponent = none)) :
    n.value = n.floatValue.map .float := by
  have hwhole : (n.fraction.isNone && n.exponent.isNone) = false := by
    rw [Bool.eq_false_iff]
    simpa using h
  simp [Numeral.value, hwhole]

/-- A text with a point or an exponent is no whole number. -/
theorem value_of_pointed (hpointed : Decimal.Pointed chars) (h : read chars = some (n, [])) :
    n.value = n.floatValue.map .float := by
  refine value_eq_float fun ⟨hfraction, hexponent⟩ => ?_
  obtain ⟨front, hchars, hfront⟩ := exists_of_read h
  rw [List.append_nil] at hchars
  subst hchars
  rcases hpointed.marked with hmark | hmark
  · exact absurd (hfront hfraction hexponent _ hmark) (by decide)
  · exact absurd (hfront hfraction hexponent _ hmark) (by decide)

/-- The text of a double that is read as a number is the text of one, and no `null`. -/
theorem pointed_of_read {x : Float} (h : read (numberLayout.text x) = some (n, after)) :
    Decimal.Pointed (numberLayout.text x) := by
  rcases Decimal.text_eq_null_or_pointed x with hnull | hpointed
  · rw [hnull] at h
    cases h
  · exact hpointed

end Numeral

/-! ## Doubles in documents -/

/-- The fragment of a number. -/
def Numeral.fragment (n : Numeral) : Fragment :=
  match n.value with
  | some (.int value) => .int value
  | some (.float value) => .float value
  | none => .valueless

/-- Where a value is expected, a number is one. -/
theorem step_ofNumeral (n : Numeral) (outer : List Frame) :
    Stage.step (.expectValue outer) (Token.ofNumeral n) = .after n.fragment outer := by
  rw [Token.ofNumeral, Numeral.fragment]
  rcases n.value with _ | (value | value) <;> rfl

/-- A number with nothing but blanks after it is all of the text, as there are no blanks. -/
theorem eq_nil_of_scan_eq_nil {chars rest : List Char} {n : Numeral}
    (hpointed : Decimal.Pointed chars) (hread : Numeral.read chars = some (n, rest))
    (h : Token.scan rest = []) : rest = [] := by
  obtain ⟨front, hchars, _⟩ := Numeral.exists_of_read hread
  refine List.eq_nil_iff_forall_not_mem.2 fun c hc => ?_
  have hblank := Token.isBlank_of_scan_eq_nil h c hc
  rcases hpointed.plain c (hchars ▸ List.mem_append_right front hc) with hdigit | hmark
  · exact Bool.false_ne_true ((Token.plain_of_isDigit hdigit).1.symm.trans hblank)
  · have hmarks : ∀ mark ∈ ['-', '+', '.', 'e'], Token.isBlank mark = false := by
      simp [Token.isBlank]
    exact Bool.false_ne_true ((hmarks c hmark).symm.trans hblank)

/-- A document whose text is that of a finite double is a number. -/
theorem exists_of_ofText_pointed {chars : List Char} {document : Fragment}
    (hpointed : Decimal.Pointed chars)
    (h : Fragment.ofText (String.ofList chars) = (document, true)) :
    ∃ n, Numeral.read chars = some (n, []) ∧ document = n.fragment := by
  obtain ⟨c, tail, hchars, hc⟩ := hpointed.begins
  obtain ⟨hblank, hnext⟩ := Token.next_of_begins hc tail
  rw [Fragment.ofText, String.toList_ofList, hchars] at h
  cases hnumeral : Numeral.read (c :: tail) with
  | none =>
    rw [hnumeral] at hnext
    rw [Token.scan_of_next_eq_none hblank hnext] at h
    cases h
  | some cut =>
    obtain ⟨n, rest⟩ := cut
    rw [hnumeral] at hnext
    -- No token follows the number, as the text is one document and nothing else.
    rw [Token.scan_of_next hblank hnext, List.foldl_cons, step_ofNumeral, finish_after,
      Prod.mk.injEq, List.isEmpty_iff] at h
    rw [← hchars] at hnumeral
    rw [eq_nil_of_scan_eq_nil hpointed hnumeral h.2] at hnumeral
    exact ⟨n, hnumeral, h.1.symm⟩

/-- The double is read from its own text. -/
def ReadsBack (x : Float) : Prop :=
  readText Reader.float (Json.float x).text = .ok x

variable {x : Float}

/-- A double whose text is a number of the same value also comes back within a document. -/
theorem exact_of_floatValue {n : Numeral}
    (hread : Numeral.read (numberLayout.text x) = some (n, [])) (hvalue : n.floatValue = some x) :
    (Json.float x).Exact := by
  refine .float hread ?_
  rw [Numeral.value_of_pointed (Numeral.pointed_of_read hread) hread, hvalue, Option.map_some]

/-- A double is read from its own text if this is a number that is rounded to it. -/
theorem readsBack_iff : ReadsBack x ↔
    ∃ n, Numeral.read (numberLayout.text x) = some (n, []) ∧ n.floatValue = some x := by
  have htext : (Json.float x).text = String.ofList (numberLayout.text x) := rfl
  constructor
  · intro h
    obtain ⟨document, hdocument, hread⟩ := readText_eq_ok.1 h
    rw [htext] at hdocument
    rcases Decimal.text_eq_null_or_pointed x with hnull | hpointed
    · -- No double is read from `null`.
      have hword : String.ofList ['n', 'u', 'l', 'l'] = Json.null.text := rfl
      rw [hnull, hword, ofText_text .null] at hdocument
      cases hdocument
      cases hread
    · obtain ⟨n, hnumeral, rfl⟩ := exists_of_ofText_pointed hpointed hdocument
      refine ⟨n, hnumeral, ?_⟩
      rw [Numeral.fragment, Numeral.value_of_pointed hpointed hnumeral] at hread
      cases hvalue : n.floatValue with
      | none =>
        rw [hvalue] at hread
        cases hread
      | some value =>
        rw [hvalue] at hread
        cases hread
        rfl
  · rintro ⟨n, hread, hvalue⟩
    exact readText_text (exact_of_floatValue hread hvalue) rfl

example : ReadsBack 0.5 :=
  readsBack_iff.2 ⟨⟨false, ['0'], some ['5'], none⟩, by decide +kernel, by decide +kernel⟩

/-- A double that comes back on its own does so inside of a document: what stands around a
    number does not change how it is read. -/
theorem ReadsBack.exact (h : ReadsBack x) : (Json.float x).Exact := by
  obtain ⟨n, hread, hvalue⟩ := readsBack_iff.1 h
  exact exact_of_floatValue hread hvalue

end Json

end DevicePlacement

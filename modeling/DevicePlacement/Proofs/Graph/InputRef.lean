import DevicePlacement.Graph.InputRef
import DevicePlacement.Proofs.Json.Numeral

/-!
# The text form of inputs

The texts that are read as inputs, and what is wrong with all others, are given by a grammar
(`InputRef.Reads`). The caret counts only at the front. A port stands after the last colon,
so what stands before it may hold colons and carets itself. Reading a text is to find its
place in the grammar (`InputRef.ofText_eq_iff`).

An input is written with its port only if this is not zero. Where its name holds a colon, the
text then ends in what looks like a port, or should be one. So what was read is not always
read back: `x:1:0` is the first output of `x:1` and is written `x:1`, which is the second
output of `x`. These are the only inputs that are lost, and the only ones that are written
like another (`InputRef.ofText_text_iff`).
-/

namespace DevicePlacement

/-! ## Numbers in texts -/

namespace Decimal

variable {digits : List Char} {n : Nat}

/-- Digits, at least one, that stand for a number. Zeros may lead. -/
structure Spells (digits : List Char) (n : Nat) : Prop where
  ne_nil : digits ≠ []
  ascii : ∀ c ∈ digits, '0' ≤ c ∧ c ≤ '9'
  value : Nat.ofDigitChars 10 digits 0 = n

/-- The reader takes digits and nothing else. -/
theorem readDigits?_eq_some_iff : readDigits? digits = some n ↔ Spells digits n := by
  rw [readDigits?]
  constructor
  · intro h
    split at h
    · cases h
    next hne =>
    split at h
    · next hall =>
      rw [List.all_eq_true] at hall
      cases h
      exact ⟨by simpa using hne, fun c hc => isDigit_iff.1 (hall c hc),
        (ofDigits_eq_ofDigitChars hall).symm⟩
    · cases h
  · rintro ⟨hne, hascii, rfl⟩
    have hall : ∀ c ∈ digits, isDigit c = true := fun c hc => isDigit_iff.2 (hascii c hc)
    rw [if_neg (by simpa using hne), if_pos (List.all_eq_true.2 hall),
      ofDigits_eq_ofDigitChars hall]

/-- Digits have no plus sign that could be taken off. -/
theorem Spells.dropPlus_eq (h : Spells digits n) : dropPlus digits = digits := by
  cases digits with
  | nil => rfl
  | cons c digits =>
    have hc : c ≠ '+' := by
      rintro rfl
      exact absurd (h.ascii _ List.mem_cons_self) (by decide)
    simp [dropPlus, hc]

/-- The digits that a number is written with stand for it. -/
theorem spells_digitChars (n : Nat) : Spells (digitChars n) n where
  ne_nil := Nat.toDigits_ne_nil
  ascii _ hc := isDigit_iff.1 (isDigit_of_mem_digitChars hc)
  value := Nat.ofDigitChars_toDigits (by decide) (by decide)

/-- A plus sign may stand before the digits. -/
theorem readDigits?_dropPlus_eq_some_iff {chars : List Char} :
    readDigits? (dropPlus chars) = some n ↔
      ∃ digits, (chars = digits ∨ chars = '+' :: digits) ∧ Spells digits n := by
  constructor
  · intro h
    have hsign : chars = dropPlus chars ∨ chars = '+' :: dropPlus chars := by
      fun_cases dropPlus chars with
      | case1 digits => exact .inr rfl
      | case2 => exact .inl rfl
    exact ⟨dropPlus chars, hsign, readDigits?_eq_some_iff.1 h⟩
  · rintro ⟨digits, rfl | rfl, h⟩
    · rw [h.dropPlus_eq]
      exact readDigits?_eq_some_iff.2 h
    · exact readDigits?_eq_some_iff.2 h

end Decimal

namespace InputRef

open Decimal (Spells)

variable {text producer rest : String} {input : InputRef} {port : UInt64}

/-- What may stand after the last colon: digits, perhaps with a plus sign in front, that
    stand for an unsigned 64-bit number. -/
def IsPort (rest : String) (port : UInt64) : Prop :=
  ∃ digits, (rest.toList = digits ∨ rest.toList = '+' :: digits) ∧ Spells digits port.toNat

theorem readUInt64?_eq_some_iff :
    Decimal.readUInt64? rest.toList = some port ↔ IsPort rest port := by
  rw [IsPort, ← Decimal.readDigits?_dropPlus_eq_some_iff]
  cases h : Decimal.readDigits? (Decimal.dropPlus rest.toList) with
  | none => simp [Decimal.readUInt64?, h]
  | some n =>
    -- Digits that stand for too large a number are no port, however they begin.
    have hread : Decimal.readUInt64? rest.toList =
        if n < UInt64.size then some (UInt64.ofNat n) else none := by
      rw [Decimal.readUInt64?, h]
      rfl
    rw [hread, Option.ite_none_right_eq_some, Option.some_inj, Option.some_inj]
    constructor
    · rintro ⟨hlt, rfl⟩
      exact (UInt64.toNat_ofNat_of_lt hlt).symm
    · rintro rfl
      exact ⟨port.toNat_lt_size, UInt64.ofNat_toNat⟩

/-! ## The last colon -/

section SplitLast

variable {separator : Char} {chars before after : List Char}

/-- A text is not split only if the separator is not in it. -/
theorem splitLast_eq_none_iff : splitLast separator chars = none ↔ separator ∉ chars := by
  induction chars with
  | nil => simp [splitLast]
  | cons c chars ih =>
    rw [splitLast, List.mem_cons, not_or, ← ih]
    cases splitLast separator chars with
    | none => simp [eq_comm]
    | some parts => simp

/-- The separator does not come again after its last occurrence. -/
theorem splitLast_eq_some_iff : splitLast separator chars = some (before, after) ↔
    chars = before ++ separator :: after ∧ separator ∉ after := by
  constructor
  · intro h
    induction chars generalizing before with
    | nil => cases h
    | cons c chars ih =>
      rw [splitLast] at h
      -- The split of the rest comes first. Only if there is none does this character count.
      split at h
      · next before' after' hsplit =>
        cases h
        obtain ⟨rfl, hafter⟩ := ih hsplit
        exact ⟨rfl, hafter⟩
      · next hsplit =>
        rw [Option.ite_none_right_eq_some] at h
        obtain ⟨rfl, h⟩ := h
        cases h
        exact ⟨rfl, splitLast_eq_none_iff.1 hsplit⟩
  · rintro ⟨rfl, hafter⟩
    induction before with
    | nil => rw [List.nil_append, splitLast, splitLast_eq_none_iff.2 hafter]; exact if_pos rfl
    | cons c before ih => rw [List.cons_append, splitLast, ih]

end SplitLast

/-! ## The grammar -/

/-- A text that is not empty and does not begin with a caret, like those of data inputs and
    their names. -/
structure IsDataText (text : String) : Prop where
  ne_empty : text ≠ ""
  no_caret : text.toList.head? ≠ some '^'

/-- What a text is read as: an input, or the report of what is wrong with it. -/
inductive Reads (text : String) : Except String InputRef → Prop
  /-- A caret and a name. -/
  | control {producer : String} (htext : text = "^" ++ producer) (hname : producer ≠ "") :
      Reads text (.ok (.control producer))
  /-- A name without colons, which means its first output. -/
  | plain (hname : IsDataText text) (hcolon : ':' ∉ text.toList) : Reads text (.ok (.data text 0))
  /-- A name, the last colon and a port. -/
  | ported {producer rest : String} {port : UInt64} (htext : text = producer ++ ":" ++ rest)
      (hname : IsDataText producer) (hcolon : ':' ∉ rest.toList) (hport : IsPort rest port) :
      Reads text (.ok (.data producer port))
  /-- A caret alone. -/
  | noControlProducer (htext : text = "^") :
      Reads text (.error "control input without producer name")
  | empty (htext : text = "") : Reads text (.error "empty input reference")
  /-- No name before the last colon. -/
  | noProducer {rest : String} (htext : text = ":" ++ rest) (hcolon : ':' ∉ rest.toList) :
      Reads text (.error ("invalid input reference '" ++ text ++ "'"))
  /-- A name and the last colon, but no port. -/
  | badPort {producer rest : String} (htext : text = producer ++ ":" ++ rest)
      (hname : IsDataText producer) (hcolon : ':' ∉ rest.toList)
      (hport : ∀ port, ¬ IsPort rest port) :
      Reads text (.error ("invalid output port in input '" ++ text ++ "'"))

/-! ## Reading by the grammar -/

theorem IsDataText.ne_nil (h : IsDataText producer) : producer.toList ≠ [] :=
  mt String.toList_eq_nil_iff.1 h.ne_empty

/-- Only how a text begins counts. -/
theorem isDataText_append_iff (hname : producer ≠ "") (rest : String) :
    IsDataText (producer ++ rest) ↔ IsDataText producer := by
  have hchars : producer.toList ≠ [] := mt String.toList_eq_nil_iff.1 hname
  have hhead : (producer ++ rest).toList.head? = producer.toList.head? := by
    rw [String.toList_append, List.head?_append_of_ne_nil _ hchars]
  constructor
  · intro h
    exact ⟨hname, hhead ▸ h.no_caret⟩
  · intro h
    exact ⟨fun hempty => hname (String.append_eq_empty_iff.1 hempty).1, hhead ▸ h.no_caret⟩

/-- The front of a text decides whether it can be that of a data input. -/
theorem IsDataText.append (h : IsDataText producer) (rest : String) :
    IsDataText (producer ++ rest) :=
  (isDataText_append_iff h.ne_empty rest).2 h

/-- What follows a caret is a name as a whole, with all its colons. -/
theorem ofText_of_caret (htext : text = "^" ++ producer) (hname : producer ≠ "") :
    ofText text = .ok (.control producer) := by
  have hchars : text.toList = '^' :: producer.toList := by simp [htext]
  rw [ofText, hchars]
  split
  · next h => cases h
  · next h => exact absurd (String.toList_eq_nil_iff.1 (List.cons.inj h).2) hname
  · next h =>
    rw [← (List.cons.inj h).2, String.ofList_toList]
  · next h => exact absurd rfl (h _)

/-- A text without a caret is that of a data input, or of none. -/
theorem IsDataText.ofText_eq (h : IsDataText text) : ofText text = ofDataText text := by
  have hcaret := h.no_caret
  rw [ofText]
  split
  · next hchars => exact absurd hchars h.ne_nil
  · next hchars => simp [hchars] at hcaret
  · next hchars => simp [hchars] at hcaret
  · rfl

/-- A name without colons means the first output. -/
theorem ofDataText_of_no_colon (hcolon : ':' ∉ text.toList) :
    ofDataText text = .ok (.data text 0) := by
  rw [ofDataText, splitLast_eq_none_iff.2 hcolon]

/-- With nothing before its only colon, a text names no producer. -/
theorem ofDataText_of_no_producer (htext : text = ":" ++ rest) (hcolon : ':' ∉ rest.toList) :
    ofDataText text = .error (.noProducer text) := by
  have hsplit : splitLast ':' text.toList = some ([], rest.toList) :=
    splitLast_eq_some_iff.2 ⟨by simp [htext], hcolon⟩
  rw [ofDataText, hsplit]

section Colon

variable (htext : text = producer ++ ":" ++ rest) (hcolon : ':' ∉ rest.toList)

include htext hcolon

/-- The last colon is the one with no colon after it. -/
theorem splitLast_of_colon :
    splitLast ':' text.toList = some (producer.toList, rest.toList) :=
  splitLast_eq_some_iff.2 ⟨by simp [htext], hcolon⟩

/-- What follows the last colon is read as a port. -/
theorem ofDataText_of_producer (hname : producer ≠ "") :
    ofDataText text = match Decimal.readUInt64? rest.toList with
      | some port => .ok (.data producer port)
      | none => .error (.badPort text) := by
  have hchars : producer.toList ≠ [] := mt String.toList_eq_nil_iff.1 hname
  rw [ofDataText, splitLast_of_colon htext hcolon]
  split
  · next h => cases h
  · next h => exact absurd (Prod.mk.inj (Option.some.inj h)).1 hchars
  · next h =>
    obtain ⟨rfl, rfl⟩ := Prod.mk.inj (Option.some.inj h)
    cases Decimal.readUInt64? rest.toList with
    | none => rfl
    | some port => simp only [String.ofList_toList]

end Colon

/-- What the grammar says of a text is what it is read as. -/
theorem ofText_of_reads {reading : Except String InputRef} (h : Reads text reading) :
    (ofText text).mapError Flaw.message = reading := by
  cases h with
  | control htext hname => rw [ofText_of_caret htext hname]; rfl
  | plain hname hcolon => rw [hname.ofText_eq, ofDataText_of_no_colon hcolon]; rfl
  | ported htext hname hcolon hport =>
    have hdata : IsDataText text := by rw [htext, String.append_assoc]; exact hname.append _
    rw [hdata.ofText_eq, ofDataText_of_producer htext hcolon hname.ne_empty,
      readUInt64?_eq_some_iff.2 hport]
    rfl
  | noControlProducer htext => rw [htext]; rfl
  | empty htext => rw [htext]; rfl
  | noProducer htext hcolon =>
    have hdata : IsDataText text := by rw [htext]; exact .append ⟨by decide, by decide⟩ _
    rw [hdata.ofText_eq, ofDataText_of_no_producer htext hcolon]
    rfl
  | @badPort _ rest htext hname hcolon hport =>
    have hdata : IsDataText text := by rw [htext, String.append_assoc]; exact hname.append _
    -- What cannot be a port is not read as one.
    have hnone : Decimal.readUInt64? rest.toList = none := by
      rw [Option.eq_none_iff_forall_ne_some]
      exact fun port h => hport port (readUInt64?_eq_some_iff.1 h)
    rw [hdata.ofText_eq, ofDataText_of_producer htext hcolon hname.ne_empty, hnone]
    rfl

/-- The grammar has a place for every text that does not begin with a caret. -/
theorem exists_reads_of_data (h : IsDataText text) : ∃ reading, Reads text reading := by
  -- The text is cut at its last colon, if it has one.
  cases hsplit : splitLast ':' text.toList with
  | none => exact ⟨_, .plain h (splitLast_eq_none_iff.1 hsplit)⟩
  | some parts =>
    obtain ⟨hchars, hcolon⟩ := splitLast_eq_some_iff.1 hsplit
    obtain ⟨producer, hproducer⟩ : ∃ producer : String, producer.toList = parts.1 :=
      ⟨_, String.toList_ofList⟩
    obtain ⟨rest, hrest⟩ : ∃ rest : String, rest.toList = parts.2 := ⟨_, String.toList_ofList⟩
    have htext : text = producer ++ ":" ++ rest := by
      rw [← String.toList_inj, hchars]
      simp [hproducer, hrest]
    rw [← hrest] at hcolon
    by_cases hname : producer = ""
    · exact ⟨_, .noProducer (by rw [htext, hname, String.empty_append]) hcolon⟩
    rw [htext, String.append_assoc, isDataText_append_iff hname] at h
    by_cases hport : ∃ port, IsPort rest port
    · obtain ⟨port, hport⟩ := hport
      exact ⟨_, .ported htext h hcolon hport⟩
    · exact ⟨_, .badPort htext h hcolon (not_exists.1 hport)⟩

/-- Every text has a place in the grammar. -/
theorem exists_reads (text : String) : ∃ reading, Reads text reading := by
  by_cases hempty : text = ""
  · exact ⟨_, .empty hempty⟩
  by_cases hcaret : text.toList.head? = some '^'
  · obtain ⟨chars, hchars⟩ := List.head?_eq_some_iff.1 hcaret
    have htext : text = "^" ++ String.ofList chars := by
      rw [← String.toList_inj, hchars]
      simp
    by_cases hname : String.ofList chars = ""
    · exact ⟨_, .noControlProducer (by rw [htext, hname, String.append_empty])⟩
    · exact ⟨_, .control htext hname⟩
  · exact exists_reads_of_data ⟨hempty, hcaret⟩

/-- What the reader answers has its place in the grammar, be it an input or a report. -/
theorem reads_ofText (text : String) : Reads text ((ofText text).mapError Flaw.message) := by
  obtain ⟨reading, hreads⟩ := exists_reads text
  rw [ofText_of_reads hreads]
  exact hreads

/-- A text is read as an input exactly if it has the form of this input. -/
theorem ofText_eq_ok_iff : ofText text = .ok input ↔ Reads text (.ok input) := by
  constructor
  · intro h
    have hreads := reads_ofText text
    rw [h] at hreads
    exact hreads
  · intro h
    have hread := ofText_of_reads h
    cases hof : ofText text with
    | ok other => rw [hof] at hread; cases hread; rfl
    | error flaw => rw [hof] at hread; cases hread

/-- A text is read as the grammar says: as an input if it has the form of one, and otherwise
    with a report of what is wrong. -/
theorem ofText_eq_iff {text : String} {reading : Except String InputRef} :
    (ofText text).mapError Flaw.message = reading ↔ Reads text reading :=
  ⟨fun h => h ▸ reads_ofText text, ofText_of_reads⟩

/-! ## Written and read back -/

/-- The name of an input can stand in a text: it is not empty and, for data, does not begin
    with a caret. -/
def IsNameable : InputRef → Prop
  | data producer _ => IsDataText producer
  | control producer => producer ≠ ""

/-- The port of an input is left out in writing, although its name holds a colon. -/
def Garbled : InputRef → Prop
  | data producer port => port = 0 ∧ ':' ∈ producer.toList
  | control _ => False

/-- An input is written with its port, and another one has all of this text as its name. -/
def Shadows (input other : InputRef) : Prop :=
  other = .data input.text 0 ∧ ∃ producer port, port ≠ 0 ∧ input = .data producer port

/-- Only inputs whose name can stand in a text come out of one. -/
theorem isNameable_of_ofText (h : ofText text = .ok input) : input.IsNameable := by
  cases ofText_eq_ok_iff.1 h with
  | control _ hname => exact hname
  | plain hname _ => exact hname
  | ported _ hname _ _ => exact hname

/-- The port of a first output is not written. -/
theorem text_data_zero (producer : String) : (data producer 0).text = producer := by
  rw [InputRef.text, if_pos rfl]

theorem text_control (producer : String) : (control producer).text = "^" ++ producer := by
  rw [← String.toList_inj]
  simp [InputRef.text]

/-- Every other port is written after a colon. -/
theorem text_data_of_ne_zero (producer : String) (h : port ≠ 0) : (data producer port).text =
    producer ++ ":" ++ String.ofList (Decimal.digitChars port.toNat) := by
  rw [← String.toList_inj]
  simp [InputRef.text, h, Decimal.digitChars]

/-- A port is written with the digits that it is read from. -/
theorem isPort_digitChars (port : UInt64) :
    IsPort (String.ofList (Decimal.digitChars port.toNat)) port :=
  ⟨_, .inl String.toList_ofList, Decimal.spells_digitChars port.toNat⟩

/-- Digits hold no colon, so the last one stands before them. -/
theorem colon_not_mem_digitChars (n : Nat) :
    ':' ∉ (String.ofList (Decimal.digitChars n)).toList := by
  rw [String.toList_ofList]
  intro hcolon
  exact absurd (Decimal.isDigit_of_mem_digitChars hcolon) (by decide)

/-- The text of an input has the form of it, unless the name ends in what looks like a port. -/
theorem reads_text (h : input.IsNameable) (hg : ¬ input.Garbled) :
    Reads input.text (.ok input) := by
  cases input with
  | control producer => exact .control (text_control producer) h
  | data producer port =>
    by_cases hport : port = 0
    · subst hport
      rw [text_data_zero]
      exact .plain h fun hcolon => hg ⟨rfl, hcolon⟩
    · exact .ported (text_data_of_ne_zero producer hport) h (colon_not_mem_digitChars _)
        (isPort_digitChars port)

/-- A name with a colon is cut at its last colon, so that it is never read as a whole. -/
theorem not_reads_text (hg : input.Garbled) : ¬ Reads input.text (.ok input) := by
  cases input with
  | control producer => exact hg.elim
  | data producer port =>
    obtain ⟨rfl, hcolon⟩ := hg
    rw [text_data_zero]
    intro h
    cases h with
    | plain _ hno => exact hno hcolon
    | ported htext _ _ _ =>
      have hlength := congrArg String.length htext
      have hcolon : ":".length = 1 := rfl
      rw [String.length_append, String.length_append] at hlength
      omega

/-- Written like an input whose port is left out are only the input itself and one that
    writes the port. -/
theorem eq_or_shadows_of_garbled {other : InputRef} (h : input.IsNameable) (hg : input.Garbled)
    (htext : input.text = other.text) : input = other ∨ other.Shadows input := by
  cases input with
  | control producer => exact hg.elim
  | data producer port =>
    obtain ⟨rfl, _⟩ := hg
    rw [text_data_zero] at htext
    -- The port was left out, so the text is all name.
    cases other with
    | control name =>
      rw [text_control] at htext
      exact absurd (by simp [htext]) h.no_caret
    | data name port =>
      by_cases hport : port = 0
      · subst hport
        rw [text_data_zero] at htext
        exact .inl (by rw [htext])
      · exact .inr ⟨by rw [htext], name, port, hport, rfl⟩

/-- Of the inputs that can be written, only garbled ones are lost. -/
theorem ofText_text_of_nameable (h : input.IsNameable) :
    ofText input.text = .ok input ↔ ¬ input.Garbled := by
  rw [ofText_eq_ok_iff]
  exact ⟨fun hback hg => not_reads_text hg hback, reads_text h⟩

/-- Two inputs are written alike only if one has the text of the other as its name. -/
theorem text_eq_text_iff {other : InputRef} (h : input.IsNameable) (h' : other.IsNameable) :
    input.text = other.text ↔ input = other ∨ input.Shadows other ∨ other.Shadows input := by
  constructor
  · intro htext
    by_cases hg : input.Garbled
    · rcases eq_or_shadows_of_garbled h hg htext with heq | hshadows
      · exact .inl heq
      · exact .inr (.inr hshadows)
    by_cases hg' : other.Garbled
    · rcases eq_or_shadows_of_garbled h' hg' htext.symm with heq | hshadows
      · exact .inl heq.symm
      · exact .inr (.inl hshadows)
    -- Both are read back from the one text.
    have hback := (ofText_text_of_nameable h).2 hg
    rw [htext, (ofText_text_of_nameable h').2 hg'] at hback
    exact .inl (Except.ok.inj hback).symm
  · rintro (rfl | ⟨rfl, _⟩ | ⟨rfl, _⟩)
    · rfl
    · exact (text_data_zero _).symm
    · exact text_data_zero _

/-- An input that was read is written as a text that is read as the same input, unless its
    port is left out although its name holds a colon. Only then may it be written like
    another. -/
theorem ofText_text_iff {text text' : String} {input input' : InputRef}
    (h : ofText text = .ok input) (h' : ofText text' = .ok input') :
    (ofText input.text = .ok input ↔ ¬ input.Garbled) ∧
      (input.text = input'.text ↔
        input = input' ∨ input.Shadows input' ∨ input'.Shadows input) :=
  ⟨ofText_text_of_nameable (isNameable_of_ofText h),
    text_eq_text_iff (isNameable_of_ofText h) (isNameable_of_ofText h')⟩

/-- The third output of `scope:mm` is read back. The first output of `scope:mm:2` is written
    like it, and so it is not. -/
theorem ofText_text_iff_scope :
    ofText "scope:mm:+02" = .ok (.data "scope:mm" 2) ∧
      ofText "scope:mm:2:0" = .ok (.data "scope:mm:2" 0) ∧
      ofText (data "scope:mm" 2).text = .ok (data "scope:mm" 2) ∧
      (data "scope:mm" 2).text = (data "scope:mm:2" 0).text := by
  have h : ofText "scope:mm:+02" = .ok (.data "scope:mm" 2) := by decide +kernel
  have h' : ofText "scope:mm:2:0" = .ok (.data "scope:mm:2" 0) := by decide +kernel
  have hg : ¬ (data "scope:mm" 2).Garbled := fun hg => absurd hg.1 (by decide)
  have hshadows : (data "scope:mm" 2).Shadows (data "scope:mm:2" 0) :=
    ⟨by decide +kernel, "scope:mm", 2, by decide, rfl⟩
  obtain ⟨hback, halike⟩ := ofText_text_iff h h'
  exact ⟨h, h', hback.2 hg, halike.2 (.inr (.inl hshadows))⟩

/-- Two inputs that were read are written alike, and only one of them is read back. -/
theorem ofText_text_can_differ :
    ofText "x:1:0" = .ok (.data "x:1" 0) ∧ ofText "x:1" = .ok (.data "x" 1) ∧
      (data "x:1" 0).text = "x:1" ∧ (data "x" 1).text = "x:1" ∧
      ofText (data "x:1" 0).text ≠ .ok (.data "x:1" 0) := by
  decide +kernel

end InputRef

end DevicePlacement

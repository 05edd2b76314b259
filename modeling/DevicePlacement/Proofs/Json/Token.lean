import DevicePlacement.Json.Token
import DevicePlacement.Proofs.Json.Numeral

/-!
# Documents are cut into their tokens

A document is written as its tokens (`Json.tokens`) with blanks between them, and scanning
the text gives the tokens back (`scan_layOut`). Strings come back as they were, whatever
characters they hold (`Quoted.read_escape`). Numbers come back if they read back on their
own (`Json.Exact`), because no number is followed by something that would go on with it.
-/

namespace DevicePlacement.Json

/-! ## Strings -/

namespace Quoted

/-- A character that is not escaped stands for itself. -/
theorem read_of_plain {c : Char} (hquote : c ≠ '"') (hescape : c ≠ '\\') (hcontrol : 32 ≤ c.toNat)
    (rest : List Char) : read (c :: rest) = (read rest).map (Found.cons (some c)) := by
  rw [read.eq_def]
  simp only [if_neg hquote, if_neg hescape, if_neg (Nat.not_lt.2 hcontrol)]

/-- A backslash and a letter stand for one character. -/
theorem read_of_letter {letter c : Char} (h : unescape? letter = some c) (rest : List Char) :
    read ('\\' :: letter :: rest) = (read rest).map (Found.cons (some c)) := by
  rw [read.eq_def]
  simp only [if_neg (show '\\' ≠ '"' by decide), if_true]
  split
  · next hletter => cases hletter; cases h
  · next hletter => cases hletter; rw [h]
  · next hletter => cases hletter

/-- The hexadecimal digits of a control character are read as its number. -/
theorem hexValue4?_digitChar : ∀ unit < 32,
    hexValue4? '0' '0' (Nat.digitChar (unit / 16)) (Nat.digitChar (unit % 16)) = some unit := by
  decide

/-- So a control character is read back from the four digits of its escape. -/
theorem read_of_unit {c : Char} (hcontrol : c.toNat < 32) (rest : List Char) :
    read ('\\' :: 'u' :: '0' :: '0' :: Nat.digitChar (c.toNat / 16) ::
      Nat.digitChar (c.toNat % 16) :: rest) = (read rest).map (Found.cons (some c)) := by
  have hleading : isLeading c.toNat = false := by simp [isLeading]; omega
  have htrailing : isTrailing c.toNat = false := by simp [isTrailing]; omega
  rw [read.eq_def]
  simp [hexValue4?_digitChar c.toNat hcontrol, hleading, htrailing]

/-- A character is read back from the way it is written in a string. -/
theorem read_escape (c : Char) (rest : List Char) :
    read (escape c ++ rest) = (read rest).map (Found.cons (some c)) := by
  unfold escape
  split_ifs with h1 h2 h3 h4 h5 h6 h7 hcontrol
  · exact read_of_letter (by rw [h1]; rfl) rest
  · exact read_of_letter (by rw [h2]; rfl) rest
  · exact read_of_letter (by rw [h3]; rfl) rest
  · exact read_of_letter (by rw [h4]; rfl) rest
  · exact read_of_letter (by rw [h5]; rfl) rest
  · exact read_of_letter (by rw [h6]; rfl) rest
  · exact read_of_letter (by rw [h7]; rfl) rest
  · exact read_of_unit hcontrol rest
  · exact read_of_plain h1 h2 (Nat.not_lt.1 hcontrol) rest

/-- A string is read back up to the quote that ends it, whatever it holds. -/
theorem read_escaped (chars rest : List Char) :
    read (chars.flatMap escape ++ '"' :: rest) = some (some chars, rest) := by
  induction chars with
  | nil => rw [List.flatMap_nil, List.nil_append, read.eq_def]; rfl
  | cons c chars ih =>
    rw [List.flatMap_cons, List.append_assoc, read_escape, ih]
    rfl

end Quoted

/-! ## Tokens of a text -/

namespace Token

variable {c : Char} {chars rest : List Char} {token : Token}

theorem scan_nil : scan [] = [] := by
  rw [scan.eq_def]

/-- Blanks are passed over. -/
theorem scan_of_blank (h : isBlank c = true) (chars : List Char) :
    scan (c :: chars) = scan chars := by
  rw [scan.eq_def]
  simp only [if_pos h]

/-- A token is taken off the front, and the rest is scanned. -/
theorem scan_of_next (hblank : isBlank c = false) (h : next c chars = some (token, rest)) :
    scan (c :: chars) = token :: scan rest := by
  rw [scan.eq_def]
  simp only [hblank, Bool.false_eq_true, if_false]
  split
  · next hnext => cases h.symm.trans hnext; rfl
  · next hnext => cases h.symm.trans hnext

/-- Where no token begins, the scan ends in a broken one. -/
theorem scan_of_next_eq_none (hblank : isBlank c = false) (h : next c chars = none) :
    scan (c :: chars) = [.broken] := by
  rw [scan.eq_def]
  simp only [hblank, Bool.false_eq_true, if_false]
  split
  · next hnext => cases h.symm.trans hnext
  · rfl

/-- Only blanks have no tokens. -/
theorem isBlank_of_scan_eq_nil (h : scan chars = []) : ∀ c ∈ chars, isBlank c = true := by
  induction chars with
  | nil => exact nofun
  | cons c chars ih =>
    by_cases hblank : isBlank c = true
    · rw [scan_of_blank hblank] at h
      exact List.forall_mem_cons.2 ⟨hblank, ih h⟩
    · rw [Bool.not_eq_true] at hblank
      cases hnext : next c chars with
      | none => cases (scan_of_next_eq_none hblank hnext).symm.trans h
      | some cut => cases (scan_of_next hblank hnext).symm.trans h

theorem scan_of_punctuation (hblank : isBlank c = false) (h : punctuation? c = some token)
    (rest : List Char) : scan (c :: rest) = token :: scan rest :=
  scan_of_next hblank (by rw [next, h])

/-- A line break and its indentation are blank. -/
theorem scan_newline (level : Nat) (rest : List Char) :
    scan (newline level ++ rest) = scan rest := by
  rw [newline, List.cons_append, scan_of_blank rfl]
  induction 2 * level with
  | zero => rfl
  | succ count ih => rw [List.replicate_succ, List.cons_append, scan_of_blank rfl, ih]

/-- A quoted string is one token. -/
theorem scan_quote (s : String) (rest : List Char) :
    scan (quote s ++ rest) = .string s :: scan rest := by
  have hread : Quoted.read (s.toList.flatMap escape ++ ['"'] ++ rest) =
      some (some s.toList, rest) := by
    rw [List.append_assoc, List.singleton_append, Quoted.read_escaped]
  have hnext : next '"' (s.toList.flatMap escape ++ ['"'] ++ rest) = some (.string s, rest) := by
    rw [next, hread]
    simp [punctuation?, ofCharacters]
  exact scan_of_next rfl hnext

/-- A digit begins a number and nothing else. -/
theorem plain_of_isDigit (h : Decimal.isDigit c = true) :
    isBlank c = false ∧ punctuation? c = none ∧ c ≠ '"' := by
  have hne (other : Char) (hother : Decimal.isDigit other = false) : c ≠ other := by
    rintro rfl
    exact Bool.false_ne_true (hother.symm.trans h)
  refine ⟨?_, ?_, hne _ rfl⟩
  · simp [isBlank, hne ' ' rfl, hne '\n' rfl, hne '\t' rfl, hne '\r' rfl]
  · simp [punctuation?, hne '[' rfl, hne ']' rfl, hne '\x7b' rfl, hne '\x7d' rfl, hne ',' rfl,
      hne ':' rfl]

/-- A text that begins as a number does is cut there into a number and the rest. -/
theorem next_of_begins (h : c = '-' ∨ Decimal.isDigit c = true) (chars : List Char) :
    isBlank c = false ∧
      next c chars = (Numeral.read (c :: chars)).map fun (n, rest) => (ofNumeral n, rest) := by
  have hplain : isBlank c = false ∧ punctuation? c = none ∧ c ≠ '"' := by
    rcases h with rfl | hdigit
    · exact ⟨rfl, rfl, by decide⟩
    · exact plain_of_isDigit hdigit
  refine ⟨hplain.1, ?_⟩
  rw [next, hplain.2.1]
  simp only [if_neg hplain.2.2, if_pos h]

/-- A number is scanned as the token of its value. -/
theorem scan_numeral {n : Numeral} (h : Numeral.read chars = some (n, []))
    (hr : Numeral.Ends rest) : scan (chars ++ rest) = ofNumeral n :: scan rest := by
  have hread := Numeral.read_append h hr
  obtain ⟨c, tail, rfl, hc⟩ := Numeral.exists_cons_of_read h
  rw [List.cons_append] at hread ⊢
  obtain ⟨hblank, hnext⟩ := next_of_begins hc (tail ++ rest)
  exact scan_of_next hblank (by rw [hnext, hread, Option.map_some])

end Token

/-! ## Documents -/

mutual

/-- The tokens of a document. -/
def tokens : Json → List Token
  | null => [.null]
  | bool value => [.bool value]
  | int value => [.int value]
  | float value => [.float value]
  | string value => [.string value]
  | array [] => [.openArray, .closeArray]
  | array (item :: items) => .openArray :: (tokens item ++ itemTokens items)
  | object [] => [.openObject, .closeObject]
  | object ((key, value) :: members) =>
    .openObject :: .string key :: .colon :: (tokens value ++ memberTokens members)

/-- The tokens of the items of an array after the first, and of its end. -/
def itemTokens : List Json → List Token
  | [] => [.closeArray]
  | item :: items => .comma :: (tokens item ++ itemTokens items)

/-- The tokens of the members of an object after the first, and of its end. -/
def memberTokens : List (String × Json) → List Token
  | [] => [.closeObject]
  | (key, value) :: members =>
    .comma :: .string key :: .colon :: (tokens value ++ memberTokens members)

end

/-- All numbers of a document read back on their own: whole numbers fit 64 bits, signed or
    unsigned, and the text of a double is a number with the same value. -/
inductive Exact : Json → Prop
  | null : Exact null
  | bool (value : Bool) : Exact (bool value)
  | int {value : Int} : Int64.minValue.toInt ≤ value → value < UInt64.size → Exact (int value)
  | float {value : Float} {n : Numeral} : Numeral.read (numberLayout.text value) = some (n, []) →
      n.value = some (.float value) → Exact (float value)
  | string (value : String) : Exact (string value)
  | array {items : List Json} : (∀ item ∈ items, Exact item) → Exact (array items)
  | object {members : List (String × Json)} : (∀ member ∈ members, Exact member.2) →
      Exact (object members)

/-- Scanning the text of a document gives its tokens, whatever comes after it. -/
def ScansBack (json : Json) : Prop :=
  ∀ level rest, Numeral.Ends rest →
    Token.scan (layOut level json ++ rest) = json.tokens ++ Token.scan rest

open Token

/-- No number goes on over a line break. -/
theorem ends_newline (level : Nat) (rest : List Char) : Numeral.Ends (newline level ++ rest) :=
  Numeral.ends_cons (by decide)

/-- Nor does it go on into the items that follow, as a line break or a comma comes first. -/
theorem ends_layOutItems (level : Nat) (items : List Json) (rest : List Char) :
    Numeral.Ends (layOutItems level items ++ rest) := by
  cases items with
  | nil =>
    rw [layOutItems, List.append_assoc]
    exact ends_newline level _
  | cons item items =>
    rw [layOutItems]
    exact Numeral.ends_cons (by decide)

/-- Nor into the members that follow. -/
theorem ends_layOutMembers (level : Nat) (members : List (String × Json)) (rest : List Char) :
    Numeral.Ends (layOutMembers level members ++ rest) := by
  cases members with
  | nil =>
    rw [layOutMembers, List.append_assoc]
    exact ends_newline level _
  | cons member members =>
    rw [layOutMembers]
    exact Numeral.ends_cons (by decide)

/-- Items that scan back do so one after the other, up to the closing bracket. -/
theorem scan_layOutItems {items : List Json} (h : ∀ item ∈ items, item.ScansBack) (level : Nat)
    (rest : List Char) :
    scan (layOutItems level items ++ rest) = itemTokens items ++ scan rest := by
  induction items with
  | nil =>
    rw [layOutItems, itemTokens, List.append_assoc, scan_newline]
    exact scan_of_punctuation rfl rfl rest
  | cons item items ih =>
    rw [layOutItems, itemTokens, List.cons_append, scan_of_punctuation rfl rfl, List.append_assoc,
      List.append_assoc, scan_newline,
      h item List.mem_cons_self _ _ (ends_layOutItems level items rest),
      ih fun item hitem => h item (List.mem_cons_of_mem _ hitem), List.cons_append,
      List.append_assoc]

/-- The tokens of a member. -/
theorem scan_member {value : Json} (h : value.ScansBack) (level : Nat) (key : String)
    {rest : List Char} (hr : Numeral.Ends rest) :
    scan (newline level ++ (quote key ++ ':' :: ' ' :: (layOut level value ++ rest))) =
      .string key :: .colon :: (value.tokens ++ scan rest) := by
  rw [scan_newline, scan_quote, scan_of_punctuation rfl rfl, scan_of_blank rfl, h level rest hr]

/-- So do members, up to the closing brace. -/
theorem scan_layOutMembers {members : List (String × Json)}
    (h : ∀ member ∈ members, member.2.ScansBack) (level : Nat) (rest : List Char) :
    scan (layOutMembers level members ++ rest) = memberTokens members ++ scan rest := by
  induction members with
  | nil =>
    rw [layOutMembers, memberTokens, List.append_assoc, scan_newline]
    exact scan_of_punctuation rfl rfl rest
  | cons member members ih =>
    obtain ⟨key, value⟩ := member
    have hvalue : value.ScansBack := h (key, value) List.mem_cons_self
    have hmember := scan_member hvalue (level + 1) key (ends_layOutMembers level members rest)
    rw [ih fun member hmember => h member (List.mem_cons_of_mem _ hmember)] at hmember
    rw [layOutMembers, memberTokens, List.cons_append, scan_of_punctuation rfl rfl]
    simpa only [List.append_assoc, List.cons_append] using congrArg (List.cons Token.comma) hmember

/-- A document is scanned as its tokens. -/
theorem scan_layOut {json : Json} (h : json.Exact) : json.ScansBack := by
  -- The induction is over the document, with any indentation and any text behind it.
  induction h with
  | null => exact fun level rest _ => scan_of_next rfl rfl
  | bool value => cases value <;> exact fun level rest _ => scan_of_next rfl rfl
  | @int value hmin hmax =>
    intro level rest hr
    have hscan := scan_numeral (Numeral.read_intText value) hr
    rwa [ofNumeral, Numeral.value_of_int hmin hmax] at hscan
  | float hread hvalue =>
    intro level rest hr
    have hscan := scan_numeral hread hr
    rwa [ofNumeral, hvalue] at hscan
  | string value => exact fun level rest _ => scan_quote value rest
  | @array items _ ih =>
    intro level rest _
    cases items with
    | nil =>
      rw [layOut, tokens, List.cons_append, scan_of_punctuation rfl rfl]
      exact congrArg _ (scan_of_punctuation rfl rfl rest)
    | cons item items =>
      rw [layOut, tokens, List.cons_append, scan_of_punctuation rfl rfl, List.append_assoc,
        List.append_assoc, scan_newline,
        ih item List.mem_cons_self _ _ (ends_layOutItems level items rest),
        scan_layOutItems fun item hitem => ih item (List.mem_cons_of_mem _ hitem),
        List.cons_append, List.append_assoc]
  | @object members _ ih =>
    intro level rest _
    cases members with
    | nil =>
      rw [layOut, tokens, List.cons_append, scan_of_punctuation rfl rfl]
      exact congrArg _ (scan_of_punctuation rfl rfl rest)
    | cons member members =>
      obtain ⟨key, value⟩ := member
      have hvalue : value.ScansBack := ih (key, value) List.mem_cons_self
      have hmember := scan_member hvalue (level + 1) key (ends_layOutMembers level members rest)
      rw [scan_layOutMembers fun member hmember => ih member (List.mem_cons_of_mem _ hmember)]
        at hmember
      rw [layOut, tokens, List.cons_append, scan_of_punctuation rfl rfl]
      simpa only [List.append_assoc, List.cons_append] using
        congrArg (List.cons Token.openObject) hmember

end DevicePlacement.Json

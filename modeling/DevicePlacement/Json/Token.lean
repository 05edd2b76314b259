import DevicePlacement.Json.Numeral
import DevicePlacement.Json.Quoted

/-!
# Tokens of JSON text

A text is cut into tokens from left to right: brackets, commas and colons,
the three words, numbers and strings, with blanks between them (`Token.scan`).
Where no token begins, a `broken` one ends the list, whatever text follows.

Two tokens stand for what may only be passed over: a number beyond the range of
doubles (`Token.hugeNumber`) and a string with a lone surrogate
(`Token.loneSurrogate`) are well formed, but have no value.
-/

namespace DevicePlacement.Json

/-- A token of JSON text. -/
inductive Token
  | openArray
  | closeArray
  | openObject
  | closeObject
  | comma
  | colon
  | null
  | bool (value : Bool)
  | int (value : Int)
  | float (value : Float)
  | string (value : String)
  /-- A number beyond the range of doubles. -/
  | hugeNumber
  /-- A string in which a surrogate stands alone. -/
  | loneSurrogate
  /-- The place where the text stops being JSON. -/
  | broken

namespace Token

/-- Whether a character may stand between tokens. -/
def isBlank (c : Char) : Bool :=
  c = ' ' || c = '\n' || c = '\t' || c = '\r'

/-- The token of a number. -/
def ofNumeral (n : Numeral) : Token :=
  match n.value with
  | some (.int value) => .int value
  | some (.float value) => .float value
  | none => .hugeNumber

/-- The token of a string. -/
def ofCharacters : Option (List Char) → Token
  | some chars => .string (String.ofList chars)
  | none => .loneSurrogate

/-- The token of a single character. -/
def punctuation? (c : Char) : Option Token :=
  if c = '[' then some .openArray
  else if c = ']' then some .closeArray
  else if c = '\x7b' then some .openObject
  else if c = '\x7d' then some .closeObject
  else if c = ',' then some .comma
  else if c = ':' then some .colon
  else none

/-- The word at the start of a text, and the rest. -/
def word? : List Char → Option (Token × List Char)
  | 'n' :: 'u' :: 'l' :: 'l' :: rest => some (.null, rest)
  | 't' :: 'r' :: 'u' :: 'e' :: rest => some (.bool true, rest)
  | 'f' :: 'a' :: 'l' :: 's' :: 'e' :: rest => some (.bool false, rest)
  | _ => none

/-- The token at the start of a text that does not begin with a blank, and the rest. -/
def next (c : Char) (rest : List Char) : Option (Token × List Char) :=
  match punctuation? c with
  | some token => some (token, rest)
  | none =>
    if c = '"' then
      (Quoted.read rest).map fun found => (ofCharacters found.1, found.2)
    else if c = '-' ∨ Decimal.isDigit c then
      (Numeral.read (c :: rest)).map fun (n, rest) => (ofNumeral n, rest)
    else
      word? (c :: rest)

theorem length_lt_of_word? {chars rest : List Char} {token : Token}
    (h : word? chars = some (token, rest)) : rest.length < chars.length := by
  unfold word? at h
  split at h <;> cases h <;> simp only [List.length_cons] <;> omega

theorem length_le_of_next {c : Char} {chars rest : List Char} {token : Token}
    (h : next c chars = some (token, rest)) : rest.length ≤ chars.length := by
  unfold next at h
  split at h
  · cases h
    exact Nat.le_refl _
  · split at h
    · obtain ⟨found, hf, he⟩ := Option.map_eq_some_iff.1 h
      cases he
      exact Nat.le_of_lt (Quoted.length_lt_of_read hf)
    · split at h
      · obtain ⟨⟨n, after⟩, hn, he⟩ := Option.map_eq_some_iff.1 h
        cases he
        exact Nat.le_of_lt_succ (Numeral.length_lt_of_read hn)
      · exact Nat.le_of_lt_succ (length_lt_of_word? h)

/-- The tokens of a text. -/
def scan : List Char → List Token
  | [] => []
  | c :: chars =>
    if isBlank c then
      scan chars
    else
      match h : next c chars with
      | some (token, rest) =>
        have := length_le_of_next h
        token :: scan rest
      | none => [.broken]
termination_by chars => chars.length

end Token

end DevicePlacement.Json

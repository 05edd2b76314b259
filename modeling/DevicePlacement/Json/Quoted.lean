/-!
# Strings in JSON text

A JSON string ends at the first quote that is not escaped. Before it every
character stands for itself but the backslash, which begins an escape, and the
control characters, which are not allowed.

A character above `U+FFFF` may be written as two escapes, a leading and a
trailing surrogate. A surrogate without its partner keeps the string well formed
but leaves it without a text: such a string can be skipped, but not read.
-/

namespace DevicePlacement.Json.Quoted

/-- The value of a hexadecimal digit. -/
def hexValue? (c : Char) : Option Nat :=
  if '0' ≤ c ∧ c ≤ '9' then some (c.toNat - '0'.toNat)
  else if 'a' ≤ c ∧ c ≤ 'f' then some (c.toNat - 'a'.toNat + 10)
  else if 'A' ≤ c ∧ c ≤ 'F' then some (c.toNat - 'A'.toNat + 10)
  else none

/-- The value of four hexadecimal digits. -/
def hexValue4? (a b c d : Char) : Option Nat := do
  some (4096 * (← hexValue? a) + 256 * (← hexValue? b) + 16 * (← hexValue? c) + (← hexValue? d))

/-- The character of a one-letter escape. -/
def unescape? (c : Char) : Option Char :=
  if c = '"' then some '"'
  else if c = '\\' then some '\\'
  else if c = '/' then some '/'
  else if c = 'b' then some '\x08'
  else if c = 'f' then some '\x0c'
  else if c = 'n' then some '\x0a'
  else if c = 'r' then some '\x0d'
  else if c = 't' then some '\x09'
  else none

/-- Whether a code unit is a leading surrogate. -/
def isLeading (unit : Nat) : Bool :=
  0xD800 ≤ unit && unit < 0xDC00

/-- Whether a code unit is a trailing surrogate. -/
def isTrailing (unit : Nat) : Bool :=
  0xDC00 ≤ unit && unit < 0xE000

/-- The character of a leading and a trailing surrogate. -/
def join (leading trailing : Nat) : Char :=
  Char.ofNat (0x10000 + 0x400 * (leading - 0xD800) + (trailing - 0xDC00))

/-- What a string and the text after it were found to be: the characters of the
    string, unless a surrogate stands alone in it, and what follows the quote
    that ends it. -/
abbrev Found := Option (List Char) × List Char

/-- A character, or a place without one, in front of what was found. -/
def Found.cons (c : Option Char) (found : Found) : Found :=
  match c, found.1 with
  | some c, some chars => (some (c :: chars), found.2)
  | _, _ => (none, found.2)

/-- The trailing surrogate that is escaped at the start of a text, and the rest. -/
def trailing? : List Char → Option (Nat × List Char)
  | '\\' :: 'u' :: a :: b :: c :: d :: rest =>
    match hexValue4? a b c d with
    | some unit => if isTrailing unit then some (unit, rest) else none
    | none => none
  | _ => none

theorem length_lt_of_trailing? {chars rest : List Char} {unit : Nat}
    (h : trailing? chars = some (unit, rest)) : rest.length < chars.length := by
  unfold trailing? at h
  split at h
  · split at h
    · split at h
      · cases h
        simp only [List.length_cons]
        omega
      · cases h
    · cases h
  · cases h

/-- The string whose opening quote has just been passed; `none` if it is
    malformed or does not end. -/
def read : List Char → Option Found
  | [] => none
  | c :: rest =>
    if c = '"' then
      some (some [], rest)
    else if c = '\\' then
      match rest with
      | 'u' :: a :: b :: c :: d :: rest =>
        match hexValue4? a b c d with
        | none => none
        | some unit =>
          if isLeading unit then
            match h : trailing? rest with
            | some (second, rest') =>
              have := length_lt_of_trailing? h
              (read rest').map (Found.cons (some (join unit second)))
            | none => (read rest).map (Found.cons none)
          else if isTrailing unit then
            (read rest).map (Found.cons none)
          else
            (read rest).map (Found.cons (some (Char.ofNat unit)))
      | e :: rest =>
        match unescape? e with
        | some c => (read rest).map (Found.cons (some c))
        | none => none
      | [] => none
    else if c.toNat < 32 then
      none
    else
      (read rest).map (Found.cons (some c))
termination_by chars => chars.length

theorem cons_snd (c : Option Char) (found : Found) : (found.cons c).2 = found.2 := by
  unfold Found.cons
  split <;> rfl

/-- What follows a string is shorter than the text that held it. -/
theorem length_lt_of_read {chars : List Char} {found : Found}
    (h : read chars = some found) : found.2.length < chars.length := by
  fun_induction read chars generalizing found <;>
    first
      | cases h
      | (obtain ⟨inner, hi, rfl⟩ := Option.map_eq_some_iff.1 h
         simp_all only [cons_snd, List.length_cons]
         grind)
  simp

end DevicePlacement.Json.Quoted

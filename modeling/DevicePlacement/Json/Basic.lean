import DevicePlacement.Decimal.Layout

/-!
# JSON documents

`Json` is what the library writes: graphs, cost tables, knobs, clusters and
reports are turned into such a document, and `Json.text` lays it out, one item
or member per line, indented by two blanks per level.

Strings are written with as few escapes as JSON allows: the quote, the
backslash and the control characters. Doubles are written with their shortest
digits (`Json.numberLayout`).
-/

namespace DevicePlacement

/-- A JSON document. -/
inductive Json
  | null
  | bool (value : Bool)
  | int (value : Int)
  | float (value : Float)
  | string (value : String)
  | array (items : List Json)
  | object (members : List (String × Json))

namespace Json

instance : Inhabited Json := ⟨null⟩

/-- Doubles are written positionally from `0.00001` up to, but not including,
    `10 ^ 16`, whole ones with a point and a zero. JSON has no word for what is
    no finite number, so `null` stands there. -/
def numberLayout : Decimal.Layout where
  tie := .even
  positional := some (-5, 16)
  keepPoint := true
  nan := "null"
  infinity := "null"
  negativeInfinity := "null"

/-- A character as it stands in a JSON string. -/
def escape (c : Char) : List Char :=
  if c = '"' then ['\\', '"']
  else if c = '\\' then ['\\', '\\']
  else if c = '\x08' then ['\\', 'b']
  else if c = '\x09' then ['\\', 't']
  else if c = '\x0a' then ['\\', 'n']
  else if c = '\x0c' then ['\\', 'f']
  else if c = '\x0d' then ['\\', 'r']
  else if c.toNat < 32 then
    ['\\', 'u', '0', '0', Nat.digitChar (c.toNat / 16), Nat.digitChar (c.toNat % 16)]
  else [c]

/-- A string in quotes. -/
def quote (s : String) : List Char :=
  '"' :: (s.toList.flatMap escape ++ ['"'])

/-- A whole number in decimal. -/
def intText (n : Int) : List Char :=
  if n < 0 then '-' :: Decimal.digitChars n.natAbs else Decimal.digitChars n.natAbs

/-- A line end and the indentation of a level. -/
def newline (level : Nat) : List Char :=
  '\n' :: List.replicate (2 * level) ' '

mutual

/-- The text of a document that stands at a level of indentation. -/
def layOut (level : Nat) : Json → List Char
  | null => "null".toList
  | bool value => (if value then "true" else "false").toList
  | int value => intText value
  | float value => numberLayout.text value
  | string value => quote value
  | array [] => ['[', ']']
  | array (item :: items) =>
    '[' :: (newline (level + 1) ++ layOut (level + 1) item ++ layOutItems level items)
  | object [] => ['\x7b', '\x7d']
  | object ((key, value) :: members) =>
    '\x7b' :: (newline (level + 1) ++ quote key ++ ':' :: ' ' :: layOut (level + 1) value ++
      layOutMembers level members)

/-- The text of the items of an array after the first, and of its end. -/
def layOutItems (level : Nat) : List Json → List Char
  | [] => newline level ++ [']']
  | item :: items =>
    ',' :: (newline (level + 1) ++ layOut (level + 1) item ++ layOutItems level items)

/-- The text of the members of an object after the first, and of its end. -/
def layOutMembers (level : Nat) : List (String × Json) → List Char
  | [] => newline level ++ ['\x7d']
  | (key, value) :: members =>
    ',' :: (newline (level + 1) ++ quote key ++ ':' :: ' ' :: layOut (level + 1) value ++
      layOutMembers level members)

end

/-- The text of a document. -/
def text (json : Json) : String :=
  String.ofList (layOut 0 json)

end Json

end DevicePlacement

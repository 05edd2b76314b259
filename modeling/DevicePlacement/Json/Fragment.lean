import DevicePlacement.Json.Token

/-!
# The readable part of a JSON text

Text from outside may stop being JSON anywhere. A `Fragment` is the tree of what
stands before that place: arrays and objects that the text leaves unfinished are
marked as such. Typed values are then read from the tree from left to right
(`DevicePlacement.Json.Fields`), and they meet the mark exactly when they would
meet the place in the text; a value of a wrong type before it is met earlier.

The tree is put together by a machine with a stack of unfinished arrays and
objects, one token at a time (`Stage.step`).
-/

namespace DevicePlacement.Json

/-- What stands where an object expects the name of a member. -/
inductive Key
  | name (text : String)
  /-- A string in which a surrogate stands alone. -/
  | valueless
  deriving DecidableEq, Repr

/-- The tree of a JSON text, as far as the text can be read. -/
inductive Fragment
  | null
  | bool (value : Bool)
  | int (value : Int)
  | float (value : Float)
  | string (value : String)
  /-- The items of an array and whether its end was read. -/
  | array (items : List Fragment) (closed : Bool)
  /-- The members of an object and whether its end was read. -/
  | object (members : List (Key × Fragment)) (closed : Bool)
  /-- A well-formed number or string without a value. -/
  | valueless
  /-- The place where the text stops being JSON. -/
  | broken

namespace Fragment

instance : Inhabited Fragment := ⟨null⟩

mutual

/-- Whether the text of a fragment is well formed, so that it can be passed over. -/
def wellFormed : Fragment → Bool
  | array items closed => closed && itemsWellFormed items
  | object members closed => closed && membersWellFormed members
  | broken => false
  | _ => true

/-- Whether all items can be passed over. -/
def itemsWellFormed : List Fragment → Bool
  | [] => true
  | item :: items => item.wellFormed && itemsWellFormed items

/-- Whether all members can be passed over. -/
def membersWellFormed : List (Key × Fragment) → Bool
  | [] => true
  | (_, value) :: members => value.wellFormed && membersWellFormed members

end

mutual

/-- Whether a fragment is a document all of whose parts have a value and which
    nests at most `depth` arrays and objects. -/
def readable (depth : Nat) : Fragment → Bool
  | array items closed => closed && 0 < depth && itemsReadable (depth - 1) items
  | object members closed => closed && 0 < depth && membersReadable (depth - 1) members
  | valueless => false
  | broken => false
  | _ => true

/-- Whether all items have a value and nest at most `depth` levels. -/
def itemsReadable (depth : Nat) : List Fragment → Bool
  | [] => true
  | item :: items => item.readable depth && itemsReadable depth items

/-- Whether all members have a name and a value and nest at most `depth` levels. -/
def membersReadable (depth : Nat) : List (Key × Fragment) → Bool
  | [] => true
  | (.name _, value) :: members => value.readable depth && membersReadable depth members
  | _ :: _ => false

end

end Fragment

/-- An array or object that is being read. -/
inductive Frame
  /-- An array, with the items read so far, the last one first. -/
  | items (before : List Fragment)
  /-- An object, with the members read so far, the last one first, and the name
      of the member being read. -/
  | member (before : List (Key × Fragment)) (key : Key)

/-- The frame as a fragment, a value being the last that was read in it. -/
def Frame.fill (frame : Frame) (value : Fragment) (closed : Bool) : Fragment :=
  match frame with
  | items before => .array (value :: before).reverse closed
  | member before key => .object ((key, value) :: before).reverse closed

/-- How far a text has been read. `outer` are the unfinished arrays and objects,
    the innermost first. -/
inductive Stage
  /-- A value must follow. -/
  | expectValue (outer : List Frame)
  /-- An array has just begun. -/
  | arrayStart (outer : List Frame)
  /-- An object has just begun. -/
  | objectStart (outer : List Frame)
  /-- A comma was read in an object with the members `before`. -/
  | nextMember (before : List (Key × Fragment)) (outer : List Frame)
  /-- The name of a member was read. -/
  | colon (before : List (Key × Fragment)) (key : Key) (outer : List Frame)
  /-- A value was read. -/
  | after (value : Fragment) (outer : List Frame)
  /-- The text stopped being JSON, within the document or after its end. -/
  | ended (document : Fragment)

namespace Stage

/-- The whole document when its text ends after `value` within unfinished arrays
    and objects. -/
def cut (value : Fragment) (outer : List Frame) : Fragment :=
  outer.foldl (fun inner frame => frame.fill inner false) value

/-- The stage after the first token of a value. -/
def begin (token : Token) (outer : List Frame) : Stage :=
  match token with
  | .openArray => .arrayStart outer
  | .openObject => .objectStart outer
  | .null => .after .null outer
  | .bool value => .after (.bool value) outer
  | .int value => .after (.int value) outer
  | .float value => .after (.float value) outer
  | .string value => .after (.string value) outer
  | .hugeNumber | .loneSurrogate => .after .valueless outer
  | .closeArray | .closeObject | .comma | .colon | .broken => .ended (cut .broken outer)

/-- The stage after the first token of a member, which has to be its name. -/
def beginMember (token : Token) (before : List (Key × Fragment)) (outer : List Frame) : Stage :=
  match token with
  | .string name => .colon before (.name name) outer
  | .loneSurrogate => .colon before .valueless outer
  | _ => .ended (cut (.object before.reverse false) outer)

/-- The stage after one more token. -/
def step (stage : Stage) (token : Token) : Stage :=
  match stage, token with
  | .expectValue outer, token => begin token outer
  | .arrayStart outer, .closeArray => .after (.array [] true) outer
  | .arrayStart outer, token => begin token (.items [] :: outer)
  | .objectStart outer, .closeObject => .after (.object [] true) outer
  | .objectStart outer, token => beginMember token [] outer
  | .nextMember before outer, token => beginMember token before outer
  | .colon before key outer, .colon => .expectValue (.member before key :: outer)
  | .colon before key outer, _ =>
    .ended (cut (Frame.fill (.member before key) .broken false) outer)
  | .after value (.items before :: outer), .comma => .expectValue (.items (value :: before) :: outer)
  | .after value (.items before :: outer), .closeArray =>
    .after (Frame.fill (.items before) value true) outer
  | .after value (.member before key :: outer), .comma =>
    .nextMember ((key, value) :: before) outer
  | .after value (.member before key :: outer), .closeObject =>
    .after (Frame.fill (.member before key) value true) outer
  | .after value outer, _ => .ended (cut value outer)
  | .ended document, _ => .ended document

/-- The document of a text that ends here, and whether the text is one document
    and nothing else. -/
def finish : Stage → Fragment × Bool
  | .expectValue outer => (cut .broken outer, false)
  | .arrayStart outer => (cut (.array [] false) outer, false)
  | .objectStart outer => (cut (.object [] false) outer, false)
  | .nextMember before outer => (cut (.object before.reverse false) outer, false)
  | .colon before key outer => (cut (Frame.fill (.member before key) .broken false) outer, false)
  | .after value outer => (cut value outer, outer.isEmpty)
  | .ended document => (document, false)

end Stage

/-- The document of a text, as far as it can be read, and whether the text is
    one document and nothing else. -/
def Fragment.ofText (text : String) : Fragment × Bool :=
  ((Token.scan text.toList).foldl Stage.step (.expectValue [])).finish

end DevicePlacement.Json

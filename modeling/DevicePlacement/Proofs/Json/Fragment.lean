import DevicePlacement.Json.Fragment
import DevicePlacement.Proofs.Json.Token

/-!
# Documents read back

A document stands for a fragment that is complete (`Json.fragment`). The machine that puts
fragments together, given the tokens of a document in a place where a value must follow,
has read this value in the end, whatever is unfinished around it (`run_tokens`). So the text
of a document reads back as its fragment, with nothing before or after it (`ofText_text`).
-/

namespace DevicePlacement.Json

mutual

/-- The fragment that a document stands for. -/
def fragment : Json → Fragment
  | null => .null
  | bool value => .bool value
  | int value => .int value
  | float value => .float value
  | string value => .string value
  | array items => .array (fragments items) true
  | object members => .object (memberFragments members) true

/-- The fragments of the items of an array. -/
def fragments : List Json → List Fragment
  | [] => []
  | item :: items => fragment item :: fragments items

/-- The fragments of the members of an object. -/
def memberFragments : List (String × Json) → List (Key × Fragment)
  | [] => []
  | (key, value) :: members => (.name key, fragment value) :: memberFragments members

end

/-- The fragments of items, one for each. -/
theorem fragments_eq_map (items : List Json) : fragments items = items.map fragment := by
  induction items with
  | nil => rfl
  | cons item items ih => rw [fragments, ih, List.map_cons]

/-- The fragments of members, under their names. -/
theorem memberFragments_eq_map (members : List (String × Json)) :
    memberFragments members =
      members.map fun member => (.name member.1, member.2.fragment) := by
  induction members with
  | nil => rfl
  | cons member members ih => rw [memberFragments, ih, List.map_cons]

/-! ## The machine -/

/-- Where an array has just begun, a value is read as where one must follow. -/
theorem run_tokens_arrayStart (json : Json) (outer : List Frame) :
    json.tokens.foldl Stage.step (.arrayStart outer) =
      json.tokens.foldl Stage.step (.expectValue (.items [] :: outer)) := by
  cases json with
  | null | bool | int | float | string => rfl
  | array items => cases items <;> rfl
  | object members => cases members <;> rfl

mutual

/-- The machine reads a document where a value must follow. -/
theorem run_tokens : ∀ (json : Json) (outer : List Frame),
    json.tokens.foldl Stage.step (.expectValue outer) = .after json.fragment outer
  | null, _ => rfl
  | bool _, _ => rfl
  | int _, _ => rfl
  | float _, _ => rfl
  | string _, _ => rfl
  | array [], _ => rfl
  | array (item :: items), outer => by
    rw [tokens, List.foldl_cons, List.foldl_append]
    -- After the bracket comes the first item, and then those behind commas.
    change (itemTokens items).foldl Stage.step
      (item.tokens.foldl Stage.step (.arrayStart outer)) = _
    rw [run_tokens_arrayStart, run_tokens item, run_itemTokens items]
    rfl
  | object [], _ => rfl
  | object ((key, value) :: members), outer => by
    rw [tokens, List.foldl_cons, List.foldl_cons, List.foldl_cons, List.foldl_append]
    -- After the brace, the name and the colon comes the first value.
    change (memberTokens members).foldl Stage.step
      (value.tokens.foldl Stage.step (.expectValue (.member [] (.name key) :: outer))) = _
    rw [run_tokens value, run_memberTokens members]
    rfl

/-- The machine reads the items of an array after the first, and its end. -/
theorem run_itemTokens : ∀ (items : List Json) (before : List Fragment) (value : Fragment)
    (outer : List Frame),
    (itemTokens items).foldl Stage.step (.after value (.items before :: outer)) =
      .after (.array (before.reverse ++ value :: fragments items) true) outer
  | [], before, value, outer => by
    change Stage.after (.array (value :: before).reverse true) outer = _
    rw [List.reverse_cons, fragments]
  | item :: items, before, value, outer => by
    rw [itemTokens, List.foldl_cons, List.foldl_append]
    change (itemTokens items).foldl Stage.step
      (item.tokens.foldl Stage.step (.expectValue (.items (value :: before) :: outer))) = _
    rw [run_tokens item, run_itemTokens items, fragments, List.reverse_cons, List.append_assoc,
      List.singleton_append]

/-- The machine reads the members of an object after the first, and its end. -/
theorem run_memberTokens : ∀ (members : List (String × Json)) (before : List (Key × Fragment))
    (key : Key) (value : Fragment) (outer : List Frame),
    (memberTokens members).foldl Stage.step (.after value (.member before key :: outer)) =
      .after (.object (before.reverse ++ (key, value) :: memberFragments members) true) outer
  | [], before, key, value, outer => by
    change Stage.after (.object ((key, value) :: before).reverse true) outer = _
    rw [List.reverse_cons, memberFragments]
  | (name, item) :: members, before, key, value, outer => by
    rw [memberTokens, List.foldl_cons, List.foldl_cons, List.foldl_cons, List.foldl_append]
    change (memberTokens members).foldl Stage.step (item.tokens.foldl Stage.step
      (.expectValue (.member ((key, value) :: before) (.name name) :: outer))) = _
    rw [run_tokens item, run_memberTokens members, memberFragments, List.reverse_cons,
      List.append_assoc, List.singleton_append]

end

/-- Whatever follows a whole document is not read. -/
theorem foldl_step_ended (tokens : List Token) (document : Fragment) :
    tokens.foldl Stage.step (.ended document) = .ended document := by
  induction tokens with
  | nil => rfl
  | cons token tokens ih => exact ih

/-- After a value at the top, nothing but the end may come. -/
theorem finish_after (tokens : List Token) (value : Fragment) :
    (tokens.foldl Stage.step (.after value [])).finish = (value, tokens.isEmpty) := by
  cases tokens with
  | nil => rfl
  | cons token tokens =>
    rw [List.foldl_cons]
    exact congrArg Stage.finish (foldl_step_ended tokens value)

/-- The text of a document reads back as its fragment, and is nothing else. -/
theorem ofText_text {json : Json} (h : json.Exact) :
    Fragment.ofText json.text = (json.fragment, true) := by
  have hscan := scan_layOut h 0 [] Numeral.ends_nil
  rw [List.append_nil, Token.scan_nil, List.append_nil] at hscan
  rw [Fragment.ofText, text, String.toList_ofList, hscan, run_tokens]
  rfl

end DevicePlacement.Json

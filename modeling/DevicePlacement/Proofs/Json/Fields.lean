import DevicePlacement.Json.Fields
import DevicePlacement.Proofs.Json.Fragment
import DevicePlacement.Proofs.NameMap
import DevicePlacement.Proofs.Returns

/-!
# Records read back

A record is written as an object with its fields in order, of which those with a default
may be left out. What each field has to be given for a record to be read is put together
from the fields one by one (`Fields.Reads`), and an object that gives this and nothing else
reads back as the record (`Fields.Reads.read_object`). Other members may stand between the
fields if the reader accepts them (`Fields.Reads.readMembers`).

The other way round, a record that was read is made of what the document gives of its fields
(`Fields.build_of_read`), and where it gives nothing of defaults (`Fields.Defaulted`).
-/

namespace DevicePlacement

namespace Json

open Checked

/-! ## Single values -/

namespace Reader

theorem whole_of_le {least greatest value : Int} (hleast : least ≤ value)
    (hgreatest : value ≤ greatest) : whole least greatest (.int value) = .ok value :=
  if_pos ⟨hleast, hgreatest⟩

/-- Every signed 64-bit number is in the range of its reader. -/
theorem int64_toInt (value : Int64) : int64 (.int value.toInt) = .ok value := by
  rw [int64, whole_of_le value.minValue_le_toInt value.toInt_le]
  exact congrArg Except.ok value.ofInt_toInt

/-- Every signed 32-bit number is. -/
theorem int32_toInt (value : Int32) : int32 (.int value.toInt) = .ok value := by
  rw [int32, whole_of_le value.minValue_le_toInt value.toInt_le]
  exact congrArg Except.ok value.ofInt_toInt

/-- Every unsigned 64-bit number is, too. -/
theorem uint64_toNat (value : UInt64) : uint64 (.int value.toNat) = .ok value := by
  have hlt := value.toNat_lt_size
  rw [uint64, whole_of_le (Int.natCast_nonneg _) (by omega)]
  exact congrArg Except.ok value.ofNat_toNat

/-- A count is read if it fits an unsigned 64-bit number. -/
theorem count_of_lt {value : Nat} (h : value < UInt64.size) : count (.int value) = .ok value := by
  rw [count, whole_of_le (Int.natCast_nonneg _) (by omega)]
  rfl

/-- A list is read back if its items are. -/
theorem list_map {α : Type} {read : Reader α} {write : α → Json}
    (h : ∀ value, read (write value).fragment = .ok value) (values : List α) :
    list read (Json.array (values.map write)).fragment = .ok values := by
  have hitems : (values.map fun value => (write value).fragment).mapM read = .ok values :=
    mapM_eq_ok_iff.2 (List.forall₂_map_left_iff.2 (List.forall₂_same.2 fun value _ => h value))
  rw [fragment, fragments_eq_map, List.map_map, list]
  exact bind_eq_ok.2 ⟨values, hitems, rfl⟩

/-- The members of an object are put into a map one after the other. -/
theorem foldlM_names {α : Type} {read : Reader α} {write : α → Json}
    (h : ∀ value, read (write value).fragment = .ok value) (entries : List (String × α))
    (map : NameMap α) :
    (memberFragments (entries.map fun entry => (entry.1, write entry.2))).foldlM
        (fun map member => match member.1 with
          | .name name => (read member.2).map (map.insert name)
          | _ => .error .malformed) map =
      .ok (entries.foldl (fun map entry => map.insert entry.1 entry.2) map) := by
  induction entries generalizing map with
  | nil => rfl
  | cons entry entries ih =>
    rw [List.map_cons, memberFragments, List.foldlM_cons, h, List.foldl_cons]
    exact ih (map.insert entry.1 entry.2)

/-- An object is read as a map of its members, of which the last of each name counts. -/
theorem names_map {α : Type} {read : Reader α} {write : α → Json}
    (h : ∀ value, read (write value).fragment = .ok value) (entries : List (String × α)) :
    names read (Json.object (entries.map fun entry => (entry.1, write entry.2))).fragment =
      .ok (.ofList entries) := by
  rw [fragment, names]
  exact bind_eq_ok.2 ⟨_, foldlM_names h entries NameMap.empty, rfl⟩

end Reader

/-! ## Records -/

namespace Fields

variable {α β : Type} {value : α} {name : String} {read : Reader α} {given : Fragment}
  {members more : List (String × Fragment)}

/-- The members of an object. -/
def named (members : List (String × Fragment)) : List (Key × Fragment) :=
  members.map fun member => (.name member.1, member.2)

/-- Some of the fields are given, each once, and make up the record. -/
structure Reads (fields : Fields α) (members : List (String × Fragment)) (value : α) : Prop where
  subset : members.map Prod.fst ⊆ fields.names
  nodup : (members.map Prod.fst).Nodup
  check : ∀ member ∈ members, fields.check member.1 member.2 = .ok ()
  /-- Only what is given of the fields counts. -/
  build : ∀ find missing, (∀ name ∈ fields.names, find name = NameMap.lookup name members) →
    fields.build find missing = .ok value

/-- No fields make up a record without any. -/
theorem Reads.none (value : α) : (none value).Reads [] value where
  subset := List.Subset.refl []
  nodup := List.nodup_nil
  check := nofun
  build _ _ _ := rfl

/-- A single field, given. -/
theorem Reads.single {fields : Fields α} (hnames : fields.names = [name])
    (hcheck : fields.check name given = .ok ())
    (hbuild : ∀ find missing, find name = some given → fields.build find missing = .ok value) :
    fields.Reads [(name, given)] value where
  subset := hnames ▸ List.Subset.refl [name]
  nodup := List.nodup_singleton name
  check member hmember := by
    rw [List.mem_singleton.1 hmember]
    exact hcheck
  build find missing hfind := by
    have hname := hfind name (hnames ▸ List.mem_singleton_self name)
    rw [NameMap.lookup, if_pos rfl] at hname
    exact hbuild find missing hname

/-- A required field is given by the member of its name. -/
theorem Reads.required (h : read given = .ok value) :
    (required name read).Reads [(name, given)] value :=
  .single rfl (by simp only [Fields.required, h]; rfl) fun find missing hfind => by
    simp only [Fields.required, hfind, h]

/-- A field with a default may be given as well. -/
theorem Reads.withDefault (default : α) (h : read given = .ok value) :
    (withDefault name default read).Reads [(name, given)] value :=
  .single rfl (by simp only [Fields.withDefault, h]; rfl) fun find missing hfind => by
    simp only [Fields.withDefault, hfind, h]

theorem Reads.text (name value : String) :
    (Fields.required name Reader.text).Reads [(name, .string value)] value :=
  .required rfl

theorem Reads.flag (name : String) (value : Bool) :
    (Fields.required name Reader.flag).Reads [(name, .bool value)] value :=
  .required rfl

theorem Reads.int64 (name : String) (value : Int64) :
    (Fields.required name Reader.int64).Reads [(name, .int value.toInt)] value :=
  .required (Reader.int64_toInt value)

theorem Reads.count (name : String) {value : Nat} (h : value < UInt64.size) :
    (Fields.required name Reader.count).Reads [(name, .int value)] value :=
  .required (Reader.count_of_lt h)

theorem Reads.float (name : String) (value : Float) :
    (Fields.required name Reader.float).Reads [(name, .float value)] value :=
  .required rfl

/-- A field that is left out has its default. -/
theorem Reads.absent (default : α) : (Fields.withDefault name default read).Reads [] default where
  subset := List.nil_subset _
  nodup := List.nodup_nil
  check := nofun
  build find missing hfind := by
    have hname := hfind name (List.mem_singleton_self name)
    simp only [Fields.withDefault, hname, NameMap.lookup]

/-- Two groups of fields with different names are given one after the other. -/
theorem Reads.both {f : Fields (α → β)} {x : Fields α} {g : α → β} (hf : f.Reads members g)
    (hx : x.Reads more value) (hdisjoint : ∀ name ∈ f.names, name ∉ x.names) :
    (both f x).Reads (members ++ more) (g value) where
  subset := by
    rw [List.map_append]
    exact List.append_subset.2 ⟨List.subset_append_of_subset_left _ hf.subset,
      List.subset_append_of_subset_right _ hx.subset⟩
  nodup := by
    rw [List.map_append]
    exact hf.nodup.append hx.nodup fun name hname hmore =>
      hdisjoint name (hf.subset hname) (hx.subset hmore)
  check member hmember := by
    rw [Fields.both]
    rcases List.mem_append.1 hmember with hmember | hmember
    · have hname := hf.subset (List.mem_map_of_mem hmember)
      simp only [if_pos hname, hf.check member hmember]
    · have hname := hx.subset (List.mem_map_of_mem hmember)
      simp only [if_neg fun h => hdisjoint _ h hname, hx.check member hmember]
  build find missing hfind := by
    -- Each record finds its own fields, as the names of the others are different.
    have hleft : f.build find missing = .ok g := by
      refine hf.build find missing fun name hname => ?_
      have hmore : name ∉ more.map Prod.fst := fun h =>
        hdisjoint name hname (hx.subset h)
      rw [hfind name (List.mem_append_left _ hname), NameMap.lookup_append,
        NameMap.lookup_eq_none hmore, Option.or_none]
    have hright : x.build find missing = .ok value := by
      refine hx.build find missing fun name hname => ?_
      have hmembers : name ∉ members.map Prod.fst := fun h =>
        hdisjoint name (hf.subset h) hname
      rw [hfind name (List.mem_append_right _ hname), NameMap.lookup_append,
        NameMap.lookup_eq_none hmembers, Option.none_or]
    exact bind_eq_ok.2 ⟨g, hleft, bind_eq_ok.2 ⟨value, hright, rfl⟩⟩

/-- What is made of the fields is made of what they give. -/
theorem Reads.map {x : Fields α} (g : α → β) (hx : x.Reads members value) :
    (g <$> x).Reads members (g value) :=
  (Reads.none g).both hx nofun

/-- One more group of fields is given after those before. -/
theorem Reads.seq {f : Fields (α → β)} {x : Fields α} {g : α → β} (hf : f.Reads members g)
    (hx : x.Reads more value) (hdisjoint : ∀ name ∈ f.names, name ∉ x.names) :
    (f <*> x).Reads (members ++ more) (g value) :=
  hf.both hx hdisjoint

/-! ## Members that are left out -/

/-- The members of a document as they are read. -/
def parsed (members : List (String × Json)) : List (String × Fragment) :=
  members.map fun member => (member.1, member.2.fragment)

theorem parsed_append (members more : List (String × Json)) :
    parsed (members ++ more) = parsed members ++ parsed more :=
  List.map_append

/-- A field that is left out if there is nothing to say. -/
theorem Reads.optional {write : α → Json} (name : String)
    (h : ∀ value, Reader.optional read (write value).fragment = .ok (some value))
    (value? : Option α) : (Fields.withDefault name Option.none (Reader.optional read)).Reads
      (parsed (value?.map fun value => (name, write value)).toList) value? := by
  cases value? with
  | none => exact .absent Option.none
  | some value => exact .withDefault Option.none (h value)

/-- A list that is left out if it is empty. -/
theorem Reads.list {write : α → Json} (name : String)
    (h : ∀ value, read (write value).fragment = .ok value) (values : List α) :
    (Fields.withDefault name [] (Reader.list read)).Reads
      (parsed (if values.isEmpty then [] else [(name, .array (values.map write))])) values := by
  cases values with
  | nil => exact .absent []
  | cons value values => exact .withDefault [] (Reader.list_map h (value :: values))

/-! ## Objects -/

variable {fields : Fields α}

/-- A member is found by its name as in a map. -/
theorem member?_named (members : List (String × Fragment)) (name : String) :
    member? (named members) name = NameMap.lookup name members := by
  induction members with
  | nil => rfl
  | cons member members ih =>
    rw [NameMap.lookup, member?, named, List.map_cons, List.find?_cons]
    by_cases h : member.1 = name
    · simp [h]
    · rw [← ih, if_neg h, decide_eq_false (by simpa using h)]
      rfl

/-- The members that are fields. -/
def own (fields : Fields α) (members : List (String × Fragment)) : List (String × Fragment) :=
  members.filter fun member => member.1 ∈ fields.names

/-- The members that are no fields. -/
def others (fields : Fields α) (members : List (String × Fragment)) : List (String × Fragment) :=
  members.filter fun member => member.1 ∉ fields.names

theorem own_of_mem (h : ∀ member ∈ members, member.1 ∈ fields.names) :
    fields.own members = members :=
  List.filter_eq_self.2 fun member hmember => decide_eq_true (h member hmember)

/-- Members that are no fields may stand between those that are. -/
theorem own_between {middle : List (String × Fragment)}
    (hmembers : ∀ member ∈ members, member.1 ∈ fields.names)
    (hmiddle : ∀ member ∈ middle, member.1 ∉ fields.names)
    (hmore : ∀ member ∈ more, member.1 ∈ fields.names) :
    fields.own (members ++ middle ++ more) = members ++ more ∧
      fields.others (members ++ middle ++ more) = middle := by
  -- The filter keeps all of one part and nothing of the other.
  have hown : fields.own middle = [] :=
    List.filter_eq_nil_iff.2 fun member hmember => by simpa using hmiddle member hmember
  have hothers (members : List (String × Fragment))
      (h : ∀ member ∈ members, member.1 ∈ fields.names) : fields.others members = [] :=
    List.filter_eq_nil_iff.2 fun member hmember => by simpa using h member hmember
  have hself : fields.others middle = middle :=
    List.filter_eq_self.2 fun member hmember => decide_eq_true (hmiddle member hmember)
  constructor
  · rw [own, List.filter_append, List.filter_append, ← own, ← own, ← own, own_of_mem hmembers, hown,
      own_of_mem hmore, List.append_nil]
  · rw [others, List.filter_append, List.filter_append, ← others, ← others, ← others,
      hothers members hmembers, hself, hothers more hmore, List.append_nil, List.nil_append]

/-- The members of an object that are no fields. -/
theorem filter_named {keep : Key × Fragment → Bool}
    (h : ∀ name value, keep (.name name, value) = !fields.names.contains name)
    (members : List (String × Fragment)) :
    (named members).filter keep = named (fields.others members) := by
  rw [named, List.filter_map, others, named]
  congr 2
  funext member
  simp [h]

theorem own_cons_of_mem {member : String × Fragment} (h : member.1 ∈ fields.names) :
    fields.own (member :: members) = member :: fields.own members := by
  simp [own, h]

theorem own_cons_of_not_mem {member : String × Fragment} (h : member.1 ∉ fields.names) :
    fields.own (member :: members) = fields.own members := by
  simp [own, h]

/-- Fields that are given once each, with values that can be read, pass the check, and so do
    other members that are accepted. -/
theorem checkMembers_named {other : Reader Unit} {seen : List String}
    (hnodup : ((fields.own members).map Prod.fst).Nodup)
    (hcheck : ∀ member ∈ fields.own members, fields.check member.1 member.2 = .ok ())
    (hother : ∀ member ∈ members, member.1 ∉ fields.names → other member.2 = .ok ())
    (hseen : ∀ name ∈ seen, name ∉ (fields.own members).map Prod.fst) :
    fields.checkMembers other seen (named members) = .ok () := by
  induction members generalizing seen with
  | nil => rw [named, List.map_nil, checkMembers]
  | cons member members ih =>
    obtain ⟨hmember, hother⟩ := List.forall_mem_cons.1 hother
    rw [named, List.map_cons, checkMembers]
    by_cases hname : member.1 ∈ fields.names
    · rw [own_cons_of_mem hname] at hnodup hcheck hseen
      rw [List.map_cons, List.nodup_cons] at hnodup
      -- The field was not there before, and it does not come again.
      have hnew : member.1 ∉ seen := fun h => hseen _ h List.mem_cons_self
      rw [if_pos hname, if_neg hnew, hcheck member List.mem_cons_self]
      refine ih hnodup.2 (List.forall_mem_cons.1 hcheck).2 hother fun name hname => ?_
      rcases List.mem_cons.1 hname with rfl | hname
      · exact hnodup.1
      · exact fun h => hseen name hname (List.mem_cons_of_mem _ h)
    · rw [own_cons_of_not_mem hname] at hnodup hcheck hseen
      rw [if_neg hname, hmember hname]
      exact ih hnodup hcheck hother hseen

/-- An object that gives the fields of a record, each once, reads back as the record if its
    other members are accepted. -/
theorem Reads.readMembers {other : Reader Unit} (h : fields.Reads (fields.own members) value)
    (hother : ∀ member ∈ members, member.1 ∉ fields.names → other member.2 = .ok ()) :
    fields.readMembers other (named members) true = .ok value := by
  have hcheck : fields.checkMembers other [] (named members) = .ok () :=
    checkMembers_named h.nodup h.check hother nofun
  have hbuild := h.build (member? (named members)) .missingField fun name hname => by
    rw [member?_named]
    exact (NameMap.lookup_filter (· ∈ fields.names) (decide_eq_true hname)).symm
  exact bind_eq_ok.2 ⟨(), hcheck, bind_eq_ok.2 ⟨(), rfl, hbuild⟩⟩

/-- An object that gives the fields of a record and nothing else reads back as the record. -/
theorem Reads.readMembers_self {other : Reader Unit} (h : fields.Reads members value) :
    fields.readMembers other (named members) true = .ok value := by
  have hnames : ∀ member ∈ members, member.1 ∈ fields.names := fun member hmember =>
    h.subset (List.mem_map_of_mem hmember)
  refine Reads.readMembers (by rwa [own_of_mem hnames]) fun member hmember hname => ?_
  exact absurd (hnames member hmember) hname

/-- Each member is checked as it comes, and the record is built in the end. -/
theorem Reads.read_object (h : fields.Reads members value) :
    fields.read (.object (named members) true) = .ok value :=
  h.readMembers_self

/-- The fragments of the members of a document. -/
theorem memberFragments_eq_named (members : List (String × Json)) :
    memberFragments members = named (parsed members) := by
  rw [memberFragments_eq_map, named, parsed, List.map_map]
  rfl

/-- A document is read through its fragment. -/
theorem Reads.read_fragment {members : List (String × Json)}
    (h : fields.Reads (parsed members) value) :
    fields.read (Json.object members).fragment = .ok value := by
  rw [fragment, memberFragments_eq_named]
  exact h.read_object

/-! ## What a record was read from -/

/-- What a document gives of a field: the member of this name, or the item at its place. -/
def given? (fields : Fields α) : Fragment → String → Option Fragment
  | .object members _, name => member? members name
  | .array items _, name => NameMap.lookup name (fields.names.zip items)
  | _, _ => Option.none

/-- The value of a field with a default: what is given is read, and the default stands in for
    what is not. -/
inductive Defaulted (given : Option Fragment) (read : Reader α) (default : α) : α → Prop
  | given {fragment : Fragment} {value : α} :
      given = some fragment → read fragment = .ok value → Defaulted given read default value
  | missing : given = Option.none → Defaulted given read default default

/-- A field that is given has no default, so its value is never in doubt. -/
theorem Defaulted.unique {given : Option Fragment} {default other : α}
    (h : Defaulted given read default value) (hother : Defaulted given read default other) :
    value = other := by
  rcases h with ⟨hgiven, hread⟩ | hmissing <;> rcases hother with ⟨hgiven', hread'⟩ | hmissing'
  · cases hgiven.symm.trans hgiven'
    exact Except.ok.inj (hread.symm.trans hread')
  · cases hgiven.symm.trans hmissing'
  · cases hmissing.symm.trans hgiven'
  · rfl

variable {find : String → Option Fragment} {missing : String → ReadError}

end Fields

/-! ## Texts -/

/-- A whole number between the least and the greatest of 64 bits is read as it is. -/
theorem exact_of_le {value : Int} (hleast : Int64.minValue.toInt ≤ value)
    (hgreatest : value ≤ Int64.maxValue.toInt) : (Json.int value).Exact :=
  .int hleast (Int.lt_of_le_of_lt hgreatest (by decide))

theorem exact_int64 (value : Int64) : (Json.int value.toInt).Exact :=
  exact_of_le value.minValue_le_toInt value.toInt_le

theorem exact_int32 (value : Int32) : (Json.int value.toInt).Exact :=
  exact_of_le (Int.le_trans (by decide) value.minValue_le_toInt)
    (Int.le_trans value.toInt_le (by decide))

/-- A count may go beyond the signed numbers, up to the greatest unsigned one. -/
theorem exact_nat {value : Nat} (h : value < UInt64.size) : (Json.int value).Exact := by
  have hleast : Int64.minValue.toInt ≤ value :=
    Int.le_trans (by decide) (Int.natCast_nonneg value)
  exact .int hleast (Int.ofNat_lt.2 h)

/-- A text is read if it is one whole document that the reader accepts. -/
theorem readText_eq_ok {α : Type} {read : Reader α} {text : String} {value : α} :
    readText read text = .ok value ↔
      ∃ document, Fragment.ofText text = (document, true) ∧ read document = .ok value := by
  rw [readText]
  obtain ⟨document, alone⟩ := Fragment.ofText text
  cases alone <;> simp [bind_eq_ok, Reader.finished]

/-- What a reader makes of the fragment of a document it makes of the text. -/
theorem readText_text {α : Type} {read : Reader α} {json : Json} {value : α} (h : json.Exact)
    (hread : read json.fragment = .ok value) : readText read json.text = .ok value :=
  readText_eq_ok.2 ⟨_, ofText_text h, hread⟩

end Json

end DevicePlacement

/-!
# Maps keyed by names

A `NameMap` is a finite map from names to values: cost tables, op profiles, op
registries and the index of node names are such maps. It is a list of entries
with distinct names; a new name goes to the end, a known one keeps its place.

The map is read through `find?`, and two equations describe it:
`find?_insert` (the last insertion of a name wins) and `find?_insertNew` (the
first one wins).
-/

namespace DevicePlacement

/-- A finite map from names to values. -/
structure NameMap (α : Type) where
  /-- The entries, in the order in which their names first came. -/
  entries : List (String × α)
  /-- No name has two entries. -/
  nodup : (entries.map Prod.fst).Nodup

namespace NameMap

variable {α : Type}

/-- The map without entries. -/
def empty : NameMap α := ⟨[], List.nodup_nil⟩

instance : Inhabited (NameMap α) := ⟨empty⟩

instance : EmptyCollection (NameMap α) := ⟨empty⟩

/-- The value a list of entries gives to a name: that of the first entry. -/
def lookup (name : String) : List (String × α) → Option α
  | [] => none
  | (key, value) :: rest => if key = name then some value else lookup name rest

/-- A list of entries with the value of a name replaced, or the entry added at the end. -/
def put (name : String) (value : α) : List (String × α) → List (String × α)
  | [] => [(name, value)]
  | (key, old) :: rest =>
    if key = name then (name, value) :: rest else (key, old) :: put name value rest

theorem map_fst_put (name : String) (value : α) (entries : List (String × α)) :
    (put name value entries).map Prod.fst =
      if name ∈ entries.map Prod.fst then entries.map Prod.fst
      else entries.map Prod.fst ++ [name] := by
  induction entries with
  | nil => simp [put]
  | cons entry rest ih =>
    obtain ⟨key, old⟩ := entry
    by_cases h : key = name
    · subst h; simp [put]
    · have h' : name ≠ key := fun e => h e.symm
      by_cases hr : name ∈ rest.map Prod.fst
      · rw [if_pos hr] at ih
        rw [if_pos (by simp only [List.map_cons, List.mem_cons]; exact .inr hr)]
        simp [put, h, ih]
      · rw [if_neg hr] at ih
        rw [if_neg (by simp only [List.map_cons, List.mem_cons, not_or]; exact ⟨h', hr⟩)]
        simp [put, h, ih]

theorem nodup_map_fst_put (name : String) (value : α) {entries : List (String × α)}
    (h : (entries.map Prod.fst).Nodup) : ((put name value entries).map Prod.fst).Nodup := by
  rw [map_fst_put]
  split
  · exact h
  · next hn =>
    refine List.nodup_append.2 ⟨h, by simp, ?_⟩
    intro a ha b hb
    rw [List.mem_singleton] at hb
    rintro rfl
    exact hn (hb ▸ ha)

theorem lookup_put (name : String) (value : α) (entries : List (String × α)) (other : String) :
    lookup other (put name value entries) =
      if name = other then some value else lookup other entries := by
  induction entries with
  | nil => simp [put, lookup]
  | cons entry rest ih =>
    obtain ⟨key, old⟩ := entry
    by_cases h : key = name
    · subst h
      by_cases ho : key = other <;> simp [put, lookup, ho]
    · by_cases ho : key = other
      · subst ho
        simp [put, lookup, h, Ne.symm h]
      · simp [put, lookup, h, ho, ih]

/-- The value of a name. -/
def find? (map : NameMap α) (name : String) : Option α :=
  lookup name map.entries

/-- The map with the value of a name set. -/
def insert (map : NameMap α) (name : String) (value : α) : NameMap α where
  entries := put name value map.entries
  nodup := nodup_map_fst_put name value map.nodup

/-- The map with the value of a name set unless the name has one. -/
def insertNew (map : NameMap α) (name : String) (value : α) : NameMap α :=
  match map.find? name with
  | some _ => map
  | none => map.insert name value

/-- The map of a list of entries, of which the last of each name counts. -/
def ofList (entries : List (String × α)) : NameMap α :=
  entries.foldl (fun map entry => map.insert entry.1 entry.2) empty

/-- The number of entries. -/
def size (map : NameMap α) : Nat :=
  map.entries.length

/-- Whether there are no entries. -/
def isEmpty (map : NameMap α) : Bool :=
  map.entries.isEmpty

/-- The values, in the order of the entries. -/
def values (map : NameMap α) : List α :=
  map.entries.map Prod.snd

theorem mem_of_lookup {name : String} {value : α} {entries : List (String × α)}
    (h : lookup name entries = some value) : (name, value) ∈ entries := by
  induction entries with
  | nil => cases h
  | cons entry rest ih =>
    rw [lookup] at h
    split at h
    · next hname => cases h; exact hname ▸ List.mem_cons_self
    · exact List.mem_cons_of_mem _ (ih h)

theorem mem_values_of_find? {map : NameMap α} {name : String} {value : α}
    (h : map.find? name = some value) : value ∈ map.values :=
  List.mem_map_of_mem (mem_of_lookup h)

@[simp]
theorem find?_empty (name : String) : (empty : NameMap α).find? name = none := rfl

theorem find?_insert (map : NameMap α) (name : String) (value : α) (other : String) :
    (map.insert name value).find? other =
      if name = other then some value else map.find? other :=
  lookup_put name value map.entries other

theorem find?_insertNew (map : NameMap α) (name : String) (value : α) (other : String) :
    (map.insertNew name value).find? other =
      if name = other ∧ map.find? name = none then some value else map.find? other := by
  unfold insertNew
  split
  · next old h => simp [h]
  · next h => simp [find?_insert, h]

end NameMap

end DevicePlacement

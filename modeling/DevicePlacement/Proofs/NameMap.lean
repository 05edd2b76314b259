import DevicePlacement.NameMap
import Mathlib.Data.List.Induction
import Mathlib.Data.List.Nodup

/-!
# What maps keyed by names hold

A list of entries gives a name the value of its first entry. If no name has two entries, this
is the only one, and the order of the entries does not matter (`lookup_eq_some_iff`,
`lookup_of_perm`). A map that entries are inserted into holds the last entry of each name
(`find?_foldl_insert`, `find?_ofList`), so all of them if the names differ
(`entries_ofList_of_nodup`).
-/

namespace DevicePlacement.NameMap

variable {α : Type} {name : String} {value : α} {entries more : List (String × α)}

/-- A name without an entry is not found. -/
theorem lookup_eq_none (h : name ∉ entries.map Prod.fst) : lookup name entries = none := by
  induction entries with
  | nil => rfl
  | cons entry entries ih =>
    rw [List.map_cons, List.mem_cons, not_or] at h
    rw [lookup, if_neg (Ne.symm h.1), ih h.2]

/-- Names are looked up as keys of any kind are. -/
theorem list_lookup_eq (name : String) (entries : List (String × α)) :
    entries.lookup name = lookup name entries := by
  induction entries with
  | nil => rfl
  | cons entry entries ih =>
    rw [List.lookup_cons, lookup, ih]
    by_cases h : entry.1 = name
    · rw [if_pos h, h, beq_self_eq_true]
    · rw [if_neg h, beq_eq_false_iff_ne.2 (Ne.symm h)]

/-- Entries that stand first are found first. -/
theorem lookup_append :
    lookup name (entries ++ more) = (lookup name entries).or (lookup name more) := by
  induction entries with
  | nil => rfl
  | cons entry entries ih =>
    rw [List.cons_append, lookup, lookup]
    split
    · rfl
    · exact ih

/-- In a list of named things, a name has the value of the first that is called so. -/
theorem lookup_map {β : Type} (key : β → String) (value : β → α) (l : List β) (name : String) :
    lookup name (l.map fun b => (key b, value b)) =
      (l.find? fun b => key b = name).map value := by
  induction l with
  | nil => rfl
  | cons b l ih =>
    rw [List.map_cons, lookup, List.find?_cons, ih]
    by_cases h : key b = name <;> simp [h]

/-- Entries of other names do not matter. -/
theorem lookup_filter (keep : String → Bool) (h : keep name = true) :
    lookup name (entries.filter fun entry => keep entry.1) = lookup name entries := by
  induction entries with
  | nil => rfl
  | cons entry entries ih =>
    rw [List.filter_cons, lookup]
    split
    · rw [lookup, ih]
    next hentry =>
    have hne : entry.1 ≠ name := fun heq => hentry (heq ▸ h)
    rw [ih, if_neg hne]

/-- If no name has two entries, to find an entry is to have it. -/
theorem lookup_eq_some_iff (h : (entries.map Prod.fst).Nodup) :
    lookup name entries = some value ↔ (name, value) ∈ entries := by
  refine ⟨mem_of_lookup, fun hmem => ?_⟩
  induction entries with
  | nil => cases hmem
  | cons entry entries ih =>
    rw [List.map_cons, List.nodup_cons] at h
    rw [lookup]
    rcases List.mem_cons.1 hmem with rfl | hmem
    · exact if_pos rfl
    · have hne : entry.1 ≠ name := fun heq => h.1 (heq ▸ List.mem_map_of_mem hmem)
      rw [if_neg hne, ih h.2 hmem]

/-- Entries of different names may stand in any order. -/
theorem lookup_of_perm (hnodup : (entries.map Prod.fst).Nodup) (h : more.Perm entries) :
    lookup name more = lookup name entries := by
  have hnodup' : (more.map Prod.fst).Nodup := (h.map Prod.fst).nodup_iff.2 hnodup
  refine Option.ext fun value => ?_
  rw [lookup_eq_some_iff hnodup, lookup_eq_some_iff hnodup', h.mem_iff]

/-- The last entry of a name counts, and then what the map held before. -/
theorem find?_foldl_insert (entries : List (String × α)) (map : NameMap α) (name : String) :
    (entries.foldl (fun map entry => map.insert entry.1 entry.2) map).find? name =
      (lookup name entries.reverse).or (map.find? name) := by
  induction entries generalizing map with
  | nil => rfl
  | cons entry entries ih =>
    rw [List.foldl_cons, ih, List.reverse_cons, lookup_append, find?_insert, Option.or_assoc,
      lookup, lookup]
    congr 1
    split <;> rfl

/-- A map that is built entry by entry has the last one for each name, which is the first one from
    behind. -/
theorem find?_ofList (entries : List (String × α)) (name : String) :
    (ofList entries).find? name = lookup name entries.reverse := by
  rw [ofList, find?_foldl_insert, find?_empty, Option.or_none]

/-- If no name has two entries, it does not matter from which side they are searched. -/
theorem find?_ofList_of_nodup (h : (entries.map Prod.fst).Nodup) :
    (ofList entries).find? name = lookup name entries := by
  rw [find?_ofList, lookup_of_perm h entries.reverse_perm]

/-- A new name comes last. -/
theorem put_of_not_mem (h : name ∉ entries.map Prod.fst) :
    put name value entries = entries ++ [(name, value)] := by
  induction entries with
  | nil => rfl
  | cons entry entries ih =>
    rw [List.map_cons, List.mem_cons, not_or] at h
    rw [put, if_neg (Ne.symm h.1), ih h.2, List.cons_append]

/-- Entries without a repeated name are kept as they are, in their order. -/
theorem entries_ofList_of_nodup (h : (entries.map Prod.fst).Nodup) :
    (ofList entries).entries = entries := by
  induction entries using List.reverseRecOn with
  | nil => rfl
  | append_singleton entries entry ih =>
    rw [List.map_append, List.map_singleton, List.nodup_append] at h
    obtain ⟨hnodup, _, hnew⟩ := h
    have hname : entry.1 ∉ entries.map Prod.fst := fun hmem =>
      hnew _ hmem _ (List.mem_singleton_self _) rfl
    have hinsert : (ofList (entries ++ [entry])).entries =
        put entry.1 entry.2 (ofList entries).entries := by
      rw [ofList, List.foldl_append]
      rfl
    rw [hinsert, ih hnodup, put_of_not_mem hname]

end DevicePlacement.NameMap

import DevicePlacement.Placement.Basic
import DevicePlacement.Proofs.Returns
import Mathlib.Data.List.Induction
import Mathlib.Data.List.Nodup

/-!
# Rosters number devices faithfully

Enrolling devices only adds names at the end (`names_enroll`), so a device that
has a number keeps it, and no two devices share one (`nodup_enrollAll`,
`nameOf_inj`). The roster of an inventory holds its names in order and each once
(`names_ofInventory`), and later enrolments do not change which devices are
candidates (`map_nameOf_candidates`, `candidates_enrollAll`).
-/

namespace DevicePlacement.Roster

open Checked

variable {roster : Roster} {device : String} {devices : List String}

/-- The name of a device; empty for a number that no device has. -/
def nameOf (roster : Roster) (number : Nat) : String :=
  roster.names.getD number ""

/-- Every number up to the size has a name, and no other. -/
theorem name_eq_ok_iff {number : Nat} {name : String} :
    roster.name number = .ok name ↔ number < roster.size ∧ roster.nameOf number = name := by
  rw [Roster.name, row_eq_ok_iff, nameOf, size, List.getD_eq_getElem?_getD]
  constructor
  · intro h
    exact ⟨(List.getElem?_eq_some_iff.1 h).1, by rw [h, Option.getD_some]⟩
  · rintro ⟨h, rfl⟩
    rw [List.getElem?_eq_getElem h, Option.getD_some]

/-- Without repeated names, devices are told apart by name as by number. -/
theorem nameOf_inj (h : roster.names.Nodup) {i j : Nat} (hi : i < roster.size)
    (hj : j < roster.size) : roster.nameOf i = roster.nameOf j ↔ i = j :=
  List.getD_inj hi hj h

theorem nameOf_of_getElem? {number : Nat} {name : String}
    (h : roster.names[number]? = some name) : roster.nameOf number = name := by
  rw [nameOf, List.getD_eq_getElem?_getD, h, Option.getD_some]

/-- A roster that begins with another one knows its devices by the same names. -/
theorem nameOf_of_prefix {later : Roster} (h : roster.names <+: later.names) {number : Nat}
    (hlt : number < roster.size) : later.nameOf number = roster.nameOf number := by
  rw [nameOf_of_getElem? (List.prefix_iff_getElem?.1 h number hlt),
    nameOf_of_getElem? (List.getElem?_eq_getElem hlt)]

/-- The names of all numbers are the names of the roster, in order. -/
theorem map_nameOf_range (roster : Roster) :
    (List.range roster.size).map roster.nameOf = roster.names := by
  refine List.ext_getElem (by simp [size]) fun i h _ => ?_
  rw [List.getElem_map, List.getElem_range]
  exact nameOf_of_getElem? (List.getElem?_eq_getElem _)

theorem nameOf_mem {number : Nat} (h : number < roster.size) :
    roster.nameOf number ∈ roster.names := by
  rw [← map_nameOf_range]
  exact List.mem_map_of_mem (List.mem_range.2 h)

/-! ## Enrolment -/

/-- A device that is known is not entered again. -/
theorem names_enroll (roster : Roster) (device : String) :
    (roster.enroll device).1.names =
      if device ∈ roster.names then roster.names else roster.names ++ [device] := by
  rw [enroll]
  split
  · next number h => rw [if_pos (List.isSome_idxOf?.1 (by rw [h]; rfl))]
  · next h => rw [if_neg (List.idxOf?_eq_none_iff.1 h)]

theorem inventorySize_enroll (roster : Roster) (device : String) :
    (roster.enroll device).1.inventorySize = roster.inventorySize := by
  rw [enroll]
  split <;> rfl

/-- The number that a device is given is that of its name. -/
theorem getElem?_enroll (roster : Roster) (device : String) :
    (roster.enroll device).1.names[(roster.enroll device).2]? = some device := by
  rw [enroll]
  split
  · next number h =>
    obtain ⟨hlt, hget, _⟩ := List.idxOf?_eq_some_iff.1 h
    exact List.getElem?_eq_some_iff.2 ⟨hlt, hget⟩
  · exact List.getElem?_concat_length

/-- So no name is entered twice. -/
theorem nodup_enroll (h : roster.names.Nodup) : (roster.enroll device).1.names.Nodup := by
  rw [names_enroll]
  split
  · exact h
  · next hd => exact List.nodup_append_comm.1 (List.nodup_cons.2 ⟨hd, h⟩)

/-- After it is entered, a device is known, and so is any that was. -/
theorem mem_names_enroll {name : String} :
    name ∈ (roster.enroll device).1.names ↔ name ∈ roster.names ∨ name = device := by
  rw [names_enroll]
  split
  · next hd => exact ⟨.inl, fun h => h.elim id fun e => e ▸ hd⟩
  · rw [List.mem_append, List.mem_singleton]

theorem enrollAll_cons (roster : Roster) (device : String) (devices : List String) :
    roster.enrollAll (device :: devices) = (roster.enroll device).1.enrollAll devices := rfl

/-- The new names of a list come after the known ones, in its order and each once. -/
theorem names_enrollAll (roster : Roster) (devices : List String) :
    (roster.enrollAll devices).names =
      roster.names ++ (devices.removeAll roster.names).eraseDups := by
  induction devices generalizing roster with
  | nil => simp [enrollAll]
  | cons device devices ih =>
    rw [enrollAll_cons, ih, names_enroll]
    by_cases hd : device ∈ roster.names
    · rw [if_pos hd, List.cons_removeAll, if_neg (by simpa using hd)]
    · -- Later occurrences of the device are known by then; `eraseDups` drops them
      -- from the rest of the list.
      have hfilter : devices.removeAll (roster.names ++ [device]) =
          (devices.removeAll roster.names).filter fun name => !name == device := by
        simp only [List.removeAll, List.filter_filter]
        refine List.filter_congr fun name _ => ?_
        rw [Bool.eq_iff_iff]
        simp [and_comm]
      rw [if_neg hd, List.cons_removeAll, if_pos (by simpa using hd), List.eraseDups_cons,
        List.append_assoc, List.singleton_append, hfilter]

theorem inventorySize_enrollAll (roster : Roster) (devices : List String) :
    (roster.enrollAll devices).inventorySize = roster.inventorySize := by
  induction devices generalizing roster with
  | nil => rfl
  | cons device devices ih => rw [enrollAll_cons, ih, inventorySize_enroll]

/-- Nor is a name of a list. -/
theorem nodup_enrollAll (h : roster.names.Nodup) : (roster.enrollAll devices).names.Nodup := by
  induction devices generalizing roster with
  | nil => exact h
  | cons device devices ih => exact ih (nodup_enroll h)

/-- All devices of the list are known afterwards. -/
theorem mem_names_enrollAll {name : String} :
    name ∈ (roster.enrollAll devices).names ↔ name ∈ roster.names ∨ name ∈ devices := by
  induction devices generalizing roster with
  | nil => simp [enrollAll]
  | cons device devices ih => rw [enrollAll_cons, ih, mem_names_enroll, List.mem_cons, or_assoc]

/-- Those that were there keep their numbers. -/
theorem names_prefix_enrollAll (roster : Roster) (devices : List String) :
    roster.names <+: (roster.enrollAll devices).names :=
  ⟨_, (names_enrollAll roster devices).symm⟩

/-! ## Inventories -/

/-- The inventory is entered without repetitions. -/
theorem names_ofInventory (inventory : List String) :
    (ofInventory inventory).names = inventory.eraseDups := by
  change (enrollAll ⟨[], 0⟩ inventory).names = _
  rw [names_enrollAll, List.nil_append, List.removeAll_nil]

theorem inventorySize_ofInventory (inventory : List String) :
    (ofInventory inventory).inventorySize = (ofInventory inventory).names.length := rfl

theorem nodup_ofInventory (inventory : List String) : (ofInventory inventory).names.Nodup := by
  change (enrollAll ⟨[], 0⟩ inventory).names.Nodup
  exact nodup_enrollAll List.nodup_nil

/-- The roster of an inventory knows its devices and no others. -/
theorem mem_names_ofInventory {inventory : List String} {name : String} :
    name ∈ (ofInventory inventory).names ↔ name ∈ inventory := by
  change name ∈ (enrollAll ⟨[], 0⟩ inventory).names ↔ _
  rw [mem_names_enrollAll]
  simp

/-- Without repetitions, the devices of an inventory are in the order in which they
    occur in it first. -/
theorem pairwise_idxOf_eraseDups (inventory : List String) :
    inventory.eraseDups.Pairwise fun device later =>
      inventory.idxOf device < inventory.idxOf later := by
  induction inventory using List.reverseRecOn with
  | nil => exact .nil
  | append_singleton inventory last ih =>
    rw [List.eraseDups_append, List.pairwise_append]
    refine ⟨ih.imp_of_mem fun ha hb hlt => ?_, ?_, fun a ha b hb => ?_⟩
    · rwa [List.idxOf_append_of_mem (List.mem_eraseDups.1 ha),
        List.idxOf_append_of_mem (List.mem_eraseDups.1 hb)]
    · by_cases hl : last ∈ inventory <;> simp [List.removeAll, hl, List.eraseDups_cons]
    · obtain ⟨rfl, hl⟩ : b = last ∧ b ∉ inventory := by simpa [List.removeAll] using hb
      rw [List.idxOf_append_of_mem (List.mem_eraseDups.1 ha), List.idxOf_append_of_notMem hl]
      exact Nat.lt_add_right _ (List.idxOf_lt_length_iff.2 (List.mem_eraseDups.1 ha))

/-! ## Candidates -/

/-- Candidates are taken from the inventory, in its order. -/
theorem map_nameOf_candidates (roster : Roster) (pinned : PinnedPattern) :
    (roster.candidates pinned).map roster.nameOf =
      (roster.names.take roster.inventorySize).filter fun name => !pinned.isPinned name := by
  -- Numbers are positions in the list of names, so they lead back to the names.
  have hname : ∀ entry ∈ (roster.names.take roster.inventorySize).zipIdx,
      roster.nameOf entry.2 = entry.1 := by
    intro entry h
    rw [List.mem_zipIdx_iff_getElem?, List.getElem?_take] at h
    exact nameOf_of_getElem? (Option.ite_none_right_eq_some.1 h).2
  rw [candidates, List.map_map]
  calc List.map (roster.nameOf ∘ Prod.snd) _
      = List.map Prod.fst (((roster.names.take roster.inventorySize).zipIdx).filter
          fun entry => !pinned.isPinned entry.1) :=
        List.map_congr_left fun entry h => hname entry (List.mem_filter.1 h).1
    _ = (((roster.names.take roster.inventorySize).zipIdx).map Prod.fst).filter
          fun name => !pinned.isPinned name := by rw [List.filter_map]; rfl
    _ = _ := by rw [List.zipIdx_map_fst]

/-- Devices that are enrolled later are not candidates. -/
theorem candidates_enrollAll (h : roster.inventorySize ≤ roster.size) (devices : List String)
    (pinned : PinnedPattern) :
    (roster.enrollAll devices).candidates pinned = roster.candidates pinned := by
  rw [candidates, candidates, inventorySize_enrollAll, names_enrollAll,
    List.take_append_of_le_length h]

/-- A candidate has a number in the roster and a name of the inventory that is
    not pinned. -/
theorem of_mem_candidates {pinned : PinnedPattern} {number : Nat}
    (h : number ∈ roster.candidates pinned) :
    number < roster.size ∧ roster.nameOf number ∈ roster.names.take roster.inventorySize ∧
      pinned.isPinned (roster.nameOf number) = false := by
  have hname := List.mem_map_of_mem (f := roster.nameOf) h
  rw [map_nameOf_candidates, List.mem_filter, Bool.not_eq_true'] at hname
  refine ⟨?_, hname⟩
  obtain ⟨entry, hentry, rfl⟩ := List.mem_map.1 h
  have hlt := List.snd_lt_of_mem_zipIdx (List.mem_filter.1 hentry).1
  rw [List.length_take] at hlt
  simp only [size]
  omega

end DevicePlacement.Roster

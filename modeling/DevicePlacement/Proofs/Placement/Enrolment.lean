import DevicePlacement.NameMap
import DevicePlacement.Proofs.Placement.Safety

/-!
# What enrolling devices comes to

A roster is made of an inventory, and then devices are enrolled in it, in any order and as often
as one likes. It numbers them faithfully (`Roster.Faithful`): numbers and devices correspond, a
number means the same device for good, and the candidates are those of the inventory, whatever
was enrolled later. The first of them is the default device.

A roster is searched for a name whenever a device is enrolled. A `Register` also keeps the
numbers by name, so that no search is needed; the two tables stay in step
(`Register.Tracks`).

Numbers are for placements: nodes of a graph are assigned to devices by their numbers, and in the
end the graph has the names there, for the nodes that were assigned and for no others
(`Placement.Rewrites`). `enrolment_of_inventory` puts the three together.
-/

namespace DevicePlacement

open Checked Function

/-! ## The correspondence -/

namespace Roster

variable {roster : Roster} {inventory devices : List String} {device name : String} {number : Nat}

/-- The numbers that the devices of a list are given when they are enrolled one by one. -/
def numbers (roster : Roster) : List String → List Nat
  | [] => []
  | device :: devices => (roster.enroll device).2 :: numbers (roster.enroll device).1 devices

theorem name_eq_ok_iff_getElem? : roster.name number = .ok name ↔
    roster.names[number]? = some name :=
  row_eq_ok_iff

/-- The number that a device is given means the device. -/
theorem name_enroll (roster : Roster) (device : String) :
    (roster.enroll device).1.name (roster.enroll device).2 = .ok device :=
  name_eq_ok_iff_getElem?.2 (roster.getElem?_enroll device)

/-- A number keeps its meaning while devices are enrolled. -/
theorem name_enrollAll (h : roster.name number = .ok name) (devices : List String) :
    (roster.enrollAll devices).name number = .ok name := by
  rw [name_eq_ok_iff] at h ⊢
  have hbegin := roster.names_prefix_enrollAll devices
  rw [ nameOf_of_prefix hbegin h.1]
  exact ⟨h.1.trans_le hbegin.length_le, h.2⟩

/-- So do the numbers that the devices of a list are given. -/
theorem map_name_numbers (roster : Roster) (devices : List String) :
    (roster.numbers devices).map (roster.enrollAll devices).name = devices.map .ok := by
  induction devices generalizing roster with
  | nil => rfl
  | cons device devices ih =>
    rw [numbers, List.map_cons, List.map_cons, enrollAll_cons, ih,
      name_enrollAll (roster.name_enroll device)]

/-- No two numbers mean the same device. -/
theorem eq_of_name (h : roster.names.Nodup) {other : Nat} (hnumber : roster.name number = .ok name)
    (hother : roster.name other = .ok name) : number = other := by
  rw [name_eq_ok_iff] at hnumber hother
  exact (nameOf_inj h hnumber.1 hother.1).1 (hnumber.2.trans hother.2.symm)

/-- Without repeated names, a number means a device exactly if the search for the device finds
    it. -/
theorem idxOf?_eq_some_iff (h : roster.names.Nodup) :
    roster.names.idxOf? device = some number ↔ roster.name number = .ok device := by
  rw [List.idxOf?_eq_some_iff, name_eq_ok_iff_getElem?]
  constructor
  · rintro ⟨hlt, hget, _⟩
    exact List.getElem?_eq_some_iff.2 ⟨hlt, hget⟩
  · intro hget
    obtain ⟨hlt, hget⟩ := List.getElem?_eq_some_iff.1 hget
    refine ⟨hlt, hget, fun earlier hearlier heq => hearlier.ne ?_⟩
    exact (h.getElem_inj_iff).1 (heq.trans hget.symm)

/-- A device that has a number is given it again. -/
theorem enroll_of_name (h : roster.names.Nodup) (hname : roster.name number = .ok device) :
    roster.enroll device = (roster, number) := by
  rw [enroll, (idxOf?_eq_some_iff h).2 hname]

/-- Two enrolments give one number exactly if they are of one device. -/
theorem enroll_inj (h : roster.names.Nodup) (device other : String) :
    (roster.enroll device).2 = ((roster.enroll device).1.enroll other).2 ↔ device = other := by
  have hname := roster.name_enroll device
  constructor
  · intro heq
    have hother := (roster.enroll device).1.name_enroll other
    have hkept := name_enrollAll hname [other]
    rw [heq] at hkept
    exact Except.ok.inj (hkept.symm.trans hother)
  · rintro rfl
    rw [enroll_of_name (nodup_enroll h) hname]

/-- The devices of the inventory come first, each once, and then those that are new. -/
theorem names_enrollAll_ofInventory (inventory devices : List String) :
    ((ofInventory inventory).enrollAll devices).names =
      inventory.eraseDups ++ (devices.filter fun device => device ∉ inventory).eraseDups := by
  rw [names_enrollAll, names_ofInventory, List.removeAll]
  congr 2
  refine List.filter_congr fun device _ => ?_
  simp

/-! ## Candidates -/

/-- What is looked for is found first where it occurs first. -/
theorem find?_eraseDups (p : String → Bool) (l : List String) :
    l.eraseDups.find? p = l.find? p := by
  induction l using List.reverseRecOn with
  | nil => rfl
  | append_singleton l last ih =>
    rw [List.eraseDups_append, List.find?_append, List.find?_append, ih]
    by_cases hlast : last ∈ l
    · -- A repetition is only reached if nothing was found before, itself included.
      have hnone : [last].removeAll l = [] := by simp [List.removeAll, hlast]
      rw [hnone]
      cases hfind : l.find? p with
      | some found => rfl
      | none =>
        have hp := List.find?_eq_none.1 hfind last hlast
        rw [List.find?_singleton, if_neg hp]
        rfl
    · have hself : [last].removeAll l = [last] := by simp [List.removeAll, hlast]
      rw [hself]
      rfl

/-- Candidates are known by name. -/
theorem map_name_candidates (roster : Roster) (pinned : PinnedPattern) :
    (roster.candidates pinned).map roster.name =
      ((roster.names.take roster.inventorySize).filter fun name => !pinned.isPinned name).map
        .ok := by
  rw [← map_nameOf_candidates, List.map_map]
  exact List.map_congr_left fun number hn => name_eq_ok_iff.2 ⟨(of_mem_candidates hn).1, rfl⟩

/-- What a roster says that was made of an inventory and in which devices were then enrolled. -/
structure Faithful (inventory devices : List String) (roster : Roster) : Prop where
  /-- The devices of the inventory come first, then the others, in the order in which they were
      first met; each once. -/
  names : roster.names =
    inventory.eraseDups ++ (devices.filter fun device => device ∉ inventory).eraseDups
  inventorySize : roster.inventorySize = inventory.eraseDups.length
  /-- The numbers that were given are of the devices that they were given to. -/
  numbers : ((ofInventory inventory).numbers devices).map roster.name = devices.map .ok
  /-- All numbers up to the size mean a device, -/
  named : ∀ number, Returns (roster.name number) ↔ number < roster.size
  /-- and it is one number each for the devices that were met. -/
  numbered : ∀ device, (∃! number, roster.name number = .ok device) ↔
    device ∈ inventory ∨ device ∈ devices
  /-- The number that a device is given next means this device, -/
  enroll : ∀ device, (roster.enroll device).1.name (roster.enroll device).2 = .ok device
  /-- is the one that it has, if it has one, -/
  known : ∀ number device, roster.name number = .ok device →
    roster.enroll device = (roster, number)
  /-- and is not that of another device. -/
  distinct : ∀ device other,
    (roster.enroll device).2 = ((roster.enroll device).1.enroll other).2 ↔ device = other
  /-- Numbers keep their meaning whatever is enrolled later. -/
  kept : ∀ number name more, roster.name number = .ok name →
    (roster.enrollAll more).name number = .ok name
  /-- The candidates are the devices of the inventory, each once, that are not pinned, -/
  candidates : ∀ pinned : PinnedPattern, (roster.candidates pinned).map roster.name =
    (inventory.eraseDups.filter fun device => !pinned.isPinned device).map .ok
  /-- whatever is enrolled later. -/
  settled : ∀ pinned more, (roster.enrollAll more).candidates pinned = roster.candidates pinned
  /-- The first one is the default device, and there is one if there is a default device. -/
  default : ∀ pinned : PinnedPattern, (roster.candidates pinned).head?.map roster.name =
    (pinned.defaultDevice? inventory).map .ok
  nonempty : ∀ pinned : PinnedPattern,
    roster.candidates pinned ≠ [] ↔ (pinned.defaultDevice? inventory).isSome = true

/-- The first candidate is the default device: both are the first of the inventory that is not
    pinned. -/
theorem map_name_head?_candidates (inventory devices : List String) (pinned : PinnedPattern) :
    (((ofInventory inventory).enrollAll devices).candidates pinned).head?.map
        ((ofInventory inventory).enrollAll devices).name =
      (pinned.defaultDevice? inventory).map .ok := by
  rw [← List.head?_map, map_name_candidates, inventorySize_enrollAll, names_enrollAll,
    inventorySize_ofInventory, List.take_left, List.head?_map, List.head?_filter,
    names_ofInventory, find?_eraseDups, PinnedPattern.defaultDevice?]

/-- This is what the placement relies on when it works with numbers for devices. -/
theorem faithful_enrollAll (inventory devices : List String) :
    Faithful inventory devices ((ofInventory inventory).enrollAll devices) := by
  have hnodup : ((ofInventory inventory).enrollAll devices).names.Nodup :=
    nodup_enrollAll (nodup_ofInventory inventory)
  have hsize : ((ofInventory inventory).enrollAll devices).inventorySize =
      (ofInventory inventory).names.length := by
    rw [inventorySize_enrollAll, inventorySize_ofInventory]
  -- That names are entered once, and the inventory first, carries all the rest.
  have hdefault := map_name_head?_candidates inventory devices
  exact {
    names := names_enrollAll_ofInventory inventory devices
    inventorySize := by rw [hsize, names_ofInventory]
    numbers := map_name_numbers _ devices
    named := fun number => by
      refine ⟨fun h => (name_eq_ok_iff.1 h.choose_spec).1, fun h => ?_⟩
      exact ⟨_, name_eq_ok_iff.2 ⟨h, rfl⟩⟩
    numbered := fun device => by
      rw [← mem_names_ofInventory, ← mem_names_enrollAll, List.mem_iff_getElem?]
      refine ⟨fun h => ?_, fun h => ?_⟩
      · exact h.exists.imp fun number hname => name_eq_ok_iff_getElem?.1 hname
      · obtain ⟨number, hget⟩ := h
        have hname := name_eq_ok_iff_getElem?.2 hget
        exact ⟨number, hname, fun other hother => eq_of_name hnodup hother hname⟩
    enroll := fun device => name_enroll _ device
    known := fun number device hname => enroll_of_name hnodup hname
    distinct := fun device other => enroll_inj hnodup device other
    kept := fun number name more hname => name_enrollAll hname more
    candidates := fun pinned => by
      rw [map_name_candidates, hsize, names_enrollAll, List.take_left, names_ofInventory]
    settled := fun pinned more => by
      refine candidates_enrollAll ?_ more pinned
      rw [hsize, size, names_enrollAll, List.length_append]
      exact Nat.le_add_right _ _
    default := hdefault
    nonempty := fun pinned => by
      rw [← List.isSome_head?, ← Option.isSome_map, hdefault, Option.isSome_map] }

end Roster

/-! ## Two tables -/

/-- A roster that also keeps the numbers by name. -/
structure Register where
  /-- The names, each once. -/
  names : List String
  /-- The numbers of the names. -/
  numbers : NameMap Nat
  /-- The number of devices of the inventory. -/
  inventorySize : Nat

namespace Register

variable {register : Register} {roster : Roster}

/-- The register with a device, and the number of the device. -/
def enroll (register : Register) (device : String) : Register × Nat :=
  match register.numbers.find? device with
  | some number => (register, number)
  | none => ({ register with
      names := register.names ++ [device]
      numbers := register.numbers.insert device register.names.length }, register.names.length)

/-- The register with all devices of a list. -/
def enrollAll (register : Register) (devices : List String) : Register :=
  devices.foldl (fun register device => (register.enroll device).1) register

/-- The register of an inventory. -/
def ofInventory (inventory : List String) : Register :=
  let register := enrollAll ⟨[], .empty, 0⟩ inventory
  { register with inventorySize := register.names.length }

/-- A register is in step with a roster: it has its names, and their numbers. -/
structure Tracks (register : Register) (roster : Roster) : Prop where
  names : register.names = roster.names
  numbers : ∀ device, register.numbers.find? device = roster.names.idxOf? device
  inventorySize : register.inventorySize = roster.inventorySize

/-- A device is given the same number in both, and they stay in step. -/
theorem Tracks.enroll (h : register.Tracks roster) (device : String) :
    (register.enroll device).2 = (roster.enroll device).2 ∧
      (register.enroll device).1.Tracks (roster.enroll device).1 := by
  rw [Register.enroll, Roster.enroll, h.numbers]
  cases hidx : roster.names.idxOf? device with
  | some number => exact ⟨rfl, h⟩
  | none =>
    refine ⟨congrArg _ h.names, congrArg (· ++ [device]) h.names, fun other => ?_, h.inventorySize⟩
    -- A new name is found at the end of the list, under the number it was given.
    have happend : (roster.names ++ [device]).idxOf? other =
        (roster.names.idxOf? other).or (([device].idxOf? other).map (· + roster.names.length)) :=
      List.findIdx?_append
    rw [NameMap.find?_insert, happend, h.numbers, h.names, List.idxOf?_cons]
    by_cases ho : device = other
    · subst ho
      rw [if_pos rfl, hidx, if_pos (beq_self_eq_true device), Option.map_some, Nat.zero_add,
        Option.none_or]
    · rw [if_neg ho, if_neg (by simpa using ho), List.idxOf?_nil, Option.map_none, Option.map_none,
        Option.or_none]

/-- They stay in step over a whole list. -/
theorem Tracks.enrollAll (h : register.Tracks roster) (devices : List String) :
    (register.enrollAll devices).Tracks (roster.enrollAll devices) := by
  induction devices generalizing register roster with
  | nil => exact h
  | cons device devices ih => exact ih (h.enroll device).2

/-- They begin in step. -/
theorem tracks_ofInventory (inventory : List String) :
    (ofInventory inventory).Tracks (Roster.ofInventory inventory) := by
  have hempty : Register.Tracks ⟨[], .empty, 0⟩ ⟨[], 0⟩ := ⟨rfl, fun _ => rfl, rfl⟩
  have h := hempty.enrollAll inventory
  exact ⟨h.names, h.numbers, congrArg List.length h.names⟩

end Register

/-! ## Writing back -/

/-- The device that the last of some assignments gives to a position. -/
def lastAssigned (assignments : List (Nat × Nat)) (position : Nat) : Option Nat :=
  (assignments.reverse.find? fun assignment => assignment.1 = position).map Prod.snd

/-- Assignments that come later count before the first one. -/
theorem lastAssigned_cons (assignment : Nat × Nat) (assignments : List (Nat × Nat))
    (position : Nat) : lastAssigned (assignment :: assignments) position =
      (lastAssigned assignments position).or
        (if assignment.1 = position then some assignment.2 else none) := by
  rw [lastAssigned, List.reverse_cons, List.find?_append, Option.map_or, ← lastAssigned,
    List.find?_singleton]
  congr 1
  by_cases h : assignment.1 = position <;> simp [h]

/-- A graph with the devices that some assignments give to its nodes. -/
def Graph.reassign (graph : Graph) (roster : Roster) (assignments : List (Nat × Nat)) : Graph :=
  { graph with nodes := graph.nodes.mapIdx fun position node =>
      match lastAssigned assignments position with
      | some number => { node with device := roster.nameOf number }
      | none => node }

/-- Without assignments a graph stays as it is. -/
theorem Graph.reassign_nil (graph : Graph) (roster : Roster) :
    graph.reassign roster [] = graph := by
  rw [reassign]
  congr 1
  exact List.mapIdx_eq_iff.2 fun position => by
    cases graph.nodes[position]? <;> rfl

namespace Placement

variable {placement moved : Placement} {roster later : Roster} {graph : Graph} {position : Nat}
  {assignments : List (Nat × Nat)}

/-- The placement after some assignments of positions to devices, one after the other. -/
def assignAll (placement : Placement) (assignments : List (Nat × Nat)) : Except Fault Placement :=
  assignments.foldlM (fun placement assignment => placement.assign assignment.1 assignment.2)
    placement

/-- Nodes can be assigned in any way as long as they are there. -/
theorem returns_assignAll_iff : Returns (placement.assignAll assignments) ↔
    ∀ assignment ∈ assignments, assignment.1 < placement.devices.length := by
  -- Assignments never change the number of nodes, so the induction may go on from any placement.
  induction assignments generalizing placement with
  | nil => simp [assignAll, returns_pure]
  | cons assignment assignments ih =>
    rw [List.forall_mem_cons]
    constructor
    · rintro ⟨moved, h⟩
      obtain ⟨next, hnext, h⟩ := foldlM_cons_eq_ok.1 h
      obtain ⟨hlt, hlength, _⟩ := assign_eq_ok hnext
      exact ⟨hlt, hlength ▸ ih.1 ⟨moved, h⟩⟩
    · rintro ⟨hlt, hrest⟩
      obtain ⟨next, hnext⟩ := returns_assign hlt assignment.2
      obtain ⟨_, hlength, _⟩ := assign_eq_ok hnext
      obtain ⟨moved, h⟩ := ih.2 (hlength ▸ hrest)
      exact ⟨moved, foldlM_cons_eq_ok.2 ⟨next, hnext, h⟩⟩

/-- Of the assignments of a position the last one counts. -/
theorem assignAll_eq_ok (h : placement.assignAll assignments = .ok moved) :
    moved.devices.length = placement.devices.length ∧ ∀ position,
      moved.site position = (lastAssigned assignments position).or (placement.site position) := by
  induction assignments generalizing placement with
  | nil =>
    rw [assignAll, foldlM_nil_eq_ok] at h
    subst h
    exact ⟨rfl, fun _ => rfl⟩
  | cons assignment assignments ih =>
    obtain ⟨next, hnext, h⟩ := foldlM_cons_eq_ok.1 h
    obtain ⟨_, hlength, hsite⟩ := assign_eq_ok hnext
    obtain ⟨hlength', hsite'⟩ := ih h
    refine ⟨hlength'.trans hlength, fun position => ?_⟩
    rw [hsite', lastAssigned_cons, Option.or_assoc, hsite, update_apply]
    congr 1
    by_cases hp : assignment.1 = position
    · rw [if_pos hp, if_pos hp.symm, Option.some_or]
    · rw [if_neg hp, if_neg (Ne.symm hp), Option.none_or]

/-- A placement can be written back only if all its sites have a name. -/
theorem within_of_place (hl : placement.devices.length = graph.nodes.length)
    (h : Returns (placement.place roster graph)) : placement.Within roster := by
  intro position number hsite
  rw [site, Option.join_eq_some_iff] at hsite
  obtain ⟨hlt, hget⟩ := List.getElem?_eq_some_iff.1 hsite
  obtain ⟨placed, h⟩ := h
  obtain ⟨nodes, hnodes, _⟩ := bind_eq_ok.1 h
  have hz : position < (graph.nodes.zip placement.devices).length := by
    rw [List.length_zip, ← hl, Nat.min_self]
    exact hlt
  obtain ⟨node, hnode⟩ := returns_of_mapM ⟨nodes, hnodes⟩ _ (List.getElem_mem hz)
  rw [List.getElem_zip, hget] at hnode
  obtain ⟨name, hname, _⟩ := bind_eq_ok.1 hnode
  exact (Roster.name_eq_ok_iff.1 hname).1

/-- What comes of a graph whose nodes are assigned to devices of a roster, starting from the
    devices that they have. -/
structure Rewrites (placement : Placement) (roster : Roster) (graph : Graph) : Prop where
  /-- The nodes of the graph can be assigned as one likes, and there are no others. -/
  assigns : ∀ assignments, Returns (placement.assignAll assignments) ↔
    ∀ assignment ∈ assignments, assignment.1 < graph.nodes.length
  /-- If the devices that count are known, the graph has them at the positions that were assigned,
      and all else is as it was. -/
  places : ∀ assignments moved, placement.assignAll assignments = .ok moved →
    ∀ placed, moved.place roster graph = .ok placed ↔
      (∀ position number, lastAssigned assignments position = some number →
        number < roster.size) ∧ placed = graph.reassign roster assignments
  /-- Without assignments the graph is as it was. -/
  identical : placement.place roster graph = .ok graph

/-- The nodes that were not assigned still stand for their devices. -/
theorem mapIdx_siteName (roster : Roster) (graph : Graph) (more : List String)
    (hsite : ∀ position, moved.site position =
      (lastAssigned assignments position).or ((ofGraph roster graph).2.site position)) :
    { graph with nodes := graph.nodes.mapIdx fun position node =>
        node.moveTo (moved.siteName ((ofGraph roster graph).1.enrollAll more) position) } =
      graph.reassign ((ofGraph roster graph).1.enrollAll more) assignments := by
  rw [Graph.reassign]
  congr 1
  refine List.mapIdx_eq_mapIdx_iff.2 fun position hp => ?_
  rw [siteName, hsite]
  cases lastAssigned assignments position with
  | some number => rfl
  | none =>
    -- A node without an assignment still has its own device, by its old number.
    have hstands := (stands_ofGraph roster graph (List.getElem?_eq_getElem hp)).mono
      (Roster.names_prefix_enrollAll _ more)
    rw [Option.none_or, hstands.map_nameOf, Node.moveTo_site?]

/-- The placement of a graph can be assigned anew and written back to the graph. -/
theorem rewrites_ofGraph (roster : Roster) (graph : Graph) (more : List String) :
    (ofGraph roster graph).2.Rewrites ((ofGraph roster graph).1.enrollAll more) graph := by
  have hbegin := Roster.names_prefix_enrollAll (ofGraph roster graph).1 more
  -- Writing back needs a name for every site: new sites have one by assumption, old ones anyway.
  have hplaces : ∀ assignments moved, (ofGraph roster graph).2.assignAll assignments = .ok moved →
      ∀ placed, moved.place ((ofGraph roster graph).1.enrollAll more) graph = .ok placed ↔
        (∀ position number, lastAssigned assignments position = some number →
          number < ((ofGraph roster graph).1.enrollAll more).size) ∧
        placed = graph.reassign ((ofGraph roster graph).1.enrollAll more) assignments := by
    intro assignments moved hmoved placed
    obtain ⟨hlength, hsite⟩ := assignAll_eq_ok hmoved
    rw [length_ofGraph] at hlength
    constructor
    · intro hplaced
      refine ⟨fun position number hlast => ?_, ?_⟩
      · refine within_of_place hlength ⟨placed, hplaced⟩ position number ?_
        rw [hsite, hlast, Option.some_or]
      · rw [nodes_place hplaced hlength, mapIdx_siteName roster graph more hsite]
    · rintro ⟨hlast, rfl⟩
      have hwithin : moved.Within ((ofGraph roster graph).1.enrollAll more) := by
        intro position number hnumber
        rw [hsite, Option.or_eq_some_iff] at hnumber
        rcases hnumber with hnumber | ⟨_, hnumber⟩
        · exact hlast position number hnumber
        · exact (within_ofGraph roster graph position number hnumber).trans_le hbegin.length_le
      obtain ⟨placed, hplaced⟩ := hwithin.returns_place graph
      rw [hplaced, nodes_place hplaced hlength, mapIdx_siteName roster graph more hsite]
  refine ⟨fun assignments => ?_, hplaces, ?_⟩
  · rw [returns_assignAll_iff, length_ofGraph]
  · -- To write the placement back as it is is to assign nothing.
    have hnone := (hplaces [] _ (foldlM_nil_eq_ok.2 rfl) graph).2
    exact hnone ⟨nofun, (graph.reassign_nil _).symm⟩

end Placement

/-! ## All together -/

/-- What enrolling devices comes to, in a roster and in a register. -/
structure Enrolment (inventory devices : List String) (roster : Roster) (register : Register) :
    Prop where
  faithful : Roster.Faithful inventory devices roster
  tracks : register.Tracks roster
  /-- The register gives a device the number that the roster gives it. -/
  agrees : ∀ device, (register.enroll device).2 = (roster.enroll device).2
  /-- Its two tables are inverse to each other. -/
  inverse : ∀ device number,
    register.numbers.find? device = some number ↔ register.names[number]? = some device
  /-- The placement of a graph enrolls the devices of its nodes. -/
  enrolls : ∀ graph,
    (Placement.ofGraph roster graph).1 = roster.enrollAll (Placement.mentioned graph.nodes)
  rewrites : ∀ graph more, (Placement.ofGraph roster graph).2.Rewrites
    ((Placement.ofGraph roster graph).1.enrollAll more) graph

/-- Whatever devices are enrolled after those of the inventory, they are numbered faithfully, the
    candidates are settled, and placements are written back as they were assigned. -/
theorem enrolment_of_inventory (inventory devices : List String) :
    Enrolment inventory devices ((Roster.ofInventory inventory).enrollAll devices)
      ((Register.ofInventory inventory).enrollAll devices) := by
  have htracks := (Register.tracks_ofInventory inventory).enrollAll devices
  have hnodup : ((Roster.ofInventory inventory).enrollAll devices).names.Nodup :=
    Roster.nodup_enrollAll (Roster.nodup_ofInventory inventory)
  exact {
    faithful := Roster.faithful_enrollAll inventory devices
    tracks := htracks
    agrees := fun device => (htracks.enroll device).1
    inverse := fun device number => by
      rw [htracks.numbers, Roster.idxOf?_eq_some_iff hnodup, Roster.name_eq_ok_iff_getElem?,
        htracks.names]
    enrolls := fun graph => Placement.roster_ofGraph _ graph
    rewrites := fun graph more => Placement.rewrites_ofGraph _ graph more }

/-- A graph with nodes on a device of its own, on no device and on a device of an inventory. -/
def Graph.scattered : Graph :=
  .ofNodes [⟨"x", "Const", "dev1", []⟩, ⟨"y", "Const", "", []⟩, ⟨"z", "Add", "dev0", []⟩]

/-- An inventory with a repetition, a device without a name, and a node that is assigned twice. -/
theorem enrolment_of_repetitions : ∃ roster register,
    Enrolment ["dev0", "CPU", "dev0", ""] ["dev9", "CPU", "dev9"] roster register ∧
      roster.names = ["dev0", "CPU", "", "dev9"] ∧
      (Roster.ofInventory ["dev0", "CPU", "dev0", ""]).numbers ["dev9", "CPU", "dev9"] =
        [3, 1, 3] ∧
      roster.candidates .standard = [0, 2] ∧
      PinnedPattern.standard.defaultDevice? ["dev0", "CPU", "dev0", ""] = some "dev0" ∧
      (((Placement.ofGraph roster .scattered).2.assignAll [(1, 3), (2, 0), (1, 1)]).bind
        fun moved => moved.place (Placement.ofGraph roster .scattered).1
          .scattered).toOption.map (fun placed => placed.nodes.map Node.device) =
        some ["dev1", "CPU", "dev0"] := by
  exact ⟨_, _, enrolment_of_inventory ["dev0", "CPU", "dev0", ""] ["dev9", "CPU", "dev9"],
    by decide +kernel, by decide +kernel, by decide +kernel, by decide +kernel, by decide +kernel⟩

end DevicePlacement

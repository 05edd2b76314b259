import DevicePlacement.Proofs.Placement.Roster
import Mathlib.Logic.Function.Basic

/-!
# Where the nodes are

The *site* of a position is the device of the node there, if it is assigned
(`Placement.site`). Sites are numbers of a roster; by name, those of the
placement of a graph are the devices in its nodes (`forall₂_ofGraph`).

* `assign_eq_ok`: assigning a node changes its own site and no other;
* `nodes_place`: writing a placement back changes nothing but devices, and
  leaves every node on its site.
-/

namespace DevicePlacement

/-- The device a node is assigned to, if there is one. -/
def Node.site? (node : Node) : Option String :=
  if node.isAssigned then some node.device else none

/-- A node moved to a device, if one is given. -/
def Node.moveTo (node : Node) (device : Option String) : Node :=
  { node with device := device.getD node.device }

/-- A node that is moved to where it is stays as it is. -/
theorem Node.moveTo_site? (node : Node) : node.moveTo node.site? = node := by
  rw [Node.site?]
  split <;> rfl

namespace Placement

open Checked Function

variable {placement next : Placement} {roster : Roster} {position : Nat}

/-- The device of the node at a position. -/
def site (placement : Placement) (position : Nat) : Option Nat :=
  placement.devices[position]?.join

/-- The name of the device of the node at a position. -/
def siteName (placement : Placement) (roster : Roster) (position : Nat) : Option String :=
  (placement.site position).map roster.nameOf

/-- All sites have a number in the roster. -/
def Within (placement : Placement) (roster : Roster) : Prop :=
  ∀ position device, placement.site position = some device → device < roster.size

theorem device_eq_ok_iff {device : Option Nat} :
    placement.device position = .ok device ↔
      position < placement.devices.length ∧ placement.site position = device := by
  rw [Placement.device, row_eq_ok_iff, site]
  constructor
  · intro h
    exact ⟨(List.getElem?_eq_some_iff.1 h).1, by rw [h, Option.join_some]⟩
  · rintro ⟨h, rfl⟩
    rw [List.getElem?_eq_getElem h, Option.join_some]

/-- A node that has a site is there to be asked for it. -/
theorem device_of_site {device : Nat} (h : placement.site position = some device) :
    placement.device position = .ok (some device) := by
  refine device_eq_ok_iff.2 ⟨?_, h⟩
  rw [site, Option.join_eq_some_iff] at h
  exact (List.getElem?_eq_some_iff.1 h).1

/-- Assigning a node changes its own site and no other. -/
theorem assign_eq_ok {device : Nat} (h : placement.assign position device = .ok next) :
    position < placement.devices.length ∧ next.devices.length = placement.devices.length ∧
      next.site = update placement.site position (some device) := by
  obtain ⟨devices, hset, hnext⟩ := bind_eq_ok.1 h
  obtain ⟨hlt, rfl⟩ := setRow_eq_ok_iff.1 hset
  rw [pure_eq_ok] at hnext
  subst hnext
  refine ⟨hlt, List.length_set, ?_⟩
  funext other
  rw [update_apply, site, List.getElem?_set]
  by_cases ho : other = position
  · subst ho
    rw [if_pos rfl, if_pos rfl, if_pos hlt, Option.join_some]
  · rw [if_neg (Ne.symm ho), if_neg ho, site]

/-- A node that is sent to a device of the roster leaves all sites in it. -/
theorem Within.update {device : Nat} (h : placement.Within roster) (hd : device < roster.size)
    (hnext : next.site = update placement.site position (some device)) : next.Within roster := by
  intro other number hn
  rw [hnext, update_apply] at hn
  split at hn
  · cases hn; exact hd
  · exact h other number hn

/-! ## The placement of a graph -/

/-- The number is that of the device of the node, or there is none if the node
    is not assigned. -/
def Stands (roster : Roster) (node : Node) : Option Nat → Prop
  | some number => node.isAssigned = true ∧ roster.names[number]? = some node.device
  | none => node.isAssigned = false

/-- Devices that are entered later do not change what a number means. -/
theorem Stands.mono {later : Roster} {node : Node} {number : Option Nat}
    (h : Stands roster node number) (hl : roster.names <+: later.names) :
    Stands later node number := by
  cases number with
  | none => exact h
  | some number =>
    obtain ⟨hlt, hget⟩ := List.getElem?_eq_some_iff.1 h.2
    exact ⟨h.1, by rw [List.prefix_iff_getElem?.1 hl number hlt, hget]⟩

/-- The site of a node is the name of its number. -/
theorem Stands.map_nameOf {node : Node} {number : Option Nat} (h : Stands roster node number) :
    number.map roster.nameOf = node.site? := by
  cases number with
  | none => rw [Node.site?, if_neg (by rw [show _ = false from h]; exact Bool.false_ne_true)]; rfl
  | some number =>
    rw [Node.site?, if_pos h.1, Option.map_some, Roster.nameOf_of_getElem? h.2]

/-- The nodes are entered from the first one on; unassigned ones are passed over. -/
theorem enrollNodes_cons (roster : Roster) (node : Node) (nodes : List Node) :
    enrollNodes roster (node :: nodes) =
      if node.isAssigned then
        ((enrollNodes (roster.enroll node.device).1 nodes).1,
          some (roster.enroll node.device).2 ::
            (enrollNodes (roster.enroll node.device).1 nodes).2)
      else
        ((enrollNodes roster nodes).1, none :: (enrollNodes roster nodes).2) := rfl

/-- The devices of a list of nodes, in order, those of nodes that are not
    assigned left out. -/
def mentioned (nodes : List Node) : List String :=
  (nodes.filter Node.isAssigned).map Node.device

/-- Only the devices of assigned nodes are entered. -/
theorem roster_enrollNodes (roster : Roster) (nodes : List Node) :
    (enrollNodes roster nodes).1 = roster.enrollAll (mentioned nodes) := by
  induction nodes generalizing roster with
  | nil => rfl
  | cons node nodes ih =>
    rw [enrollNodes_cons, mentioned]
    by_cases h : node.isAssigned
    · rw [if_pos h, List.filter_cons_of_pos h, List.map_cons, Roster.enrollAll_cons, ih, mentioned]
    · rw [if_neg h, List.filter_cons_of_neg h, ih, mentioned]

/-- Every node gets the number of its device, which holds in the final roster. -/
theorem forall₂_enrollNodes (roster : Roster) (nodes : List Node) :
    List.Forall₂ (Stands (enrollNodes roster nodes).1) nodes (enrollNodes roster nodes).2 := by
  induction nodes generalizing roster with
  | nil => exact .nil
  | cons node nodes ih =>
    rw [enrollNodes_cons]
    by_cases h : node.isAssigned
    · rw [if_pos h]
      have hnumber : Stands (roster.enroll node.device).1 node
          (some (roster.enroll node.device).2) :=
        ⟨h, Roster.getElem?_enroll roster node.device⟩
      refine .cons (hnumber.mono ?_) (ih _)
      -- A number that was given stays the same while the rest is enrolled.
      rw [roster_enrollNodes]
      exact Roster.names_prefix_enrollAll ..
    · rw [if_neg h]
      exact .cons (by simpa [Stands] using h) (ih _)

theorem roster_ofGraph (roster : Roster) (graph : Graph) :
    (ofGraph roster graph).1 = roster.enrollAll (mentioned graph.nodes) :=
  roster_enrollNodes roster graph.nodes

theorem forall₂_ofGraph (roster : Roster) (graph : Graph) :
    List.Forall₂ (Stands (ofGraph roster graph).1) graph.nodes
      (ofGraph roster graph).2.devices :=
  forall₂_enrollNodes roster graph.nodes

theorem length_ofGraph (roster : Roster) (graph : Graph) :
    (ofGraph roster graph).2.devices.length = graph.nodes.length :=
  (forall₂_ofGraph roster graph).length_eq.symm

/-- What the placement of a graph says of a position is what its node says. -/
theorem stands_ofGraph (roster : Roster) (graph : Graph) {node : Node}
    (h : graph.nodes[position]? = some node) :
    Stands (ofGraph roster graph).1 node ((ofGraph roster graph).2.site position) := by
  obtain ⟨hlt, rfl⟩ := List.getElem?_eq_some_iff.1 h
  have hlt' : position < (ofGraph roster graph).2.devices.length := by rwa [length_ofGraph]
  rw [site, List.getElem?_eq_getElem hlt', Option.join_some]
  exact (forall₂_ofGraph roster graph).get hlt hlt'

/-- Beyond the last node there are no sites. -/
theorem site_of_length_le (h : placement.devices.length ≤ position) :
    placement.site position = none := by
  rw [site, List.getElem?_eq_none h, Option.join_none]

/-- The sites of the placement of a graph are, by name, the devices in its nodes. -/
theorem siteName_ofGraph (roster : Roster) (graph : Graph) (position : Nat) :
    (ofGraph roster graph).2.siteName (ofGraph roster graph).1 position =
      (graph.nodes[position]?).bind Node.site? := by
  cases h : graph.nodes[position]? with
  | none =>
    rw [siteName, site_of_length_le (by rw [length_ofGraph]; exact List.getElem?_eq_none_iff.1 h)]
    rfl
  | some node => exact (stands_ofGraph roster graph h).map_nameOf

/-- A placement begins with sites that have names. -/
theorem within_ofGraph (roster : Roster) (graph : Graph) :
    (ofGraph roster graph).2.Within (ofGraph roster graph).1 := by
  intro position device h
  cases hn : graph.nodes[position]? with
  | none =>
    rw [site_of_length_le (by rw [length_ofGraph]; exact List.getElem?_eq_none_iff.1 hn)] at h
    cases h
  | some node =>
    have hs := stands_ofGraph roster graph hn
    rw [h] at hs
    exact (List.getElem?_eq_some_iff.1 hs.2).1

/-! ## Writing back -/

/-- A node is written back under the name of its number. -/
theorem placeNode_eq_ok {node placed : Node} {number : Option Nat}
    (h : placeNode roster node number = .ok placed) :
    placed = node.moveTo (number.map roster.nameOf) := by
  cases number with
  | none => cases h; rfl
  | some number =>
    obtain ⟨name, hname, h⟩ := bind_eq_ok.1 h
    rw [pure_eq_ok] at h
    rw [← h, ← (Roster.name_eq_ok_iff.1 hname).2]
    rfl

/-- Writing a placement back changes nothing but devices, and leaves every node
    on its site. -/
theorem nodes_place {graph placed : Graph} (h : placement.place roster graph = .ok placed)
    (hl : placement.devices.length = graph.nodes.length) :
    placed = { graph with
      nodes := graph.nodes.mapIdx fun position node =>
        node.moveTo (placement.siteName roster position) } := by
  obtain ⟨nodes, hnodes, h⟩ := bind_eq_ok.1 h
  rw [pure_eq_ok] at h
  subst h
  -- Nodes and sites are zipped, so the lengths must agree for no node to get lost.
  have hf := mapM_eq_ok_iff.1 hnodes
  have hlen : nodes.length = graph.nodes.length := by
    rw [← hf.length_eq, List.length_zip, hl, Nat.min_self]
  congr 1
  refine List.ext_getElem (by rw [hlen, List.length_mapIdx]) fun position hp _ => ?_
  have hz : position < (graph.nodes.zip placement.devices).length := by rwa [hf.length_eq]
  have hplaced := placeNode_eq_ok (hf.get hz hp)
  rw [List.get_eq_getElem] at hplaced
  have hd : position < placement.devices.length := by rw [hl, ← hlen]; exact hp
  rw [hplaced, List.getElem_mapIdx, siteName, site, List.getElem?_eq_getElem hd, Option.join_some]
  simp only [List.get_eq_getElem, List.getElem_zip]

end Placement

end DevicePlacement

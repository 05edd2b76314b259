import DevicePlacement.Placement.Traffic
import DevicePlacement.Proofs.InStep
import DevicePlacement.Proofs.Lists
import DevicePlacement.Proofs.NameMap
import DevicePlacement.Proofs.Placement.PricedGraph
import DevicePlacement.Proofs.Placement.Sites
import Mathlib.Data.Set.Function

/-!
# Renaming devices and nodes

A `Renaming` gives other names to devices and nodes. As long as it keeps apart the
names that occur, all that placement works out from names comes out the same:

* `Placement.enrollNodes_rename`: devices get the same numbers;
* `Roster.candidates_rename`: the same numbers are candidates, if pinned devices stay
  pinned;
* `Graph.producers_of_names`: inputs mean the same producers;
* `Estimate.cost?_rename`: nodes have the same costs.

Nodes are alike up to a renaming (`Node.Alike`) if their op types agree and so do, once
renamed, their names, their devices and the producers of their data inputs. Control
inputs and output ports may differ.
-/

namespace DevicePlacement

/-- Other names for devices and nodes. -/
structure Renaming where
  device : String → String
  node : String → String

/-- The renaming that leaves all names as they are. -/
def Renaming.same : Renaming := ⟨id, id⟩

/-! ## What is renamed -/

/-- The input from the node of another name. -/
def InputRef.rename (f : String → String) : InputRef → InputRef
  | data producer port => data (f producer) port
  | control producer => control (f producer)

/-- The node with its name, its device and its inputs renamed. -/
def Node.rename (names : Renaming) (node : Node) : Node where
  name := names.node node.name
  op := node.op
  device := names.device node.device
  inputs := node.inputs.map (InputRef.rename names.node)

/-- The graph with its nodes renamed. -/
def Graph.rename (names : Renaming) (graph : Graph) : Graph :=
  { graph with nodes := graph.nodes.map (Node.rename names) }

/-- The map with its names renamed. -/
def NameMap.rename {α : Type} (f : String → String) (map : NameMap α) : NameMap α :=
  .ofList (map.entries.map fun entry => (f entry.1, entry.2))

/-- The estimate of the renamed nodes. -/
def Estimate.rename (names : Renaming) (estimate : Estimate) : Estimate :=
  { estimate with nodes := estimate.nodes.rename names.node }

/-- The roster with its devices renamed. -/
def Roster.rename (f : String → String) (roster : Roster) : Roster :=
  { roster with names := roster.names.map f }

/-! ## Devices -/

namespace Roster

open Checked

variable {f : String → String} {known : Set String} {roster : Roster} {device : String}
  {devices : List String}

/-- Different names stay different, so the search stops at the same place. -/
theorem idxOf?_rename (hf : Set.InjOn f known) (hroster : ∀ name ∈ roster.names, name ∈ known)
    (hdevice : device ∈ known) :
    (roster.rename f).names.idxOf? (f device) = roster.names.idxOf? device := by
  refine findIdx?_eq_of_forall₂ (List.forall₂_map_right_iff.2 (List.forall₂_same.2 ?_))
  intro name hname
  rw [Bool.eq_iff_iff, beq_iff_eq, beq_iff_eq, hf.eq_iff (hroster name hname) hdevice]

/-- A renamed device has the number of the device. -/
theorem enroll_rename (hf : Set.InjOn f known) (hroster : ∀ name ∈ roster.names, name ∈ known)
    (hdevice : device ∈ known) :
    (roster.rename f).enroll (f device) =
      ((roster.enroll device).1.rename f, (roster.enroll device).2) := by
  rw [enroll, enroll, idxOf?_rename hf hroster hdevice]
  split <;> simp [rename]

/-- Renamed devices are enrolled in the same order. -/
theorem enrollAll_rename (hf : Set.InjOn f known) (hroster : ∀ name ∈ roster.names, name ∈ known)
    (hdevices : ∀ device ∈ devices, device ∈ known) :
    (roster.rename f).enrollAll (devices.map f) = (roster.enrollAll devices).rename f := by
  induction devices generalizing roster with
  | nil => rfl
  | cons device devices ih =>
    rw [List.forall_mem_cons] at hdevices
    rw [List.map_cons, enrollAll_cons, enroll_rename hf hroster hdevices.1, enrollAll_cons]
    refine ih (fun name hname => ?_) hdevices.2
    rcases mem_names_enroll.1 hname with hname | rfl
    · exact hroster name hname
    · exact hdevices.1

/-- The roster of a renamed inventory is the renamed roster. -/
theorem ofInventory_rename (hf : Set.InjOn f known)
    (hdevices : ∀ device ∈ devices, device ∈ known) :
    ofInventory (devices.map f) = (ofInventory devices).rename f := by
  have hempty : ∀ name ∈ (⟨[], 0⟩ : Roster).names, name ∈ known := by simp
  have hnames : enrollAll ⟨[], 0⟩ (devices.map f) = (enrollAll ⟨[], 0⟩ devices).rename f :=
    enrollAll_rename hf hempty hdevices
  simp only [ofInventory, hnames]
  simp [rename]

/-- The same devices are candidates if those that are pinned stay pinned. -/
theorem candidates_rename {pinned : PinnedPattern}
    (h : ∀ name ∈ roster.names, pinned.isPinned (f name) = pinned.isPinned name) :
    (roster.rename f).candidates pinned = roster.candidates pinned := by
  rw [candidates, candidates, rename, ← List.map_take]
  refine map_snd_filter_zipIdx_eq (p := fun name => !pinned.isPinned name)
    (q := fun name => !pinned.isPinned name) ?_ 0
  refine List.forall₂_map_right_iff.2 (List.forall₂_same.2 fun name hname => ?_)
  rw [h name (List.mem_of_mem_take hname)]

/-- A number means the renamed device. -/
theorem inStep_name (f : String → String) (roster : Roster) (number : Nat) :
    InStep (fun name other => name ∈ roster.names ∧ other = f name) (roster.name number)
      ((roster.rename f).name number) := by
  have hnames : List.Forall₂ (fun name other => name ∈ roster.names ∧ other = f name)
      roster.names (roster.rename f).names :=
    List.forall₂_map_right_iff.2 (List.forall₂_same.2 fun name hname => ⟨hname, rfl⟩)
  exact inStep_row hnames number

end Roster

/-! ## Nodes -/

/-- The other node is a node with its names renamed, as far as placement looks at it. -/
structure Node.Alike (names : Renaming) (node other : Node) : Prop where
  name : other.name = names.node node.name
  op : other.op = node.op
  device : other.device = names.device node.device
  producers : other.dataInputs.map InputRef.producer =
    (node.dataInputs.map InputRef.producer).map names.node

/-- A renamed node is like the node itself. -/
theorem Node.alike_rename (names : Renaming) (node : Node) :
    node.Alike names (node.rename names) where
  name := rfl
  op := rfl
  device := rfl
  producers := by
    rw [dataInputs, rename, List.filter_map, List.map_map, List.map_map, dataInputs]
    have hcontrol : (fun input => !input.isControl) ∘ InputRef.rename names.node =
        fun input => !input.isControl := by
      funext input
      cases input <;> rfl
    rw [hcontrol]
    refine List.map_congr_left fun input _ => ?_
    cases input <;> rfl

/-- The empty name stays empty, and no other becomes empty. -/
theorem Node.Alike.isAssigned_eq {names : Renaming} {known : Set String} {node other : Node}
    (h : node.Alike names other) (hdevice : Set.InjOn names.device known)
    (hempty : names.device "" = "") (hknown : "" ∈ known) (hnode : node.device ∈ known) :
    other.isAssigned = node.isAssigned := by
  have hiff : names.device node.device = "" ↔ node.device = "" := by
    rw [← hdevice.eq_iff hnode hknown, hempty]
  rw [isAssigned, isAssigned, h.device, Bool.eq_iff_iff, decide_eq_true_iff, decide_eq_true_iff,
    not_iff_not, hiff]

namespace Placement

open Checked

/-- Renamed devices get the numbers of the devices, and nodes stand where they stood. -/
theorem enrollNodes_rename {names : Renaming} {known : Set String} {roster : Roster}
    {nodes others : List Node} (hdevice : Set.InjOn names.device known)
    (hempty : names.device "" = "") (hknown : "" ∈ known)
    (hroster : ∀ name ∈ roster.names, name ∈ known) (hnodes : ∀ node ∈ nodes, node.device ∈ known)
    (h : List.Forall₂ (Node.Alike names) nodes others) :
    enrollNodes (roster.rename names.device) others =
      ((enrollNodes roster nodes).1.rename names.device, (enrollNodes roster nodes).2) := by
  induction h generalizing roster with
  | nil => rfl
  | @cons node other nodes others hnode _ ih =>
    rw [List.forall_mem_cons] at hnodes
    rw [enrollNodes_cons, enrollNodes_cons,
      hnode.isAssigned_eq hdevice hempty hknown hnodes.1]
    by_cases ha : node.isAssigned
    · -- The roster grows by a device of the graph, so all its names stay known.
      have hknown' : ∀ name ∈ (roster.enroll node.device).1.names, name ∈ known := by
        intro name hname
        rcases Roster.mem_names_enroll.1 hname with hname | rfl
        · exact hroster name hname
        · exact hnodes.1
      simp only [if_pos ha, hnode.device, Roster.enroll_rename hdevice hroster hnodes.1,
        ih hknown' hnodes.2]
    · simp only [if_neg ha, ih hroster hnodes.2]

/-- A node is written to its renamed device. -/
theorem inStep_placeNode {f : String → String} {node other : Node}
    (h : other.device = f node.device) (roster : Roster) (number : Option Nat) :
    InStep (fun placed placed' => placed'.device = f placed.device)
      (placeNode roster node number) (placeNode (roster.rename f) other number) := by
  cases number with
  | none => exact .returned h
  | some number =>
    refine (Roster.inStep_name ..).bind fun name name' hname => ?_
    exact inStep_pure hname.2

/-- Written back to renamed nodes, a placement gives them the renamed devices. -/
theorem inStep_place {f : String → String} {graph other : Graph}
    (h : List.Forall₂ (fun node node' => node'.device = f node.device) graph.nodes other.nodes)
    (placement : Placement) (roster : Roster) :
    InStep (fun placed placed' => List.Forall₂ (fun node node' => node'.device = f node.device)
        placed.nodes placed'.nodes)
      (placement.place roster graph) (placement.place (roster.rename f) other) := by
  have hnodes : List.Forall₂ (fun pair pair' =>
        InStep (fun node node' => node'.device = f node.device)
          (placeNode roster pair.1 pair.2) (placeNode (roster.rename f) pair'.1 pair'.2))
      (graph.nodes.zip placement.devices) (other.nodes.zip placement.devices) := by
    refine (forall₂_zip_right h placement.devices).imp fun pair pair' hpair => ?_
    rw [hpair.2]
    exact inStep_placeNode hpair.1 roster pair.2
  refine (inStep_mapM hnodes).bind fun placed placed' hplaced => ?_
  exact inStep_pure hplaced

end Placement

/-! ## Producers -/

namespace Graph

variable {f : String → String} {known : Set String} {graph other : Graph}
  (h : List.Forall₂ (fun node node' => node'.name = f node.name) graph.nodes other.nodes)
  (hf : Set.InjOn f known) (hnodes : ∀ node ∈ graph.nodes, node.name ∈ known)

include h hf hnodes

/-- A renamed name means the node that the name means. -/
theorem position?_of_names {name : String} (hname : name ∈ known) :
    other.position? (f name) = graph.position? name := by
  refine findIdx?_eq_of_forall₂ (((List.forall₂_and_left _ _).2 ⟨hnodes, h⟩).imp ?_)
  rintro node node' ⟨hnode, hrenamed⟩
  rw [hrenamed, Bool.eq_iff_iff, decide_eq_true_iff, decide_eq_true_iff, hf.eq_iff hnode hname]

/-- Inputs from renamed producers mean the producers that the inputs mean. -/
theorem producers_of_names {node node' : Node}
    (hinputs : ∀ input ∈ node.dataInputs, input.producer ∈ known)
    (hproducers : node'.dataInputs.map InputRef.producer =
      (node.dataInputs.map InputRef.producer).map f) :
    other.producers node' = graph.producers node := by
  have hproducer (graph : Graph) (node : Node) :
      graph.producers node = (node.dataInputs.map InputRef.producer).filterMap graph.position? := by
    rw [producers, List.filterMap_map]
    rfl
  rw [hproducer, hproducer, hproducers, List.filterMap_map]
  refine List.filterMap_congr fun name hname => ?_
  obtain ⟨input, hinput, rfl⟩ := List.mem_map.1 hname
  exact position?_of_names h hf hnodes (hinputs input hinput)

end Graph

/-! ## Estimates -/

namespace NameMap

variable {α : Type} {f : String → String} {known : Set String}

/-- An entry is found under its new name. -/
theorem lookup_rename {entries : List (String × α)} {name : String} (hf : Set.InjOn f known)
    (hentries : ∀ key ∈ entries.map Prod.fst, key ∈ known) (hname : name ∈ known) :
    lookup (f name) (entries.map fun entry => (f entry.1, entry.2)) = lookup name entries := by
  induction entries with
  | nil => rfl
  | cons entry entries ih =>
    rw [List.map_cons, List.forall_mem_cons] at hentries
    rw [List.map_cons, lookup, lookup, ih hentries.2]
    exact if_congr (hf.eq_iff hentries.1 hname) rfl rfl

/-- Renaming the names of a map does not change what they stand for. -/
theorem find?_rename {map : NameMap α} {name : String} (hf : Set.InjOn f known)
    (hmap : ∀ key ∈ map.entries.map Prod.fst, key ∈ known) (hname : name ∈ known) :
    (map.rename f).find? (f name) = map.find? name := by
  have hnodup : ((map.entries.map fun entry => (f entry.1, entry.2)).map Prod.fst).Nodup := by
    have hnames := map.nodup.map_on fun key hkey key' hkey' heq =>
      hf (hmap key hkey) (hmap key' hkey') heq
    rwa [List.map_map] at hnames ⊢
  rw [rename, find?_ofList_of_nodup hnodup, lookup_rename hf hmap hname, find?]

end NameMap

/-- The estimate has for a renamed node what it has for the node. -/
theorem Estimate.cost?_rename {names : Renaming} {known : Set String} {estimate : Estimate}
    {name : String} (hnode : Set.InjOn names.node known)
    (hentries : ∀ key ∈ estimate.nodes.entries.map Prod.fst, key ∈ known) (hname : name ∈ known) :
    (estimate.rename names).cost? (names.node name) = estimate.cost? name :=
  NameMap.find?_rename hnode hentries hname

end DevicePlacement

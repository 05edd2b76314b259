import DevicePlacement.Proofs.Placement.PricedGraph

/-!
# References resolved

A reference means the first node of its name (`Graph.FirstAt`). A priced graph resolves all
references once, when it is made, and from then on only looks into its tables. What it finds
there is what a search through the nodes of the graph finds (`PricedGraph.Indexes`), also if
names come more than once.

A data input that means no node is left out. A graph in which every input means one
(`Graph.danglingInput?_eq_none_iff`) therefore loses none of them (`Graph.length_producers`).
-/

namespace DevicePlacement

open Checked

namespace Graph

variable {graph : Graph} {name : String} {node : Node} {position : Nat}

/-- The first node of a name stands at a position. -/
structure FirstAt (graph : Graph) (name : String) (position : Nat) : Prop where
  here : ∃ node, graph.nodes[position]? = some node ∧ node.name = name
  not_before : ∀ earlier < position, ∀ node, graph.nodes[earlier]? = some node → node.name ≠ name

/-- The search goes from the front, so of repeated names the first one counts. -/
theorem position?_eq_some_iff : graph.position? name = some position ↔
    graph.FirstAt name position := by
  rw [position?, List.findIdx?_eq_some_iff_getElem]
  constructor
  · rintro ⟨hlt, hname, hbefore⟩
    refine ⟨⟨_, List.getElem?_eq_getElem hlt, of_decide_eq_true hname⟩, ?_⟩
    rintro earlier hearlier node hnode rfl
    obtain ⟨_, rfl⟩ := List.getElem?_eq_some_iff.1 hnode
    exact hbefore earlier hearlier (decide_eq_true rfl)
  · rintro ⟨⟨node, hnode, rfl⟩, hbefore⟩
    obtain ⟨hlt, rfl⟩ := List.getElem?_eq_some_iff.1 hnode
    refine ⟨hlt, decide_eq_true rfl, fun earlier hearlier hname => ?_⟩
    exact hbefore earlier hearlier _ (List.getElem?_eq_getElem (hearlier.trans hlt))
      (of_decide_eq_true hname)

/-- It finds every name that a node has. -/
theorem isSome_position?_iff : (graph.position? name).isSome = true ↔
    ∃ node ∈ graph.nodes, node.name = name := by
  rw [position?, List.findIdx?_isSome, List.any_eq_true]
  simp

/-- No input dangles exactly if each one, data or control, names a node. -/
theorem danglingInput?_eq_none_iff : graph.danglingInput? = none ↔
    ∀ node ∈ graph.nodes, ∀ input ∈ node.inputs,
      ∃ other ∈ graph.nodes, other.name = input.producer := by
  rw [danglingInput?, List.findSome?_eq_none_iff]
  refine forall₂_congr fun node _ => ?_
  rw [Option.map_eq_none_iff, List.find?_eq_none]
  refine forall₂_congr fun input _ => ?_
  simp

/-- The producers of a node are looked up in the order of its inputs, and those of control
    inputs are not among them. -/
theorem producers_eq (graph : Graph) (node : Node) :
    graph.producers node = node.inputs.filterMap fun input => match input with
      | .data producer _ => graph.position? producer
      | .control _ => none := by
  rw [producers, Node.dataInputs, List.filterMap_filter]
  refine List.filterMap_congr fun input _ => ?_
  cases input <;> rfl

/-- If no input dangles, every data input has its producer. -/
theorem length_producers (h : graph.danglingInput? = none) (hnode : node ∈ graph.nodes) :
    (graph.producers node).length = node.dataInputs.length := by
  rw [producers, List.filterMap_length_eq_length]
  intro input hinput
  exact isSome_position?_iff.2
    (danglingInput?_eq_none_iff.1 h node hnode input (List.mem_of_mem_filter hinput))

/-- A producer is the node that its name means. -/
theorem node?_of_mem_producers {producer : Nat} (h : producer ∈ graph.producers node) :
    ∃ first, graph.nodes[producer]? = some first ∧ graph.node? first.name = some first := by
  obtain ⟨input, _, hposition⟩ := List.mem_filterMap.1 h
  obtain ⟨first, hfirst, hname⟩ := (position?_eq_some_iff.1 hposition).here
  refine ⟨first, hfirst, ?_⟩
  rw [node?_eq_bind, hname, hposition, Option.bind_some, hfirst]

end Graph

namespace PricedGraph

/-- What a priced graph answers about a graph and an estimate. -/
structure Indexes (priced : PricedGraph) (graph : Graph) (estimate : Estimate) : Prop where
  /-- A name means the position of its first node. -/
  position : ∀ name position, priced.position? name = some position ↔ graph.FirstAt name position
  /-- The node there is the one that a search finds, and there is none if it finds none. -/
  node : ∀ name, (priced.position? name).mapM priced.node = .ok (graph.node? name)
  cost : ∀ position node, graph.nodes[position]? = some node →
    priced.cost position = .ok (estimate.cost? node.name)
  /-- The producers are the nodes that the data inputs mean, one for each input that means
      one, in the order of the inputs. -/
  inputs : ∀ position node, graph.nodes[position]? = some node →
    priced.inputs position = .ok (node.inputs.filterMap fun input => match input with
      | .data producer _ => priced.position? producer
      | .control _ => none)

variable {graph : Graph} {estimate : Estimate}

/-- For every node the producers can be asked for. -/
theorem inputs_ofGraph {position : Nat} {node : Node} (hnode : graph.nodes[position]? = some node) :
    (ofGraph graph estimate).inputs position = .ok (graph.producers node) := by
  rw [inputs, row_eq_ok_iff, producers_ofGraph, List.getElem?_map, hnode, Option.map_some]

/-- Only the positions of nodes have producers. -/
theorem of_inputs_ofGraph {position : Nat} {producers : List Nat}
    (h : (ofGraph graph estimate).inputs position = .ok producers) :
    ∃ node, graph.nodes[position]? = some node ∧ producers = graph.producers node := by
  rw [inputs, row_eq_ok_iff, producers_ofGraph, List.getElem?_map] at h
  obtain ⟨node, hnode, hproducers⟩ := Option.map_eq_some_iff.1 h
  exact ⟨node, hnode, hproducers.symm⟩

/-- The node at the position of a name is the one that a search for the name finds. -/
theorem mapM_node_ofGraph (name : String) :
    ((ofGraph graph estimate).position? name).mapM (ofGraph graph estimate).node =
      .ok (graph.node? name) := by
  rw [position?_ofGraph, Graph.node?_eq_bind]
  cases hposition : graph.position? name with
  | none => rfl
  | some position =>
    obtain ⟨node, hnode, _⟩ := (Graph.position?_eq_some_iff.1 hposition).here
    have hrow : (ofGraph graph estimate).node position = .ok node := row_eq_ok_iff.2 hnode
    have hmap : (some position).mapM (ofGraph graph estimate).node =
        some <$> (ofGraph graph estimate).node position := rfl
    rw [hmap, hrow, Option.bind_some, hnode]
    rfl

/-- The tables are built in one pass through the graph, and answer as it does. -/
theorem indexes_ofGraph (graph : Graph) (estimate : Estimate) :
    (ofGraph graph estimate).Indexes graph estimate where
  position name position := by rw [position?_ofGraph, Graph.position?_eq_some_iff]
  node := mapM_node_ofGraph
  cost position node hnode := by
    have hcosts : (ofGraph graph estimate).costs =
        graph.nodes.map fun node => estimate.cost? node.name := rfl
    rw [PricedGraph.cost, row_eq_ok_iff, hcosts, List.getElem?_map, hnode, Option.map_some]
  inputs position node hnode := by
    rw [inputs_ofGraph hnode, Graph.producers_eq]
    simp only [position?_ofGraph]

/-- A priced graph agrees with a search through its graph. Whether all references of the graph
    lead to a node can be asked, and if they do, no data input has been left out. -/
theorem resolves_ofGraph (graph : Graph) (estimate : Estimate) :
    (ofGraph graph estimate).Indexes graph estimate ∧
      (graph.danglingInput? = none ↔ ∀ node ∈ graph.nodes, ∀ input ∈ node.inputs,
        ∃ other ∈ graph.nodes, other.name = input.producer) ∧
      (graph.danglingInput? = none → ∀ position node, graph.nodes[position]? = some node →
        ∃ producers, (ofGraph graph estimate).inputs position = .ok producers ∧
          producers.length = node.dataInputs.length) := by
  refine ⟨indexes_ofGraph graph estimate, Graph.danglingInput?_eq_none_iff, ?_⟩
  intro h position node hnode
  exact ⟨_, inputs_ofGraph hnode, Graph.length_producers h (List.mem_of_getElem? hnode)⟩

/-- A graph in which two nodes have the same name. -/
def twins : Graph :=
  .ofNodes [⟨"twin", "Const", "dev0", []⟩, ⟨"twin", "MatMul", "dev1", [.control "twin"]⟩,
    ⟨"sum", "Add", "dev1", [.data "twin" 0, .control "sum", .data "twin" 1]⟩]

theorem resolves_ofGraph_twins : twins.danglingInput? = none ∧
    ∃ producers, (ofGraph twins .empty).inputs 2 = .ok producers ∧ producers.length = 2 := by
  have hdangling : twins.danglingInput? = none := by decide +kernel
  exact ⟨hdangling, (resolves_ofGraph twins .empty).2.2 hdangling 2 _ rfl⟩

end PricedGraph

end DevicePlacement

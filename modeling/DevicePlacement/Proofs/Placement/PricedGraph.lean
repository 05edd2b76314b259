import DevicePlacement.Placement.PricedGraph
import DevicePlacement.Proofs.Returns

/-!
# Priced graphs look nodes up faithfully

A priced graph finds a name where a search through the nodes finds it first
(`find?_collectPositions`). So its tables hold, by position, the cost that the
estimate gives to the node (`cost?_ofGraph`) and the producers that its data
inputs mean (`producersOf_ofGraph`).

The tables are read through total functions here (`cost?`, `compute`,
`producersOf`), in exact integers; a checked look-up that returns gives the same.
-/

namespace DevicePlacement

/-- The position of the first node of a name. -/
def Graph.position? (graph : Graph) (name : String) : Option Nat :=
  graph.nodes.findIdx? fun node => node.name = name

/-- The producers of the data inputs of a node that are in the graph, in the order
    of the inputs. -/
def Graph.producers (graph : Graph) (node : Node) : List Nat :=
  node.dataInputs.filterMap fun input => graph.position? input.producer

/-- A producer that ships data to a consumer, by their positions. -/
structure Edge where
  producer : Nat
  consumer : Nat
  deriving DecidableEq, Repr

/-- The data inputs of all nodes, without those from nodes that are not in the graph. -/
def Graph.edges (graph : Graph) : List Edge :=
  graph.nodes.zipIdx.flatMap fun (node, consumer) =>
    (graph.producers node).map fun producer => ⟨producer, consumer⟩

/-- There is an edge for every producer of a node. -/
theorem Graph.mem_edges {graph : Graph} {edge : Edge} : edge ∈ graph.edges ↔
    ∃ node, graph.nodes[edge.consumer]? = some node ∧ edge.producer ∈ graph.producers node := by
  simp only [edges, List.mem_flatMap, List.mem_map, Prod.exists]
  constructor
  · rintro ⟨node, consumer, hnode, producer, hproducer, rfl⟩
    exact ⟨node, List.mem_zipIdx_iff_getElem?.1 hnode, hproducer⟩
  · rintro ⟨node, hnode, hproducer⟩
    exact ⟨node, edge.consumer, List.mem_zipIdx_iff_getElem?.2 hnode, edge.producer, hproducer, rfl⟩

/-- A producer is a node of the graph whose name one of the data inputs has. -/
theorem Graph.exists_of_mem_producers {graph : Graph} {node : Node} {position : Nat}
    (h : position ∈ graph.producers node) : ∃ producer, graph.nodes[position]? = some producer ∧
      ∃ input ∈ node.dataInputs, input.producer = producer.name := by
  obtain ⟨input, hinput, h⟩ := List.mem_filterMap.1 h
  obtain ⟨hlt, hname, _⟩ := List.findIdx?_eq_some_iff_getElem.1 h
  exact ⟨_, List.getElem?_eq_getElem hlt, input, hinput, (of_decide_eq_true hname).symm⟩

/-- Producers are nodes of the graph. -/
theorem Graph.lt_of_mem_producers {graph : Graph} {node : Node} {producer : Nat}
    (h : producer ∈ graph.producers node) : producer < graph.nodes.length := by
  obtain ⟨_, hnode, _⟩ := Graph.exists_of_mem_producers h
  exact (List.getElem?_eq_some_iff.1 hnode).1

/-- The node of a name stands at its position. -/
theorem Graph.node?_eq_bind (graph : Graph) (name : String) :
    graph.node? name = (graph.position? name).bind (graph.nodes[·]?) := by
  rw [node?, position?]
  induction graph.nodes with
  | nil => rfl
  | cons node nodes ih =>
    rw [List.find?_cons, List.findIdx?_cons]
    split
    · next h => simp [h]
    · next h =>
      simp only [h, ih, Bool.false_eq_true, if_false, Option.bind_map]
      rfl

/-- The compute cost of a node, zero if it has no entry. -/
def Estimate.compute (estimate : Estimate) (node : Node) : Int :=
  ((estimate.cost? node.name).map fun cost => cost.computeCost.toInt).getD 0

/-- The size of the output of a node, if it has an entry. -/
def Estimate.size? (estimate : Estimate) (node : Node) : Option Int :=
  (estimate.cost? node.name).map fun cost => cost.maxMemorySize.toInt

namespace PricedGraph

open Checked

variable {priced : PricedGraph} {position : Nat}

/-- The cost of the node at a position, if there is one that has a cost. -/
def cost? (priced : PricedGraph) (position : Nat) : Option NodeCost :=
  priced.costs[position]?.join

/-- The compute cost of the node at a position. -/
def compute (priced : PricedGraph) (position : Nat) : Int :=
  ((priced.cost? position).map fun cost => cost.computeCost.toInt).getD 0

/-- The size of the output of the node at a position, if it has a cost. -/
def size? (priced : PricedGraph) (position : Nat) : Option Int :=
  (priced.cost? position).map fun cost => cost.maxMemorySize.toInt

/-- The producers of the node at a position. -/
def producersOf (priced : PricedGraph) (position : Nat) : List Nat :=
  priced.producers.getD position []

/-- A cost that is found is that of the table. -/
theorem cost_eq_ok {cost : Option NodeCost} (h : priced.cost position = .ok cost) :
    priced.cost? position = cost := by
  rw [PricedGraph.cost, row_eq_ok_iff] at h
  rw [cost?, h, Option.join_some]

/-- A node without a cost has the compute cost zero. -/
theorem computeCost_eq_ok {cost : Int64} (h : priced.computeCost position = .ok cost) :
    cost.toInt = priced.compute position := by
  obtain ⟨cost?, hcost, h⟩ := bind_eq_ok.1 h
  rw [pure_eq_ok] at h
  subst h
  rw [compute, cost_eq_ok hcost]
  cases cost? with
  | none => rfl
  | some cost => rfl

/-- The producers that are found are those of the table. -/
theorem inputs_eq_ok {inputs : List Nat} (h : priced.inputs position = .ok inputs) :
    priced.producersOf position = inputs := by
  rw [PricedGraph.inputs, row_eq_ok_iff] at h
  rw [producersOf, List.getD_eq_getElem?_getD, h, Option.getD_some]

/-! ## The tables of a graph -/

/-- Positions that were there first stay, and a new name means its first node. -/
theorem find?_collectPositions (start : Nat) (nodes : List Node) (map : NameMap Nat)
    (name : String) :
    (collectPositions start nodes map).find? name =
      (map.find? name).or
        ((nodes.findIdx? fun node => node.name = name).map (· + start)) := by
  -- Positions count from `start`, which grows with every node passed.
  induction nodes generalizing start map with
  | nil => simp [collectPositions]
  | cons node nodes ih =>
    rw [collectPositions, ih, NameMap.find?_insertNew, List.findIdx?_cons]
    by_cases hn : node.name = name
    · subst hn
      cases hm : map.find? node.name with
      | none => simp
      | some position => simp
    · rw [if_neg fun h => hn h.1, if_neg (by simpa using hn), Option.map_map]
      congr 2
      funext index
      simp only [Function.comp_apply]
      omega

/-- The index that is built finds what a search through the graph does. -/
theorem position?_ofGraph (graph : Graph) (estimate : Estimate) (name : String) :
    (ofGraph graph estimate).position? name = graph.position? name := by
  change (collectPositions 0 graph.nodes NameMap.empty).find? name = _
  rw [find?_collectPositions, NameMap.find?_empty, Option.none_or, Graph.position?]
  exact Option.map_id'

/-- Nodes are priced by their names, so nodes of one name have one cost. -/
theorem cost?_ofGraph (graph : Graph) (estimate : Estimate) (position : Nat) :
    (ofGraph graph estimate).cost? position =
      (graph.nodes[position]?).bind fun node => estimate.cost? node.name := by
  change ((graph.nodes.map fun node => estimate.cost? node.name)[position]?).join = _
  rw [List.getElem?_map]
  cases graph.nodes[position]? with
  | none => rfl
  | some node => rfl

theorem compute_ofGraph {graph : Graph} {node : Node} (estimate : Estimate)
    (h : graph.nodes[position]? = some node) :
    (ofGraph graph estimate).compute position = estimate.compute node := by
  rw [compute, cost?_ofGraph, h, Option.bind_some, Estimate.compute]

theorem size?_ofGraph (graph : Graph) (estimate : Estimate) (position : Nat) :
    (ofGraph graph estimate).size? position = (graph.nodes[position]?).bind estimate.size? := by
  rw [size?, cost?_ofGraph, Option.map_bind]
  rfl

/-- The table of producers has a row for every node, in the order of the graph. -/
theorem producers_ofGraph (graph : Graph) (estimate : Estimate) :
    (ofGraph graph estimate).producers = graph.nodes.map graph.producers := by
  refine List.map_congr_left fun node _ => List.filterMap_congr fun input _ => ?_
  exact position?_ofGraph graph estimate input.producer

/-- The row at a position is that of its node. -/
theorem producersOf_ofGraph {graph : Graph} {node : Node} (estimate : Estimate)
    (h : graph.nodes[position]? = some node) :
    (ofGraph graph estimate).producersOf position = graph.producers node := by
  rw [producersOf, producers_ofGraph, List.getD_eq_getElem?_getD, List.getElem?_map, h]
  rfl

/-- Producers in the table come along edges of the graph. -/
theorem mem_edges_of_mem_producersOf {graph : Graph} {estimate : Estimate}
    {producer consumer : Nat} (h : producer ∈ (ofGraph graph estimate).producersOf consumer) :
    ⟨producer, consumer⟩ ∈ graph.edges := by
  cases hnode : graph.nodes[consumer]? with
  | some node => exact Graph.mem_edges.2 ⟨node, hnode, producersOf_ofGraph estimate hnode ▸ h⟩
  | none =>
    rw [List.getElem?_eq_none_iff] at hnode
    have hlen : (ofGraph graph estimate).producers.length ≤ consumer := by
      rwa [ofGraph, List.length_map]
    rw [producersOf, List.getD_eq_getElem?_getD, List.getElem?_eq_none hlen] at h
    cases h

/-- A priced graph with a row for every node, in which producers are nodes. -/
structure Closed (priced : PricedGraph) : Prop where
  costs : priced.costs.length = priced.size
  producers : priced.producers.length = priced.size
  producer_lt : ∀ position, ∀ producer ∈ priced.producersOf position, producer < priced.size

/-- The cost of every node can be asked for. -/
theorem Closed.returns_cost (h : priced.Closed) (hp : position < priced.size) :
    Returns (priced.cost position) :=
  returns_row (by rwa [h.costs])

/-- So can its compute cost. -/
theorem Closed.returns_computeCost (h : priced.Closed) (hp : position < priced.size) :
    Returns (priced.computeCost position) :=
  (h.returns_cost hp).bind fun _ _ => returns_pure _

/-- So can its producers. -/
theorem Closed.returns_inputs (h : priced.Closed) (hp : position < priced.size) :
    Returns (priced.inputs position) :=
  returns_row (by rwa [h.producers])

/-- The tables are made row by row from the nodes, so none is missing. -/
theorem closed_ofGraph (graph : Graph) (estimate : Estimate) : (ofGraph graph estimate).Closed where
  costs := List.length_map _
  producers := List.length_map _
  producer_lt position producer hp := by
    obtain ⟨node, _, hproducer⟩ := Graph.mem_edges.1 (mem_edges_of_mem_producersOf hp)
    exact Graph.lt_of_mem_producers hproducer

/-- If no entry of the estimate has a negative size, no node has. -/
theorem size?_nonneg {graph : Graph} {estimate : Estimate} {size : Int}
    (hsizes : ∀ cost ∈ estimate.nodes.values, 0 ≤ cost.maxMemorySize.toInt)
    (h : (ofGraph graph estimate).size? position = some size) : 0 ≤ size := by
  rw [size?_ofGraph, Option.bind_eq_some_iff] at h
  obtain ⟨node, _, h⟩ := h
  obtain ⟨cost, hcost, rfl⟩ := Option.map_eq_some_iff.1 h
  exact hsizes cost (NameMap.mem_values_of_find? hcost)

end PricedGraph

end DevicePlacement

import DevicePlacement.Proofs.Cost.Estimate
import DevicePlacement.Proofs.Cost.Format

/-!
# The life of a cost table

Costs are set in a table, it is prepared for graphs and asked for estimates, it is saved and
loaded again, all in any order (`CostTable.Run`). The events say what it answers afterwards: it
has the cost that was set last for a name (`CostTable.Run.cost?_eq`), which saving keeps, and it
is prepared for the last graph it was prepared for since it was created or loaded
(`CostTable.Run.preparedFor_eq`).

* `CostTable.exists_run`: any of this can happen to any table;
* `CostTable.load_of_run`: a table that is saved after a run is loaded with the costs that
  were set last, and has no estimates until it is prepared;
* `CostTable.answers_of_run`: for which graphs a table has an estimate after a run.

A table knows the graph it is prepared for by its key. A graph without an identifier has the
key `<anonymous>`, which can also be the identifier of another graph (`Graph.SameKey`), and the
two are not told apart (`CostTable.answers_other_graph`).
-/

namespace DevicePlacement

open Checked (Returns)
open CostSummary (TimesFit)

namespace Graph

/-- The graph has no identifier, or the one that stands for none. -/
def Nameless (graph : Graph) : Prop :=
  graph.id = none ∨ graph.id = some "<anonymous>"

/-- An estimator takes the graphs for the same. -/
def SameKey (graph other : Graph) : Prop :=
  graph.id = other.id ∨ graph.Nameless ∧ other.Nameless

/-- The key of a graph is its identifier, and one certain identifier stands for none. -/
theorem key_eq_iff {graph other : Graph} : graph.key = other.key ↔ graph.SameKey other := by
  rw [key, key, SameKey, Nameless, Nameless]
  cases graph.id with
  | none => cases other.id <;> simp [eq_comm]
  | some id =>
    cases other.id with
    | none => simp
    | some other => simpa using fun hid hother => hid.trans hother.symm

end Graph

namespace CostTable

/-- What can happen to a table. -/
inductive Event
  /-- The cost of a node is set. -/
  | insert (name : String) (cost : NodeCost)
  /-- The table is prepared for a graph. -/
  | prepare (graph : Graph)
  /-- The table is asked for the costs of a graph. -/
  | predict (graph : Graph)
  /-- The table is saved, and loaded from that file. -/
  | reload

/-- What becomes of a table by an event. -/
inductive Step (table : CostTable) : Event → CostTable → Prop
  | insert (name : String) (cost : NodeCost) :
    Step table (.insert name cost) (table.insert name cost)
  | prepare (graph : Graph) : Step table (.prepare graph) (table.prepare graph)
  | predict (graph : Graph) : Step table (.predict graph) table
  | reload {text : String} {loaded : CostTable} (hsaved : table.SavedAs text)
    (hloaded : load (.ok text) = .ok loaded) : Step table .reload loaded

/-- What becomes of a table by events, one after the other. -/
inductive Run (table : CostTable) : List Event → CostTable → Prop
  | nil : Run table [] table
  | concat {events : List Event} {event : Event} {middle last : CostTable}
    (hrun : Run table events middle) (hstep : Step middle event last) :
    Run table (events ++ [event]) last

/-- Every event can happen to every table. -/
theorem exists_step (table : CostTable) (event : Event) : ∃ next, Step table event next := by
  cases event with
  | insert name cost => exact ⟨_, .insert name cost⟩
  | prepare graph => exact ⟨_, .prepare graph⟩
  | predict graph => exact ⟨_, .predict graph⟩
  | reload =>
    obtain ⟨loaded, hloaded, _⟩ := load_of_savedAs table.savedAs_toText
    exact ⟨loaded, .reload table.savedAs_toText hloaded⟩

/-- So can any events, one after the other. -/
theorem exists_run (table : CostTable) (events : List Event) : ∃ later, Run table events later := by
  induction events using List.reverseRecOn with
  | nil => exact ⟨table, .nil⟩
  | append_singleton events event ih =>
    obtain ⟨middle, hrun⟩ := ih
    obtain ⟨later, hstep⟩ := middle.exists_step event
    exact ⟨later, .concat hrun hstep⟩

/-- The cost of a name after an event. -/
def Event.cost? (name : String) (cost? : Option NodeCost) : Event → Option NodeCost
  | .insert other cost => if other = name then some cost else cost?
  | _ => cost?

/-- The graph that the table is prepared for after an event. -/
def Event.prepared? (prepared? : Option Graph) : Event → Option Graph
  | .prepare graph => some graph
  | .reload => none
  | _ => prepared?

/-- The last cost that was set for a name. -/
def lastCost? (events : List Event) (name : String) : Option NodeCost :=
  events.foldl (Event.cost? name) none

/-- The graph that was prepared for last, and after the table was loaded last. -/
def lastPrepared? (events : List Event) : Option Graph :=
  events.foldl Event.prepared? none

variable {table next later : CostTable} {event : Event} {events : List Event}
  {text : String}

theorem lastCost?_concat (name : String) :
    lastCost? (events ++ [event]) name = event.cost? name (lastCost? events name) :=
  List.foldl_concat ..

theorem lastPrepared?_concat :
    lastPrepared? (events ++ [event]) = event.prepared? (lastPrepared? events) :=
  List.foldl_concat ..

/-- Events none of which prepares the table leave it unprepared. -/
theorem lastPrepared?_eq_none (h : ∀ graph, Event.prepare graph ∉ events) :
    lastPrepared? events = none := by
  induction events using List.reverseRecOn with
  | nil => rfl
  | append_singleton events event ih =>
    -- Before the last event there was none, and only `prepare` could change that.
    have hnone := ih fun graph hmem => h graph (List.mem_append_left _ hmem)
    rw [lastPrepared?_concat, hnone]
    cases event with
    | prepare graph => exact absurd (List.mem_append_right _ (List.mem_singleton_self _)) (h graph)
    | insert name cost => rfl
    | predict graph => rfl
    | reload => rfl

/-- An event only changes the cost of the name that it sets. -/
theorem Step.cost?_eq (h : Step table event next) (name : String) :
    next.cost? name = event.cost? name (table.cost? name) := by
  cases h with
  | insert other cost => exact NameMap.find?_insert _ _ _ _
  | prepare graph => rfl
  | predict graph => rfl
  | reload hsaved hloaded => exact (hsaved.of_load hloaded).1 name

/-- Only to prepare or to load a table changes what it is prepared for. -/
theorem Step.preparedFor_eq {prepared? : Option Graph} (h : Step table event next)
    (hprepared : table.preparedFor = prepared?.map Graph.key) :
    next.preparedFor = (event.prepared? prepared?).map Graph.key := by
  cases h with
  | insert name cost => exact hprepared
  | prepare graph => rfl
  | predict graph => exact hprepared
  | reload hsaved hloaded => exact (hsaved.of_load hloaded).2

/-- After a run, a table has the costs that were set last. -/
theorem Run.cost?_eq (h : Run empty events table) (name : String) :
    table.cost? name = lastCost? events name := by
  induction h with
  | nil => exact NameMap.find?_empty name
  | concat _ hstep ih => rw [hstep.cost?_eq, ih, lastCost?_concat]

/-- After a run, a table is prepared for the graph that was prepared for last. -/
theorem Run.preparedFor_eq (hstart : table.preparedFor = none) (h : Run table events later) :
    later.preparedFor = (lastPrepared? events).map Graph.key := by
  induction h with
  | nil => exact hstart
  | concat _ hstep ih => rw [hstep.preparedFor_eq ih, lastPrepared?_concat]

/-- A table that is not prepared gives no estimate for any graph. -/
theorem predict_of_none (h : table.preparedFor = none) (graph : Graph) :
    table.predict graph = .error (.cost .notPrepared) := by
  rw [predict, h]

/-- A table that is prepared compares keys and then prices the nodes. -/
theorem predict_of_some {prepared : Graph} (h : table.preparedFor = some prepared.key)
    (graph : Graph) :
    table.predict graph = if prepared.key = graph.key then
      (Estimate.ofCosts (table.costs graph.nodes)).mapError .fault
      else .error (.cost (.unknownGraph prepared.key graph.key)) := by
  rw [predict, h, price_eq]

/-- A table is saved as a text that has its entries. Any text that has them, whatever their order,
    is loaded with the costs that were set last before. Whatever happens then, there is no estimate
    until the table that was loaded is prepared. -/
theorem load_of_run (h : Run empty events table) : table.SavedAs table.toText ∧
    ∀ text, table.SavedAs text → ∃ loaded, load (.ok text) = .ok loaded ∧
      (∀ name, loaded.cost? name = table.cost? name ∧
        loaded.cost? name = lastCost? events name) ∧
      (∀ more, ∃ later, Run loaded more later) ∧
      ∀ more later, Run loaded more later → (∀ graph, .prepare graph ∉ more) →
        ∀ graph, later.predict graph = .error (.cost .notPrepared) := by
  refine ⟨table.savedAs_toText, fun text hsaved => ?_⟩
  obtain ⟨loaded, hloaded, hcosts, hnone⟩ := load_of_savedAs hsaved
  refine ⟨loaded, hloaded, fun name => ⟨hcosts name, by rw [hcosts, h.cost?_eq]⟩,
    loaded.exists_run, ?_⟩
  intro more later hmore hunprepared graph
  refine predict_of_none ?_ graph
  rw [hmore.preparedFor_eq hnone, lastPrepared?_eq_none hunprepared, Option.map_none]

/-- Two nodes, of which one has a cost in `tuned`. -/
def item (id : Option String) : Graph :=
  ⟨id, .none, [⟨"mm", "MatMul", "dev0", []⟩, ⟨"y", "Relu", "dev0", [.data "mm" 0]⟩]⟩

/-- A cost is set again after the table has been prepared. -/
def tuning : List Event :=
  [.insert "mm" (.ofCompute 9 64), .insert "x" (.ofCompute 1 8), .prepare (item (some "item-0")),
    .insert "mm" (.ofCompute 7 256)]

/-- The table after `tuning`. -/
def tuned : CostTable :=
  (((empty.insert "mm" (.ofCompute 9 64)).insert "x" (.ofCompute 1 8)).prepare
    (item (some "item-0"))).insert "mm" (.ofCompute 7 256)

theorem run_tuning : Run empty tuning tuned :=
  .concat (.concat (.concat (.concat .nil (.insert _ _)) (.insert _ _)) (.prepare _)) (.insert _ _)

/-- The table is loaded from the file it was saved as, and from one that has its entries the other
    way round. -/
theorem load_of_run_tuning :
    (∃ loaded, load (.ok tuned.toText) = .ok loaded ∧
      loaded.cost? "mm" = some (.ofCompute 7 256) ∧
      loaded.predict (item (some "item-0")) = .error (.cost .notPrepared)) ∧
    ∃ loaded, load (.ok (document tuned.nodes.entries.reverse).text) = .ok loaded ∧
      loaded.cost? "mm" = some (.ofCompute 7 256) ∧
      loaded.predict (item (some "item-0")) = .error (.cost .notPrepared) := by
  obtain ⟨hsaved, hloads⟩ := load_of_run run_tuning
  constructor
  · obtain ⟨loaded, hloaded, hcosts, _, hlater⟩ := hloads tuned.toText hsaved
    exact ⟨loaded, hloaded, (hcosts "mm").2, hlater [] loaded .nil nofun _⟩
  · obtain ⟨loaded, hloaded, hcosts, _, hlater⟩ := hloads _ ⟨_, List.reverse_perm _, rfl⟩
    exact ⟨loaded, hloaded, (hcosts "mm").2, hlater [] loaded .nil nofun _⟩

/-- A table has no estimate after a run if it is not prepared, or if the graph it was prepared
    for last has another key. Otherwise it has one if the times can be summed up. -/
theorem answers_of_run (h : Run empty events table) (graph : Graph) :
    (table.predict graph = .error (.cost .notPrepared) ↔ lastPrepared? events = none) ∧
      ∀ prepared, lastPrepared? events = some prepared →
        (table.predict graph = .error (.cost (.unknownGraph prepared.key graph.key)) ↔
          ¬ prepared.SameKey graph) ∧
        (Returns (table.predict graph) ↔
          prepared.SameKey graph ∧ TimesFit ((table.costs graph.nodes).map Prod.snd)) ∧
        (table.predict graph = .error (.fault .addition) ↔
          prepared.SameKey graph ∧ ¬ TimesFit ((table.costs graph.nodes).map Prod.snd)) := by
  have hprepared := h.preparedFor_eq rfl
  cases hlast : lastPrepared? events with
  | none =>
    rw [hlast] at hprepared
    exact ⟨by simp [predict_of_none hprepared], nofun⟩
  | some prepared =>
    rw [hlast] at hprepared
    have hpredict := predict_of_some hprepared graph
    -- The keys come first. Only if they are the same are the times summed up.
    by_cases hsame : prepared.SameKey graph
    · rw [if_pos (Graph.key_eq_iff.2 hsame)] at hpredict
      by_cases hfit : TimesFit ((table.costs graph.nodes).map Prod.snd)
      · obtain ⟨estimate, hestimate⟩ := Estimate.returns_ofCosts hfit
        rw [hestimate] at hpredict
        simp [hpredict, Except.mapError, Returns, hsame, hfit]
      · rw [Estimate.ofCosts_of_not_timesFit hfit] at hpredict
        simp [hpredict, Except.mapError, Returns, hsame, hfit]
    · rw [if_neg (hsame ∘ Graph.key_eq_iff.1)] at hpredict
      simp [hpredict, Returns, hsame]

/-- The graph that the table was prepared for has an estimate, and the same nodes under another
    identifier have none. -/
theorem answers_of_run_tuning : Returns (tuned.predict (item (some "item-0"))) ∧
    tuned.predict (item (some "item-1")) = .error (.cost (.unknownGraph "item-0" "item-1")) :=
  ⟨((answers_of_run run_tuning _).2 _ rfl).2.1.2 ⟨.inl rfl, by decide +kernel⟩,
    ((answers_of_run run_tuning _).2 _ rfl).1.2 (by simp [Graph.SameKey, Graph.Nameless, item])⟩

/-- A table that was prepared for a graph without an identifier has an estimate for a graph
    with one. -/
theorem answers_other_graph :
    Run empty [.prepare (item none)] (empty.prepare (item none)) ∧
      (item none).id ≠ (item (some "<anonymous>")).id ∧
      Returns ((empty.prepare (item none)).predict (item (some "<anonymous>"))) :=
  ⟨.concat .nil (.prepare _), nofun, _, rfl⟩

end CostTable

end DevicePlacement

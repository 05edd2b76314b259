import DevicePlacement.Proofs.Sweep.Loads

/-!
# The tour of a sweep

A sweep visits the eligible nodes one after another, in the order of the graph and
each once, or none of them if there are fewer than two candidates (`Task.tour`). A
visit changes the site of its own node only. So on each leg of the tour the nodes
that were visited are where the sweep will leave them, and all others are where the
graph has them (`Task.Leg`).

* `Finished.along`: what every leg keeps holds in the end;
* `Finished.node_of_not_mem`: nodes that are not eligible are returned as they were.
-/

namespace DevicePlacement.Sweep

open Checked Function

variable {sweep : Sweep} {position : Nat}

/-- A visit changes the site of its own node only. -/
theorem Visited.site_of_ne {state next : State} {other : Nat}
    (h : sweep.Visited state position next) (ho : other ≠ position) :
    next.placement.site other = state.placement.site other := by
  cases h with
  | unassigned _ => rfl
  | pinned _ _ => rfl
  | searched hs => rw [hs.site_next, update_of_ne ho]

/-- A node that is not visited stays where it is. -/
theorem site_of_not_mem {positions : List Nat} {state final : State}
    (h : positions.foldlM sweep.visit state = .ok final) (hp : position ∉ positions) :
    final.placement.site position = state.placement.site position := by
  refine foldlM_keeps (P := fun next => next.placement.site position =
    state.placement.site position) ?_ rfl h
  intro next next' other ho hnext hvisit
  have hne : position ≠ other := fun e => hp (e ▸ ho)
  rw [(visit_eq_ok hvisit).site_of_ne hne, hnext]

namespace Task

variable {task : Task} {before : Balance} {final : State} {result : Result}

/-- The positions of the nodes that are visited, in order. -/
def tour (task : Task) : List Nat :=
  if task.sweep.candidates.length < 2 then [] else task.positions

/-- Only eligible nodes are toured. -/
theorem tour_subset {position : Nat} (h : position ∈ task.tour) : position ∈ task.positions := by
  rw [tour] at h
  split at h
  · cases h
  · exact h

/-- They are toured in the order of the graph. -/
theorem pairwise_tour (task : Task) : task.tour.Pairwise (· < ·) := by
  rw [tour]
  split
  · exact .nil
  · exact task.pairwise_positions

/-- A sweep makes the visits of its tour and no others. -/
theorem Finished.toured (h : task.Finished before final result) :
    task.tour.foldlM task.sweep.visit ⟨task.placement, before, [], 0⟩ = .ok final := by
  have hswept := h.swept
  rw [visitAll] at hswept
  rw [tour]
  split
  · next hc => rwa [if_pos hc] at hswept
  · next hc => rwa [if_neg hc] at hswept

/-- A node that is not eligible is in the returned graph as it was. -/
theorem Finished.node_of_not_mem {position : Nat} (h : task.Finished before final result)
    (hp : position ∉ task.positions) :
    result.graph.nodes[position]? = task.graph.nodes[position]? :=
  h.node_of_site (site_of_not_mem h.toured fun hmem => hp (tour_subset hmem))

/-- A leg of the tour: the visit of a node, after the visits that are done. -/
structure Leg (task : Task) (final : State) (done : List Nat) (position : Nat)
    (state next : State) : Prop where
  mem : position ∈ task.positions
  inv : task.Inv state
  visited : task.sweep.Visited state position next
  /-- Nodes that were visited stand earlier. -/
  lt : ∀ other ∈ done, other < position
  /-- They are where the sweep leaves them. -/
  site_done : ∀ other ∈ done, state.placement.site other = final.placement.site other
  /-- All others are where the graph has them. -/
  site_todo : ∀ other ∉ done, state.placement.site other = task.placement.site other
  /-- The visit leaves its node where the sweep leaves it. -/
  site_next : next.placement.site position = final.placement.site position

/-- What every leg keeps holds in the end. -/
theorem Finished.along {P : List Nat → State → Prop} (h : task.Finished before final result)
    (start : P [] ⟨task.placement, before, [], 0⟩)
    (leg : ∀ done position state next, task.Leg final done position state next → P done state →
      P (done ++ [position]) next) : P task.tour final := by
  have hkept := foldlM_keeps_along
    (P := fun done state => task.Inv state ∧
      (∀ other ∉ done, state.placement.site other = task.placement.site other) ∧ P done state)
    ⟨inv_start h.opening, fun _ _ => rfl, start⟩ ?_ h.toured
  · exact hkept.2.2
  intro done position rest state next htour ⟨hinv, htodo, hP⟩ hvisit hrest
  have hvisited := visit_eq_ok hvisit
  have hmem : position ∈ task.tour := by simp [htour]
  have hsorted := task.pairwise_tour
  rw [htour, List.pairwise_append, List.pairwise_cons] at hsorted
  obtain ⟨_, ⟨hafter, _⟩, hbefore⟩ := hsorted
  have hlt : ∀ other ∈ done, other < position := fun other ho =>
    hbefore other ho position List.mem_cons_self
  refine ⟨inv_of_visited (tour_subset hmem) hinv hvisited, fun other ho => ?_, leg _ _ _ _ ?_ hP⟩
  · rw [List.mem_append, List.mem_singleton, not_or] at ho
    rw [hvisited.site_of_ne ho.2, htodo other ho.1]
  exact {
    mem := tour_subset hmem
    inv := hinv
    visited := hvisited
    lt := hlt
    site_done := fun other ho => by
      -- This visit and those to come are of nodes that stand later.
      have hrest' : other ∉ rest := fun hr => Nat.lt_asymm (hlt other ho) (hafter other hr)
      rw [site_of_not_mem hrest hrest', hvisited.site_of_ne (hlt other ho).ne]
    site_todo := htodo
    site_next := (site_of_not_mem hrest fun hr => Nat.lt_irrefl _ (hafter position hr)).symm }

end Task

end DevicePlacement.Sweep

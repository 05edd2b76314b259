import DevicePlacement.Proofs.Returns

/-!
# Computations in step

Two checked computations are *in step* if both stop with the same fault, or both
return and a given relation holds between what they return (`InStep`). To compare
two runs of a program on different inputs one compares their parts in turn:

* `InStep.bind`, `inStep_ite`: two computations in sequence, and branches;
* `InStep.foldlM`, `InStep.foldlM_along`, `inStep_mapM`: loops;
* `foldlM_filter_of_idle`: a loop over some of the elements, where the others do nothing;
* `inStep_row`: a look-up in two tables that correspond row by row.

Computations that are in step for equality are equal (`InStep.eq`), and for the
graph of a function one is the image of the other (`InStep.eq_map`).

If nothing is known of where the first one stops, one can still say what the second
returns when the first does (`Follows`). Look-ups and changes of a longer table follow those
of the table it begins with (`follows_row`, `follows_setRow`).
-/

namespace DevicePlacement.Checked

variable {ε α β γ δ σ τ : Type} {R : α → β → Prop} {S : γ → δ → Prop}

/-- Both computations stop with the same fault, or both return related results. -/
inductive InStep (R : α → β → Prop) : Except ε α → Except ε β → Prop
  | stopped (fault : ε) : InStep R (.error fault) (.error fault)
  | returned {a : α} {b : β} : R a b → InStep R (.ok a) (.ok b)

/-- A computation is in step with itself. -/
theorem InStep.refl (x : Except ε α) : InStep Eq x x := by
  cases x with
  | error fault => exact .stopped fault
  | ok a => exact .returned rfl

/-- Computations with equal results and equal faults are the same. -/
theorem InStep.eq {x y : Except ε α} (h : InStep Eq x y) : x = y := by
  cases h with
  | stopped fault => rfl
  | returned h => rw [h]

/-- If every result is the image of another, so is the whole computation. -/
theorem InStep.eq_map {x : Except ε α} {y : Except ε β} {f : α → β}
    (h : InStep (fun a b => b = f a) x y) : y = x.map f := by
  cases h with
  | stopped fault => rfl
  | returned h => rw [h]; rfl

theorem InStep.imp {R' : α → β → Prop} {x : Except ε α} {y : Except ε β} (h : InStep R x y)
    (himp : ∀ a b, R a b → R' a b) : InStep R' x y := by
  cases h with
  | stopped fault => exact .stopped fault
  | returned h => exact .returned (himp _ _ h)

/-- What one of the two returns may be used to relate the results. -/
theorem InStep.and_ok {x : Except ε α} {y : Except ε β} (h : InStep R x y) :
    InStep (fun a b => R a b ∧ x = .ok a ∧ y = .ok b) x y := by
  cases h with
  | stopped fault => exact .stopped fault
  | returned h => exact .returned ⟨h, rfl, rfl⟩

theorem inStep_pure {a : α} {b : β} (h : R a b) :
    InStep R (pure a : Except ε α) (pure b) :=
  .returned h

/-- Computations in step go on in step if related results do. -/
theorem InStep.bind {x : Except ε α} {y : Except ε β} {f : α → Except ε γ} {g : β → Except ε δ}
    (h : InStep R x y) (hfg : ∀ a b, R a b → InStep S (f a) (g b)) :
    InStep S (x >>= f) (y >>= g) := by
  cases h with
  | stopped fault => exact .stopped fault
  | returned h => exact hfg _ _ h

/-- Two computations that begin alike. -/
theorem inStep_bind_left {x : Except ε α} {f : α → Except ε γ} {g : α → Except ε δ}
    (h : ∀ a, x = .ok a → InStep S (f a) (g a)) : InStep S (x >>= f) (x >>= g) := by
  cases x with
  | error fault => exact .stopped fault
  | ok a => exact h a rfl

/-- Two computations that decide alike how to go on. -/
theorem inStep_ite {c : Prop} [Decidable c] {x x' : Except ε α} {y y' : Except ε β}
    (hthen : c → InStep R x y) (helse : ¬ c → InStep R x' y') :
    InStep R (if c then x else x') (if c then y else y') := by
  split
  · next h => exact hthen h
  · next h => exact helse h

/-! ## Loops -/

/-- Two loops over a list are in step if every turn keeps a relation of their states. -/
theorem InStep.foldlM {R : σ → τ → Prop} {f : σ → α → Except ε σ} {g : τ → α → Except ε τ}
    {l : List α} (turn : ∀ s t a, a ∈ l → R s t → InStep R (f s a) (g t a)) {s : σ} {t : τ}
    (h : R s t) : InStep R (l.foldlM f s) (l.foldlM g t) := by
  induction l generalizing s t with
  | nil => exact inStep_pure h
  | cons a l ih =>
    rw [List.foldlM_cons, List.foldlM_cons]
    refine (turn s t a List.mem_cons_self h).bind fun s' t' h' => ?_
    exact ih (fun s t b hb => turn s t b (List.mem_cons_of_mem a hb)) h'

/-- So are they if every turn does after the turns that have returned before it. -/
theorem InStep.foldlM_along {R : σ → τ → Prop} {f : σ → α → Except ε σ} {g : τ → α → Except ε τ}
    {l : List α} {s : σ} {t : τ} (h : R s t)
    (turn : ∀ done a s' t', done ++ [a] <+: l → done.foldlM f s = .ok s' → R s' t' →
      InStep R (f s' a) (g t' a)) : InStep R (l.foldlM f s) (l.foldlM g t) := by
  induction l using List.reverseRecOn with
  | nil => exact inStep_pure h
  | append_singleton l a ih =>
    have hl := ih fun done b s' t' hdone =>
      turn done b s' t' (hdone.trans (List.prefix_append l [a]))
    rw [List.foldlM_append, List.foldlM_append]
    refine hl.and_ok.bind fun s' t' ⟨hR, hs', _⟩ => ?_
    rw [List.foldlM_cons, List.foldlM_cons]
    refine (turn l a s' t' List.prefix_rfl hs' hR).bind fun s'' t'' hR' => ?_
    exact inStep_pure hR'

/-- Elements at which nothing happens may be left out of a loop, where for each element one may
    use what the loop keeps. -/
theorem foldlM_filter_of_idle {P : σ → Prop} {f : σ → α → Except ε σ} {keep : α → Bool}
    {l : List α} {s : σ} (start : P s)
    (kept : ∀ s s' a, a ∈ l → P s → f s a = .ok s' → P s')
    (idle : ∀ s a, a ∈ l → keep a = false → P s → f s a = .ok s) :
    (l.filter keep).foldlM f s = l.foldlM f s := by
  -- One loop does nothing where the other does something that changes nothing.
  have hloops : InStep (fun s t => s = t ∧ P s)
      (l.foldlM (fun s a => if keep a = true then f s a else pure s) s) (l.foldlM f s) := by
    refine InStep.foldlM (fun s t a ha ⟨hst, hP⟩ => ?_) ⟨rfl, start⟩
    subst hst
    split
    · refine (InStep.refl (f s a)).and_ok.imp fun s' t' ⟨hst, hs', _⟩ => ?_
      exact ⟨hst, kept s s' a ha hP hs'⟩
    · next hkeep =>
      rw [idle s a ha (Bool.not_eq_true _ ▸ hkeep) hP]
      exact inStep_pure ⟨rfl, hP⟩
  rw [List.foldlM_filter]
  exact (hloops.imp fun _ _ h => h.1).eq

/-- Lists whose elements are computed in step are collected in step. -/
theorem inStep_mapM {f : α → Except ε γ} {g : β → Except ε δ} {l : List α} {m : List β}
    (h : List.Forall₂ (fun a b => InStep S (f a) (g b)) l m) :
    InStep (List.Forall₂ S) (l.mapM f) (m.mapM g) := by
  induction h with
  | nil => exact inStep_pure .nil
  | cons hab _ ih =>
    rw [List.mapM_cons, List.mapM_cons]
    refine hab.bind fun c d hcd => ?_
    refine ih.bind fun cs ds hcds => ?_
    exact inStep_pure (.cons hcd hcds)

/-! ## Tables -/

/-- Tables that correspond row by row answer alike. -/
theorem inStep_row {l : List α} {m : List β} (h : List.Forall₂ R l m) (index : Nat) :
    InStep R (row l index) (row m index) := by
  have hlength := h.length_eq
  by_cases hlt : index < l.length
  · have hlt' : index < m.length := hlength ▸ hlt
    rw [row_eq_ok_iff.2 (List.getElem?_eq_getElem hlt),
      row_eq_ok_iff.2 (List.getElem?_eq_getElem hlt')]
    exact .returned (h.get hlt hlt')
  · have hle : l.length ≤ index := Nat.le_of_not_lt hlt
    rw [row, row, List.getElem?_eq_none hle, List.getElem?_eq_none (hlength ▸ hle), hlength]
    exact .stopped _

/-! ## Following -/

/-- If the first computation returns, so does the second, the image of what that one does. -/
def Follows (e : α → β) (x : Except ε α) (y : Except ε β) : Prop :=
  ∀ a, x = .ok a → y = .ok (e a)

variable {e : α → β} {e' : γ → δ}

/-- A computation follows itself. -/
theorem follows_refl (x : Except ε α) : Follows id x x :=
  fun _ h => h

theorem follows_pure (a : α) : Follows e (pure a : Except ε α) (pure (e a)) := by
  intro a' h
  rw [pure_eq_ok] at h
  rw [h]
  rfl

/-- What follows can be put one after the other. -/
theorem Follows.bind {x : Except ε α} {y : Except ε β} {f : α → Except ε γ} {g : β → Except ε δ}
    (h : Follows e x y) (hfg : ∀ a, Follows e' (f a) (g (e a))) :
    Follows e' (x >>= f) (y >>= g) := by
  intro c hc
  obtain ⟨a, ha, hc⟩ := bind_eq_ok.1 hc
  exact bind_eq_ok.2 ⟨e a, h a ha, hfg a c hc⟩

/-- Computations go on from the same result. -/
theorem Follows.bind_same {x y : Except ε α} {f : α → Except ε γ} {g : α → Except ε δ}
    (h : Follows id x y) (hfg : ∀ a, Follows e' (f a) (g a)) : Follows e' (x >>= f) (y >>= g) :=
  h.bind hfg

/-- A decision that does not depend on what is longer is the same for both. -/
theorem follows_ite {c : Prop} [Decidable c] {x x' : Except ε α} {y y' : Except ε β}
    (hthen : c → Follows e x y) (helse : ¬ c → Follows e x' y') :
    Follows e (if c then x else x') (if c then y else y') := by
  split
  · next h => exact hthen h
  · next h => exact helse h

/-- A loop follows another one if every turn of it does. -/
theorem Follows.foldlM {e : σ → τ} {f : σ → α → Except ε σ} {g : τ → α → Except ε τ} {l : List α}
    (turn : ∀ s a, Follows e (f s a) (g (e s) a)) (s : σ) :
    Follows e (l.foldlM f s) (l.foldlM g (e s)) := by
  induction l generalizing s with
  | nil => exact follows_pure s
  | cons a l ih =>
    rw [List.foldlM_cons, List.foldlM_cons]
    exact (turn s a).bind ih

/-- A loop that collects what follows the results of a shorter loop begins with them. -/
theorem prefix_of_mapM {f g : α → Except ε γ} {l m : List α} {r r' : List γ}
    (h : ∀ a, Follows id (f a) (g a)) (hl : l <+: m) (hr : l.mapM f = .ok r)
    (hr' : m.mapM g = .ok r') : r <+: r' := by
  obtain ⟨rest, rfl⟩ := hl
  -- The longer loop starts like one over the shorter list, which returns what `f` does.
  have hbegun : l.mapM g = .ok r := mapM_eq_ok_iff.2 ((mapM_eq_ok_iff.1 hr).imp fun a => h a)
  rw [List.mapM_append] at hr'
  obtain ⟨begun, hbegun', hr'⟩ := bind_eq_ok.1 hr'
  obtain ⟨more, _, hr'⟩ := bind_eq_ok.1 hr'
  rw [pure_eq_ok] at hr'
  cases hbegun.symm.trans hbegun'
  exact ⟨more, hr'⟩

/-- A row is found at the same place in a longer table. -/
theorem follows_row {l m : List α} (h : l <+: m) (index : Nat) :
    Follows id (row l index) (row m index) := by
  intro a ha
  obtain ⟨hlt, hget⟩ := List.getElem?_eq_some_iff.1 (row_eq_ok_iff.1 ha)
  rw [id, row_eq_ok_iff, List.prefix_iff_getElem?.1 h index hlt, hget]

/-- The rows at the end stay as they are. -/
theorem follows_setRow (l rest : List α) (index : Nat) (a : α) :
    Follows (· ++ rest) (setRow l index a) (setRow (l ++ rest) index a) := by
  intro l' hl'
  obtain ⟨hlt, rfl⟩ := setRow_eq_ok_iff.1 hl'
  rw [setRow_eq_ok_iff, List.length_append, List.set_append_left _ _ hlt]
  exact ⟨Nat.lt_add_right _ hlt, rfl⟩

end DevicePlacement.Checked

import DevicePlacement.Checked
import Mathlib.Data.List.Forall2
import Mathlib.Data.List.Induction
import Mathlib.Data.List.Infix

/-!
# Computations that return

A checked computation either stops with a fault or returns. What one that has
returned did along the way is read off its parts: each of them has returned too.

* `bind_eq_ok`: two computations in sequence;
* `foldlM_cons_eq_ok`, `foldlM_append_eq_ok`: a loop over a list, step by step;
* `foldlM_keeps`: what every step of a loop keeps holds in the end;
* `foldlM_keeps_along`: so does what speaks of the part of the list gone through;
* `foldlM_simulates`: a loop that follows a loop without faults step by step
  ends where that one ends;
* `foldlM_eq_error_iff`: where a loop has stopped with an error;
* `mapM_eq_ok_iff`, `mapM_eq_error_iff`: a loop that collects results.

Conversely, a computation is bound to return (`Returns`) if its parts are, where for
each part one may use what the parts before it have returned. So a loop returns if
every step does, after the steps that have returned so far (`returns_foldlM`). If what
decides whether a step returns is known, it is known whether the loop does
(`foldlM_stops`).
-/

namespace DevicePlacement.Checked

variable {ε α β σ τ : Type}

/-- A computation in two parts returns if both do, the second with what the first one has
    returned. -/
theorem bind_eq_ok {x : Except ε α} {f : α → Except ε β} {b : β} :
    x >>= f = .ok b ↔ ∃ a, x = .ok a ∧ f a = .ok b := by
  cases x with
  | error e => simp [bind, Except.bind]
  | ok a => simp [bind, Except.bind]

/-- It stops in the first part or in the second. -/
theorem bind_eq_error {x : Except ε α} {f : α → Except ε β} {e : ε} :
    x >>= f = .error e ↔ x = .error e ∨ ∃ a, x = .ok a ∧ f a = .error e := by
  cases x with
  | error e => simp [bind, Except.bind]
  | ok a => simp [bind, Except.bind]

theorem pure_eq_ok {a b : α} : (pure a : Except ε α) = .ok b ↔ a = b := by
  simp [pure, Except.pure]

/-- What a computation says of its result, if it says something. -/
theorem exists_ok_of_toOption {x : Except ε α} {f : α → β} {b : β}
    (h : x.toOption.map f = some b) : ∃ a, x = .ok a ∧ f a = b := by
  cases x with
  | error e => cases h
  | ok a => exact ⟨a, rfl, Option.some.inj h⟩

/-! ## Loops -/

variable {f : σ → α → Except ε σ}

theorem foldlM_nil_eq_ok {s t : σ} : [].foldlM f s = .ok t ↔ s = t := by
  rw [List.foldlM_nil, pure_eq_ok]

/-- A loop begins with its first turn. -/
theorem foldlM_cons_eq_ok {a : α} {l : List α} {s t : σ} :
    (a :: l).foldlM f s = .ok t ↔ ∃ m, f s a = .ok m ∧ l.foldlM f m = .ok t := by
  rw [List.foldlM_cons, bind_eq_ok]

/-- A loop over two lists goes through one and then through the other. -/
theorem foldlM_append_eq_ok {l l' : List α} {s t : σ} :
    (l ++ l').foldlM f s = .ok t ↔ ∃ m, l.foldlM f s = .ok m ∧ l'.foldlM f m = .ok t := by
  rw [List.foldlM_append, bind_eq_ok]

/-- A loop that follows a loop without faults step by step ends where that one
    ends. -/
theorem foldlM_simulates {R : σ → τ → Prop} {g : τ → α → τ} {l : List α}
    (step : ∀ s t s' a, a ∈ l → R s t → f s a = .ok s' → R s' (g t a)) {s s' : σ} {t : τ}
    (hR : R s t) (h : l.foldlM f s = .ok s') : R s' (l.foldl g t) := by
  induction l generalizing s t with
  | nil =>
    rw [foldlM_nil_eq_ok] at h
    exact h ▸ hR
  | cons a l ih =>
    obtain ⟨m, hm, h⟩ := foldlM_cons_eq_ok.1 h
    have hRm : R m (g t a) := step s t m a List.mem_cons_self hR hm
    exact ih (fun s t s' b hb => step s t s' b (List.mem_cons_of_mem _ hb)) hRm h

/-- What every step of a loop keeps holds in the end. -/
theorem foldlM_keeps {P : σ → Prop} {l : List α}
    (step : ∀ s s' a, a ∈ l → P s → f s a = .ok s' → P s') {s s' : σ}
    (hP : P s) (h : l.foldlM f s = .ok s') : P s' :=
  foldlM_simulates (R := fun s (_ : Unit) => P s) (g := fun t _ => t)
    (fun s _ s' a ha hP h => step s s' a ha hP h) (t := ()) hP h

/-- What every step of a loop keeps holds in the end, also if it speaks of the part
    of the list that was gone through and a step may look at the part to come. -/
theorem foldlM_keeps_along {P : List α → σ → Prop} {l : List α} {s t : σ} (start : P [] s)
    (step : ∀ done a rest s s', l = done ++ a :: rest → P done s → f s a = .ok s' →
      rest.foldlM f s' = .ok t → P (done ++ [a]) s')
    (h : l.foldlM f s = .ok t) : P l t := by
  -- The invariant speaks of the part gone through, so the induction is on the part that is left.
  suffices along : ∀ rest done s, l = done ++ rest → P done s → rest.foldlM f s = .ok t → P l t from
    along l [] s rfl start h
  intro rest
  induction rest with
  | nil =>
    intro done s hl hP h
    rw [List.append_nil] at hl
    rw [foldlM_nil_eq_ok] at h
    exact hl ▸ h ▸ hP
  | cons a rest ih =>
    intro done s hl hP h
    obtain ⟨m, hm, h⟩ := foldlM_cons_eq_ok.1 h
    have hl' : l = (done ++ [a]) ++ rest := by rw [hl, List.append_assoc, List.singleton_append]
    exact ih (done ++ [a]) m hl' (step done a rest s m hl hP hm h) h

/-- A loop that collects results has one for each element, in order. -/
theorem mapM_eq_ok_iff {g : α → Except ε β} {l : List α} {r : List β} :
    l.mapM g = .ok r ↔ List.Forall₂ (fun a b => g a = .ok b) l r := by
  induction l generalizing r with
  | nil => rw [List.mapM_nil, pure_eq_ok, List.forall₂_nil_left_iff, eq_comm]
  | cons a l ih =>
    rw [List.mapM_cons, bind_eq_ok, List.forall₂_cons_left_iff]
    constructor
    · rintro ⟨b, hb, h⟩
      obtain ⟨r', hr', h⟩ := bind_eq_ok.1 h
      exact ⟨b, r', hb, ih.1 hr', (pure_eq_ok.1 h).symm⟩
    · rintro ⟨b, r', hb, hr', rfl⟩
      exact ⟨b, hb, bind_eq_ok.2 ⟨r', ih.2 hr', pure_eq_ok.2 rfl⟩⟩

/-- A loop stops with an error if one of its turns does, after turns that have returned. -/
theorem foldlM_eq_error_iff {l : List α} {s : σ} {e : ε} : l.foldlM f s = .error e ↔
    ∃ done a m, done ++ [a] <+: l ∧ done.foldlM f s = .ok m ∧ f m a = .error e := by
  constructor
  · intro h
    -- The error is in the last turn, or it is one of the loop without it.
    induction l using List.reverseRecOn with
    | nil => cases h
    | append_singleton l a ih =>
      rw [List.foldlM_append] at h
      rcases bind_eq_error.1 h with h | ⟨m, hm, h⟩
      · obtain ⟨done, b, m, hdone, hm, hb⟩ := ih h
        exact ⟨done, b, m, hdone.trans (List.prefix_append l [a]), hm, hb⟩
      · rw [List.foldlM_cons] at h
        rcases bind_eq_error.1 h with h | ⟨_, _, h⟩
        · exact ⟨l, a, m, List.prefix_rfl, hm, h⟩
        · cases h
  · rintro ⟨done, a, m, ⟨rest, rfl⟩, hm, ha⟩
    rw [List.append_assoc, List.foldlM_append, hm, List.singleton_append]
    change (a :: rest).foldlM f m = _
    rw [List.foldlM_cons, ha]
    rfl

/-! ## Computations that are bound to return -/

/-- A computation returns something. -/
def Returns (x : Except ε α) : Prop :=
  ∃ a, x = .ok a

theorem returns_pure (a : α) : Returns (pure a : Except ε α) :=
  ⟨a, rfl⟩

/-- It is enough that the second part returns for what the first one can return. -/
theorem Returns.bind {x : Except ε α} {f : α → Except ε β} (hx : Returns x)
    (hf : ∀ a, x = .ok a → Returns (f a)) : Returns (x >>= f) := by
  obtain ⟨a, ha⟩ := hx
  obtain ⟨b, hb⟩ := hf a ha
  exact ⟨b, bind_eq_ok.2 ⟨a, ha, hb⟩⟩

/-- After a computation that has returned comes the rest. -/
theorem returns_bind_of_eq_ok {x : Except ε α} {f : α → Except ε β} {a : α} (hx : x = .ok a)
    (hf : Returns (f a)) : Returns (x >>= f) := by
  rw [hx]
  exact hf

/-- The element after some that come first is in the list. -/
theorem mem_of_prefix_concat {done l : List α} {a : α} (h : done ++ [a] <+: l) : a ∈ l :=
  h.subset (List.mem_append_right done (List.mem_singleton_self a))

/-- Those that come first are, too. -/
theorem subset_of_prefix_concat {done l : List α} {a : α} (h : done ++ [a] <+: l) : done ⊆ l :=
  fun _ hb => h.subset (List.mem_append_left [a] hb)

/-- A loop returns if every step does, after the steps that have returned so far. -/
theorem returns_foldlM {l : List α} {s : σ}
    (step : ∀ done a m, done ++ [a] <+: l → done.foldlM f s = .ok m → Returns (f m a)) :
    Returns (l.foldlM f s) := by
  induction l using List.reverseRecOn with
  | nil => exact returns_pure s
  | append_singleton l a ih =>
    obtain ⟨m, hm⟩ := ih fun done b m hl =>
      step done b m (hl.trans (List.prefix_append l [a]))
    obtain ⟨t, ht⟩ := step l a m List.prefix_rfl hm
    exact ⟨t, foldlM_append_eq_ok.2 ⟨m, hm, foldlM_cons_eq_ok.2 ⟨t, ht, foldlM_nil_eq_ok.2 rfl⟩⟩⟩

/-- A loop stops with an error if a condition on the part gone through fails somewhere, its
    steps return as long as the condition holds, and the first at which it fails has the error. -/
theorem foldlM_stops {C : List α → Prop} {e : ε} {l : List α} {s : σ} (start : C [])
    (go : ∀ done a m, done.foldlM f s = .ok m → C (done ++ [a]) → Returns (f m a))
    (stop : ∀ done a m, done.foldlM f s = .ok m → C done → ¬ C (done ++ [a]) → f m a = .error e)
    (h : ¬ ∀ done ∈ l.inits, C done) : l.foldlM f s = .error e := by
  induction l using List.reverseRecOn with
  | nil => exact absurd (fun done hdone => List.mem_singleton.1 hdone ▸ start) h
  | append_singleton l a ih =>
    rw [List.foldlM_append]
    -- If the condition holds for all but the whole list, it fails at the last turn.
    by_cases hl : ∀ done ∈ l.inits, C done
    · have hreturns : Returns (l.foldlM f s) := returns_foldlM fun done b m hdone hm =>
        go done b m hm (hl _ ((List.mem_inits _ _).2 hdone))
      obtain ⟨m, hm⟩ := hreturns
      have hlast : ¬ C (l ++ [a]) := by
        intro hlast
        refine h fun done hdone => ?_
        rcases List.prefix_concat_iff.1 ((List.mem_inits _ _).1 hdone) with rfl | hdone
        · exact hlast
        · exact hl done ((List.mem_inits _ _).2 hdone)
      have hstop := stop l a m hm (hl l ((List.mem_inits _ _).2 List.prefix_rfl)) hlast
      rw [hm]
      exact congrArg (· >>= pure) hstop
    · rw [ih hl]
      rfl

/-- A loop that collects results returns if there is one for each element. -/
theorem returns_mapM {g : α → Except ε β} {l : List α} (h : ∀ a ∈ l, Returns (g a)) :
    Returns (l.mapM g) := by
  induction l with
  | nil => exact returns_pure []
  | cons a l ih =>
    rw [List.mapM_cons]
    refine (h a List.mem_cons_self).bind fun b _ => ?_
    refine (ih fun c hc => h c (List.mem_cons_of_mem a hc)).bind fun r _ => ?_
    exact returns_pure (b :: r)

/-- If it returns, there is. -/
theorem returns_of_mapM {g : α → Except ε β} {l : List α} (h : Returns (l.mapM g)) :
    ∀ a ∈ l, Returns (g a) := by
  obtain ⟨r, hr⟩ := h
  induction mapM_eq_ok_iff.1 hr with
  | nil => nofun
  | cons hab htail ih => exact List.forall_mem_cons.2 ⟨⟨_, hab⟩, ih (mapM_eq_ok_iff.2 htail)⟩

/-- A loop that collects results stops with the error of the first element that has one. -/
theorem mapM_eq_error_iff {g : α → Except ε β} {l : List α} {e : ε} : l.mapM g = .error e ↔
    ∃ before a after, l = before ++ a :: after ∧ (∀ b ∈ before, Returns (g b)) ∧
      g a = .error e := by
  induction l with
  | nil => simp [pure, Except.pure]
  | cons a l ih =>
    -- The first element has the error, or it has a result and the error is further on.
    rw [List.mapM_cons, bind_eq_error]
    constructor
    · rintro (ha | ⟨b, hb, h⟩)
      · exact ⟨[], a, l, rfl, nofun, ha⟩
      · rcases bind_eq_error.1 h with h | ⟨_, _, h⟩
        · obtain ⟨before, c, after, rfl, hbefore, hc⟩ := ih.1 h
          exact ⟨a :: before, c, after, rfl, List.forall_mem_cons.2 ⟨⟨b, hb⟩, hbefore⟩, hc⟩
        · cases h
    · rintro ⟨_ | ⟨b, before⟩, c, after, hl, hbefore, hc⟩
      · cases hl
        exact .inl hc
      · cases hl
        obtain ⟨⟨b, hb⟩, hbefore⟩ := List.forall_mem_cons.1 hbefore
        exact .inr ⟨b, hb, bind_eq_error.2 (.inl (ih.2 ⟨before, c, after, rfl, hbefore, hc⟩))⟩

/-- A row that is in the table can be read. -/
theorem returns_row {table : List α} {index : Nat} (h : index < table.length) :
    Returns (row table index) :=
  ⟨table[index], row_eq_ok_iff.2 (List.getElem?_eq_getElem h)⟩

/-- It can also be set. -/
theorem returns_setRow {table : List α} {index : Nat} (h : index < table.length) (value : α) :
    Returns (setRow table index value) :=
  ⟨table.set index value, setRow_eq_ok_iff.2 ⟨h, rfl⟩⟩

/-- A number fits 64 bits. -/
def Fits (value : Int) : Prop :=
  Int64.minValue.toInt ≤ value ∧ value ≤ Int64.maxValue.toInt

instance (value : Int) : Decidable (Fits value) :=
  inferInstanceAs (Decidable (_ ∧ _))

theorem fits_toInt (value : Int64) : Fits value.toInt :=
  ⟨value.minValue_le_toInt, value.toInt_le⟩

/-- A sum that fits is returned. -/
theorem returns_plus_of_fits {a b : Int64} (h : Fits (a.toInt + b.toInt)) :
    Returns (plus a b) :=
  ⟨_, if_pos h⟩

theorem plus_zero (a : Int64) : plus a 0 = .ok a := by
  rw [plus_eq_ok_iff, Int64.toInt_zero, Int.add_zero]

/-- The only fault of an addition is its own. -/
theorem plus_eq_error {a b : Int64} {fault : Fault} (h : plus a b = .error fault) :
    fault = .addition := by
  rw [plus, narrow] at h
  split at h
  · cases h
  · cases h; rfl

/-- A sum that does not fit is a fault. -/
theorem plus_of_not_fits {a b : Int64} (h : ¬ Fits (a.toInt + b.toInt)) :
    plus a b = .error .addition :=
  if_neg h

/-- A sum returns if it is not negative and not too large. -/
theorem returns_plus {a b : Int64} (hnonneg : 0 ≤ a.toInt + b.toInt)
    (hle : a.toInt + b.toInt ≤ Int64.maxValue.toInt) : Returns (plus a b) := by
  have hmin : Int64.minValue.toInt ≤ 0 := by decide
  exact returns_plus_of_fits ⟨Int.le_trans hmin hnonneg, hle⟩

/-- The difference of two numbers that are not negative always returns. -/
theorem returns_minus {a b : Int64} (ha : 0 ≤ a.toInt) (hb : 0 ≤ b.toInt) :
    Returns (minus a b) := by
  have hmin : Int64.minValue.toInt = -Int64.maxValue.toInt - 1 := by decide
  have hamax := Int64.toInt_le a
  have hbmax := Int64.toInt_le b
  exact ⟨_, if_pos ⟨by omega, by omega⟩⟩

end DevicePlacement.Checked

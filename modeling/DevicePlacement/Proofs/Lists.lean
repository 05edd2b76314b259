import Mathlib.Data.List.Forall2

/-!
# Lists that correspond

Two lists correspond if they are equally long and related element by element
(`List.Forall₂`). If what is asked of the elements has the same answers, it has the same
answers in both lists: images (`map_eq_map_of_forall₂`), first places
(`findIdx?_eq_of_forall₂`) and all places (`map_snd_filter_zipIdx_eq`).

What a list says last is what its last element says, if that says anything
(`getLast?_filterMap_concat`).
-/

namespace DevicePlacement

variable {α β γ : Type} {p : α → Bool} {q : β → Bool} {R : α → β → Prop} {l : List α} {m : List β}

/-- What stands in one list has its counterpart at the same place of the other. -/
theorem getElem?_of_forall₂ {index : Nat} {a : α} (h : List.Forall₂ R l m)
    (ha : l[index]? = some a) : ∃ b, m[index]? = some b ∧ R a b := by
  obtain ⟨hlt, rfl⟩ := List.getElem?_eq_some_iff.1 ha
  have hlt' : index < m.length := h.length_eq ▸ hlt
  exact ⟨m[index], List.getElem?_eq_getElem hlt', h.get hlt hlt'⟩

/-- Lists with equal images are mapped to the same list. -/
theorem map_eq_map_of_forall₂ {f : α → γ} {g : β → γ}
    (h : List.Forall₂ (fun a b => g b = f a) l m) : m.map g = l.map f := by
  induction h with
  | nil => rfl
  | cons hab _ ih => rw [List.map_cons, List.map_cons, hab, ih]

/-- If every element that corresponds to one is the same as what corresponds to it in turn, so
    are the lists. -/
theorem eq_of_forall₂_of_forall₂ {S : β → β → Prop} {n : List β}
    (same : ∀ a b c, R a b → S b c → c = b) (h : List.Forall₂ R l m)
    (h' : List.Forall₂ S m n) : n = m := by
  induction h generalizing n with
  | nil => cases h'; rfl
  | cons hab _ ih =>
    cases h' with
    | cons hbc h' => rw [same _ _ _ hab hbc, ih h']

/-- Lists that correspond still do if each is paired with the same list. -/
theorem forall₂_zip_right (h : List.Forall₂ R l m) (rest : List γ) :
    List.Forall₂ (fun p q => R p.1 q.1 ∧ q.2 = p.2) (l.zip rest) (m.zip rest) := by
  induction h generalizing rest with
  | nil => exact .nil
  | cons hab _ ih =>
    cases rest with
    | nil => exact .nil
    | cons c rest => exact .cons ⟨hab, rfl⟩ (ih rest)

/-- The last element counts if anything is made of it. -/
theorem getLast?_filterMap_concat (f : α → Option β) (l : List α) (a : α) :
    ((l ++ [a]).filterMap f).getLast? = (f a).or (l.filterMap f).getLast? := by
  rw [List.filterMap_append, List.getLast?_append]
  cases h : f a <;> simp [h]

section Places

variable (h : List.Forall₂ (fun a b => q b = p a) l m)

include h

/-- Tests that agree on counterparts find the same place. -/
theorem findIdx?_eq_of_forall₂ : m.findIdx? q = l.findIdx? p := by
  induction h with
  | nil => rfl
  | cons hab _ ih => simp only [List.findIdx?_cons, hab, ih]

/-- They also keep the same places. -/
theorem map_snd_filter_zipIdx_eq (start : Nat) :
    ((m.zipIdx start).filter fun (b, _) => q b).map Prod.snd =
      ((l.zipIdx start).filter fun (a, _) => p a).map Prod.snd := by
  induction h generalizing start with
  | nil => rfl
  | cons hab _ ih =>
    simp only [List.zipIdx_cons, List.filter_cons, hab]
    split
    · rw [List.map_cons, List.map_cons, ih]
    · exact ih (start + 1)

end Places

end DevicePlacement

import Mathlib.Data.List.Induction
import Mathlib.Data.List.Nodup
import Winnow.Query.Join

namespace Winnow

theorem mem_addNew {x y : String} {xs : List String} : y ∈ addNew x xs ↔ y = x ∨ y ∈ xs := by
  unfold addNew
  split
  next h =>
    constructor
    · exact Or.inr
    · rintro (rfl | hy)
      · exact h
      · exact hy
  next => simp [or_comm]

theorem addNew_eraseDups (x : String) (xs : List String) :
    addNew x xs.eraseDups = (xs ++ [x]).eraseDups := by
  unfold addNew
  rw [List.eraseDups_append]
  by_cases h : x ∈ xs <;> simp [List.mem_eraseDups, List.removeAll, List.eraseDups_cons, h]

theorem nodup_addNew {x : String} {xs : List String} (h : xs.Nodup) : (addNew x xs).Nodup := by
  unfold addNew
  split
  next => exact h
  next hx => exact List.concat_eq_append ▸ List.Nodup.concat hx h

theorem nodup_eraseDups (xs : List String) : xs.eraseDups.Nodup := by
  induction xs using List.reverseRecOn with
  | nil => exact List.nodup_nil
  | append_singleton xs x ih =>
    rw [← addNew_eraseDups]
    exact nodup_addNew ih

namespace Desk

variable {cat : Catalog} {entries : List String} {j : Joins}

/-- What is selected once the entries of a relation are. -/
def chosen (cat : Catalog) (entries : List String) (j : Joins) : Joins :=
  addEntries entries (if j.selected.isEmpty then addEntries cat.visible j else j)

theorem addEntries_joined (entries : List String) (j : Joins) :
    (addEntries entries j).joined = j.joined := by
  unfold addEntries
  induction entries generalizing j with
  | nil => rfl
  | cons e es ih => rw [List.foldl_cons, ih]; rfl

theorem addEntries_guarded (entries : List String) (j : Joins) :
    (addEntries entries j).guarded = j.guarded := by
  unfold addEntries
  induction entries generalizing j with
  | nil => rfl
  | cons e es ih => rw [List.foldl_cons, ih]; rfl

theorem mem_addEntries {e : String} :
    e ∈ (addEntries entries j).selected ↔ e ∈ j.selected ∨ e ∈ entries := by
  unfold addEntries
  induction entries generalizing j with
  | nil => simp
  | cons f fs ih =>
    rw [List.foldl_cons, ih]
    simp only [Joins.addEntry, mem_addNew, List.mem_cons]
    rw [or_comm (a := e = f), or_assoc]

theorem addEntries_eq_of_isEmpty (h : (addEntries entries j).selected.isEmpty) :
    addEntries entries j = j := by
  cases entries with
  | nil => rfl
  | cons e es =>
    have hm : e ∈ (addEntries (e :: es) j).selected := mem_addEntries.mpr (Or.inr (by simp))
    rw [List.isEmpty_iff.mp h] at hm
    simp at hm

theorem chosen_joined (cat : Catalog) (entries : List String) (j : Joins) :
    (chosen cat entries j).joined = j.joined := by
  unfold chosen
  rw [addEntries_joined]
  split
  next => exact addEntries_joined _ _
  next => rfl

theorem chosen_guarded (cat : Catalog) (entries : List String) (j : Joins) :
    (chosen cat entries j).guarded = j.guarded := by
  unfold chosen
  rw [addEntries_guarded]
  split
  next => exact addEntries_guarded _ _
  next => rfl

/-- Nothing is selected but what was before, the visible columns and the entries of the relation.
-/
theorem mem_of_mem_chosen {e : String} (h : e ∈ (chosen cat entries j).selected) :
    e ∈ j.selected ∨ e ∈ cat.visible ∨ e ∈ entries := by
  unfold chosen at h
  rcases mem_addEntries.mp h with h | h
  · split at h
    next => exact (mem_addEntries.mp h).imp_right Or.inl
    next => exact Or.inl h
  · exact Or.inr (Or.inr h)

theorem mem_chosen {e : String} (h : e ∈ j.selected) : e ∈ (chosen cat entries j).selected := by
  unfold chosen
  refine mem_addEntries.mpr (Or.inl ?_)
  split
  next he => simp [List.isEmpty_iff.mp he] at h
  next => exact h

theorem chosen_eq_of_isEmpty (h : (chosen cat entries j).selected.isEmpty) :
    chosen cat entries j = j := by
  unfold chosen at h ⊢
  have houter := addEntries_eq_of_isEmpty h
  rw [houter] at h ⊢
  split
  next he =>
    simp only [he, ↓reduceIte] at h
    exact addEntries_eq_of_isEmpty h
  next => rfl

end Desk

end Winnow

import Mathlib.Data.List.Basic

/-!
# Cutting a list into chunks

`chunks size` cuts a list into consecutive pieces of `size` elements, the last of
which may be shorter, as the slice function of that name does.  The empty list has
no chunk at all.
-/

namespace Chunks

universe u

variable {α : Type u}

/-- At most `fuel` chunks of `size` elements from the front of a list. -/
def chunksUpTo (size : ℕ) : ℕ → List α → List (List α)
  | 0, _ => []
  | _ + 1, [] => []
  | fuel + 1, item :: rest =>
      (item :: rest).take size :: chunksUpTo size fuel ((item :: rest).drop size)

/-- Consecutive chunks of `size` elements; there are never more than elements. -/
def chunks (size : ℕ) (items : List α) : List (List α) :=
  chunksUpTo size items.length items

theorem chunksUpTo_of_length_le {size : ℕ} (positive : 0 < size) {fuel : ℕ} {items : List α}
    (enough : items.length ≤ fuel) : chunksUpTo size fuel items = chunks size items := by
  suffices agree : ∀ (fuel fuel' : ℕ) (items : List α), items.length ≤ fuel →
      items.length ≤ fuel' → chunksUpTo size fuel items = chunksUpTo size fuel' items from
    agree fuel items.length items enough (Nat.le_refl _)
  intro fuel
  induction fuel with
  | zero =>
      intro fuel' items short _
      have empty : items = [] := List.eq_nil_of_length_eq_zero (by omega)
      cases fuel' <;> simp [empty, chunksUpTo]
  | succ fuel ih =>
      intro fuel' items short short'
      cases items with
      | nil => cases fuel' <;> rfl
      | cons item rest =>
          cases fuel' with
          | zero => simp at short'
          | succ fuel' =>
              simp only [chunksUpTo, List.cons.injEq, true_and]
              apply ih
              · simp only [List.length_drop, List.length_cons] at short ⊢
                omega
              · simp only [List.length_drop, List.length_cons] at short' ⊢
                omega

@[simp]
theorem chunks_nil (size : ℕ) : chunks size ([] : List α) = [] := rfl

theorem chunks_of_ne_nil {size : ℕ} (positive : 0 < size) {items : List α}
    (nonempty : items ≠ []) :
    chunks size items = items.take size :: chunks size (items.drop size) := by
  cases items with
  | nil => exact absurd rfl nonempty
  | cons item rest =>
      have enough : ((item :: rest).drop size).length ≤ rest.length := by
        simp only [List.length_drop, List.length_cons]
        omega
      rw [← chunksUpTo_of_length_le positive enough]
      rfl

theorem chunks_eq_nil_iff {size : ℕ} (positive : 0 < size) {items : List α} :
    chunks size items = [] ↔ items = [] := by
  constructor
  · intro empty
    by_contra nonempty
    rw [chunks_of_ne_nil positive nonempty] at empty
    exact List.cons_ne_nil _ _ empty
  · rintro rfl
    rfl

/-- The chunks hold the elements of the list, in order. -/
theorem flatten_chunks {size : ℕ} (positive : 0 < size) (items : List α) :
    (chunks size items).flatten = items := by
  generalize bound : items.length = length
  induction length using Nat.strongRecOn generalizing items with
  | ind length ih =>
      by_cases empty : items = []
      · simp [empty]
      · have shorter : (items.drop size).length < length := by
          have := List.length_pos_of_ne_nil empty
          simp only [List.length_drop]
          omega
        rw [chunks_of_ne_nil positive empty, List.flatten_cons, ih _ shorter _ rfl,
          List.take_append_drop]

end Chunks

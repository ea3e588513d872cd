import Mathlib.Data.List.Chain

/-!
# Greedy thinning

`thin due last values` keeps a value when it is due after the one kept before it, the first
of them after `last`.  Neighbours that are kept are due one after the other, and a value is
dropped only after one that it is not due after.
-/

namespace Thinning

universe u

variable {α : Type u} (due : α → α → Bool)

/-- The value is due, or the first one of all. -/
def isDue (last : Option α) (value : α) : Bool :=
  last.all (due · value)

/-- The last value kept, after one more. -/
def next (last : Option α) (value : α) : Option α :=
  if isDue due last value then some value else last

def thin : Option α → List α → List α
  | _, [] => []
  | last, value :: values =>
      if isDue due last value then value :: thin (some value) values else thin last values

variable {due}

theorem thin_append (last : Option α) (front back : List α) :
    thin due last (front ++ back) =
      thin due last front ++ thin due (front.foldl (next due) last) back := by
  induction front generalizing last with
  | nil => rfl
  | cons value front ih =>
      rw [List.cons_append, thin, thin, List.foldl_cons]
      by_cases kept : isDue due last value = true
      · simp only [kept, if_true, List.cons_append, next, ih]
      · simp only [kept, next, ih, Bool.false_eq_true, if_false]

theorem thin_sublist (last : Option α) (values : List α) :
    (thin due last values).Sublist values := by
  induction values generalizing last with
  | nil => exact List.Sublist.refl _
  | cons value values ih =>
      unfold thin
      split
      · exact (ih (some value)).cons_cons value
      · exact (ih last).cons value

/-- What is kept is due after what was kept before it. -/
theorem isChain_thin (last : Option α) (values : List α) :
    (last.toList ++ thin due last values).IsChain fun earlier later => due earlier later = true := by
  induction values generalizing last with
  | nil => cases last <;> simp [thin]
  | cons value values ih =>
      unfold thin
      split
      · rename_i kept
        have rest : (value :: thin due (some value) values).IsChain _ := ih (some value)
        cases last with
        | none => exact rest
        | some earlier => exact rest.cons_cons (by simpa [isDue] using kept)
      · exact ih last

/-- A value is kept, or dropped because it is not due after one kept before it. -/
theorem mem_thin_or (last : Option α) (front : List α) (value : α) (back : List α) :
    value ∈ thin due last (front ++ value :: back) ∨
      ∃ earlier ∈ last.toList ++ thin due last front, due earlier value = false := by
  induction front generalizing last with
  | nil =>
      rw [List.nil_append]
      by_cases kept : isDue due last value = true
      · left
        rw [thin, if_pos kept]
        exact List.mem_cons_self
      · right
        cases last with
        | none => simp [isDue] at kept
        | some earlier => exact ⟨earlier, by simp, by simpa [isDue] using kept⟩
  | cons first front ih =>
      simp only [List.cons_append, thin]
      by_cases kept : isDue due last first = true
      · rw [if_pos kept, if_pos kept]
        rcases ih (some first) with mem | ⟨earlier, isEarlier, notDue⟩
        · exact .inl (List.mem_cons_of_mem first mem)
        · right
          refine ⟨earlier, ?_, notDue⟩
          exact List.mem_append_right _ isEarlier
      · rw [if_neg kept, if_neg kept]
        exact ih last

end Thinning

/-
The least item of a list, the first one where several are equally low.
-/

namespace Refit
namespace Data

variable {α : Type}

def least? (lt : α → α → Bool) : List α → Option α
  | [] => none
  | x :: xs => some (xs.foldl (fun best y => if lt y best then y else best) x)

/-- One step of a search that keeps the best of the items selected so far. -/
def better (selects : α → Bool) (lt : α → α → Bool) (best : Option α) (x : α) : Option α :=
  if selects x then
    match best with
    | none => some x
    | some y => some (if lt x y then x else y)
  else best

theorem foldl_better_some (selects : α → Bool) (lt : α → α → Bool) (xs : List α) (y : α) :
    xs.foldl (better selects lt) (some y) =
      some ((xs.filter selects).foldl (fun best x => if lt x best then x else best) y) := by
  induction xs generalizing y with
  | nil => rfl
  | cons x xs ih =>
    by_cases hx : selects x = true
    · rw [List.foldl_cons, better, if_pos hx, ih, List.filter_cons_of_pos hx, List.foldl_cons]
    · rw [List.foldl_cons, better, if_neg hx, ih, List.filter_cons_of_neg hx]

/-- The search ends with the least of the items that are selected. -/
theorem foldl_better (selects : α → Bool) (lt : α → α → Bool) (xs : List α) :
    xs.foldl (better selects lt) none = least? lt (xs.filter selects) := by
  induction xs with
  | nil => rfl
  | cons x xs ih =>
    by_cases hx : selects x = true
    · rw [List.foldl_cons, better, if_pos hx, foldl_better_some, List.filter_cons_of_pos hx, least?]
    · rw [List.foldl_cons, better, if_neg hx, ih, List.filter_cons_of_neg hx]

theorem least?_eq_none_iff (lt : α → α → Bool) (xs : List α) : least? lt xs = none ↔ xs = [] := by
  cases xs <;> simp [least?]

theorem foldl_best_mem (lt : α → α → Bool) (xs : List α) (x : α) :
    xs.foldl (fun best y => if lt y best then y else best) x ∈ x :: xs := by
  induction xs generalizing x with
  | nil => simp
  | cons y ys ih =>
    rw [List.foldl_cons]
    have h := ih (if lt y x then y else x)
    grind

theorem mem_of_least? {lt : α → α → Bool} {xs : List α} {x : α} (h : least? lt xs = some x) :
    x ∈ xs := by
  cases xs with
  | nil => simp [least?] at h
  | cons y ys =>
    have hx : ys.foldl (fun best y => if lt y best then y else best) y = x := by
      simpa [least?] using h
    exact hx ▸ foldl_best_mem lt ys y

end Data
end Refit

/-
The items of a list together with their places, so that equal items at different places stay apart.
-/

namespace Refit
namespace Data

structure Placed (α : Type) where
  place : Nat
  item : α
  deriving Repr, DecidableEq

namespace Placed

variable {α : Type}

def list (xs : List α) : List (Placed α) := xs.zipIdx.map fun p => ⟨p.2, p.1⟩

theorem map_item_list (xs : List α) : (list xs).map item = xs := by
  simp [list, Function.comp_def]

theorem map_place_list (xs : List α) : (list xs).map place = List.range xs.length := by
  simp [list, Function.comp_def, List.range_eq_range']

theorem mem_list_iff {xs : List α} {p : Placed α} : p ∈ list xs ↔ xs[p.place]? = some p.item := by
  rw [list, List.mem_map]
  constructor
  · rintro ⟨e, hmem, rfl⟩
    exact List.mem_zipIdx_iff_getElem?.mp hmem
  · exact fun h => ⟨(p.item, p.place), List.mem_zipIdx_iff_getElem?.mpr h, rfl⟩

theorem pairwise_place_list (xs : List α) :
    (list xs).Pairwise fun p q => p.place < q.place := by
  rw [← List.pairwise_map (f := place), map_place_list]
  exact List.pairwise_lt_range

end Placed
end Data
end Refit

/-
Gathering items by key.

A mapping that is filled item by item has the keys in the order of their first items. What stands under
a key depends on the items with that key alone, so the whole mapping can be written down at once: its
keys, and for each of them a value (`alter_tabulate`, `gather_eq_tabulate`).
-/
import Mathlib.Data.List.Induction
import Mathlib.Data.List.Nodup
import Refit.Data.Pairs

namespace Refit

/-! ## First occurrences -/

section FirstOccurrences

variable {α : Type} [BEq α] [LawfulBEq α]

theorem eraseDups_concat (xs : List α) (x : α) :
    (xs ++ [x]).eraseDups = if x ∈ xs then xs.eraseDups else xs.eraseDups ++ [x] := by
  rw [List.eraseDups_append]
  by_cases h : x ∈ xs
  · simp [List.removeAll, h]
  · simp [List.removeAll, h, List.eraseDups_cons]

theorem nodup_eraseDups (xs : List α) : xs.eraseDups.Nodup := by
  induction xs using List.reverseRecOn with
  | nil => simp
  | append_singleton xs x ih =>
      rw [eraseDups_concat]
      split
      · exact ih
      · next h =>
        rw [← List.mem_eraseDups] at h
        refine List.nodup_append.mpr ⟨ih, by simp, ?_⟩
        intro y hy z hz heq
        rw [List.mem_singleton.mp hz] at heq
        exact h (heq ▸ hy)

theorem eraseDups_sublist (xs : List α) : xs.eraseDups.Sublist xs := by
  induction xs using List.reverseRecOn with
  | nil => simp
  | append_singleton xs x ih =>
      rw [eraseDups_concat]
      split
      · exact ih.trans (List.sublist_append_left xs [x])
      · exact ih.append (List.Sublist.refl [x])

end FirstOccurrences

namespace Data
namespace Pairs

variable {κ ν : Type}

/-- The mapping with the given keys in order and a value for each. -/
def tabulate (value : κ → ν) (keys : List κ) : Pairs κ ν := keys.map fun k => (k, value k)

theorem tabulate_congr {value value' : κ → ν} {keys : List κ} (h : ∀ k ∈ keys, value k = value' k) :
    tabulate value keys = tabulate value' keys :=
  List.map_congr_left fun k hk => congrArg (Prod.mk k) (h k hk)

/-- Writing at a key changes the value there, or adds the key at the end. -/
theorem alter_tabulate [DecidableEq κ] (value : κ → ν) {keys : List κ} (hnd : keys.Nodup) (k : κ)
    (f : Option ν → ν) :
    (tabulate value keys).alter k f =
      if k ∈ keys then tabulate (fun k' => if k' = k then f (some (value k')) else value k') keys
      else tabulate value keys ++ [(k, f none)] := by
  induction keys with
  | nil => rfl
  | cons k' keys ih =>
      rw [List.nodup_cons] at hnd
      by_cases hk : k' = k
      · subst hk
        have hrest : tabulate (fun k => if k = k' then f (some (value k)) else value k) keys =
            tabulate value keys := by
          refine tabulate_congr fun k hk => if_neg ?_
          rintro rfl
          exact hnd.1 hk
        simp only [tabulate, List.map_cons, alter, if_true, List.mem_cons_self] at hrest ⊢
        rw [hrest]
      · have hmem : k ∈ k' :: keys ↔ k ∈ keys := by
          rw [List.mem_cons, or_iff_right (Ne.symm hk)]
        simp only [tabulate, List.map_cons, alter, if_neg hk, hmem] at ih ⊢
        rw [ih hnd.2]
        split <;> rfl

/-! ### Items by key -/

section Gather

variable {α : Type} [DecidableEq κ]

def under (items : List (κ × α)) (k : κ) : List α := (items.filter fun e => e.1 = k).map Prod.snd

theorem under_concat (items : List (κ × α)) (e : κ × α) (k : κ) :
    under (items ++ [e]) k = if e.1 = k then under items k ++ [e.2] else under items k := by
  rw [under, List.filter_append, List.map_append, under]
  by_cases hk : e.1 = k
  · simp [hk]
  · simp [hk]

theorem under_ne_nil_iff {items : List (κ × α)} {k : κ} :
    under items k ≠ [] ↔ k ∈ items.map Prod.fst := by
  rw [under, ne_eq, List.map_eq_nil_iff, List.filter_eq_nil_iff, List.mem_map]
  simp

/-- Writing the items one after the other leaves, under each key, the value of its items, if that
value grows with every write as the write says. -/
theorem gather_eq_tabulate [BEq κ] [LawfulBEq κ] (write : Option ν → α → ν) (value : List α → ν)
    (hfresh : ∀ x, write none x = value [x])
    (hmore : ∀ xs x, xs ≠ [] → write (some (value xs)) x = value (xs ++ [x]))
    (items : List (κ × α)) :
    items.foldl (fun (m : Pairs κ ν) e => m.alter e.1 fun old => write old e.2) [] =
      tabulate (fun k => value (under items k)) (items.map Prod.fst).eraseDups := by
  induction items using List.reverseRecOn with
  | nil => rfl
  | append_singleton items e ih =>
      rw [List.foldl_concat, ih, alter_tabulate _ (nodup_eraseDups _), List.map_append,
        List.map_singleton, eraseDups_concat]
      simp only [List.mem_eraseDups]
      split
      · next hmem =>
        refine tabulate_congr fun k _ => ?_
        rw [under_concat]
        by_cases hk : k = e.1
        · subst hk
          rw [if_pos rfl, if_pos rfl, hmore _ _ (under_ne_nil_iff.mpr hmem)]
        · rw [if_neg hk, if_neg (Ne.symm hk)]
      · next hmem =>
        have hnone : under items e.1 = [] := by
          by_contra hne
          exact hmem (under_ne_nil_iff.mp hne)
        have hkept : ∀ k ∈ (items.map Prod.fst).eraseDups,
            value (under items k) = value (under (items ++ [e]) k) := by
          intro k hk
          have hne : e.1 ≠ k := by
            rintro rfl
            exact hmem (List.mem_eraseDups.mp hk)
          rw [under_concat, if_neg hne]
        rw [tabulate_congr hkept, tabulate, tabulate, List.map_append, List.map_singleton,
          under_concat, if_pos rfl, hnone, hfresh]
        rfl

end Gather

end Pairs
end Data
end Refit

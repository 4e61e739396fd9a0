/-
The least item by a key, told by where it stands: every item before it has a higher key, and none
after it a lower one.
-/
import Mathlib.Data.List.Nodup
import Mathlib.Order.Lattice
import Refit.Data.Least
import Refit.Data.Placed

namespace Refit
namespace Data

variable {α β κ : Type} [LinearOrder κ]

/-- `x` is the first of the items of `xs` with the lowest key. -/
def FirstLeast (key : α → κ) (xs : List α) (x : α) : Prop :=
  ∃ before after, xs = before ++ x :: after ∧
    (∀ y ∈ before, key x < key y) ∧ ∀ y ∈ after, key x ≤ key y

namespace FirstLeast

variable {key : α → κ} {xs ys : List α} {x : α}

theorem le (h : FirstLeast key xs x) {y : α} (hy : y ∈ xs) : key x ≤ key y := by
  obtain ⟨before, after, rfl, hbefore, hafter⟩ := h
  rcases List.mem_append.mp hy with hy | hy
  · exact le_of_lt (hbefore y hy)
  · rcases List.mem_cons.mp hy with rfl | hy
    · exact le_refl _
    · exact hafter y hy

/-- A least item is still the least among fewer items, as long as it is one of them. -/
theorem of_sublist (h : FirstLeast key xs x) (hnd : xs.Nodup) (hsub : ys.Sublist xs)
    (hx : x ∈ ys) : FirstLeast key ys x := by
  obtain ⟨before, after, rfl, hbefore, hafter⟩ := h
  obtain ⟨ys₁, ys₂, rfl, hsub₁, hsub₂⟩ := List.sublist_append_iff.mp hsub
  have hnot : x ∉ before ∧ x ∉ after := by
    have hnd' := List.nodup_middle.mp hnd
    rw [List.nodup_cons, List.mem_append, not_or] at hnd'
    exact hnd'.1
  have hx₂ : x ∈ ys₂ :=
    (List.mem_append.mp hx).resolve_left fun hx₁ => hnot.1 (hsub₁.subset hx₁)
  rcases List.sublist_cons_iff.mp hsub₂ with hlater | ⟨rest, rfl, hrest⟩
  · exact absurd (hlater.subset hx₂) hnot.2
  · exact ⟨ys₁, rest, rfl, fun y hy => hbefore y (hsub₁.subset hy),
      fun y hy => hafter y (hrest.subset hy)⟩

/-- In a list that is strictly ordered by `r`, the first of the least items is the one that comes
before the others with its key. -/
theorem iff_of_pairwise {r : α → α → Prop} (hasymm : ∀ a b, r a b → ¬r b a) (hord : xs.Pairwise r) :
    FirstLeast key xs x ↔
      x ∈ xs ∧ ∀ y ∈ xs, y ≠ x → key x < key y ∨ key x = key y ∧ r x y := by
  constructor
  · rintro ⟨before, after, rfl, hbefore, hafter⟩
    refine ⟨List.mem_append_right _ List.mem_cons_self, fun y hy hne => ?_⟩
    rcases List.mem_append.mp hy with hy | hy
    · exact .inl (hbefore y hy)
    · have hmem : y ∈ after := (List.mem_cons.mp hy).resolve_left hne
      have hr : r x y := List.rel_of_pairwise_cons (List.pairwise_append.mp hord).2.1 hmem
      exact (lt_or_eq_of_le (hafter y hmem)).imp_right fun heq => ⟨heq, hr⟩
  · rintro ⟨hx, hleast⟩
    obtain ⟨before, after, rfl⟩ := List.append_of_mem hx
    obtain ⟨-, htail, hcross⟩ := List.pairwise_append.mp hord
    refine ⟨before, after, rfl, fun y hy => ?_, fun y hy => ?_⟩
    · have hr : r y x := hcross y hy x List.mem_cons_self
      have hne : y ≠ x := by
        rintro rfl
        exact hasymm y y hr hr
      refine (hleast y (List.mem_append_left _ hy) hne).resolve_right fun h => ?_
      exact hasymm y x hr h.2
    · have hr : r x y := List.rel_of_pairwise_cons htail hy
      have hne : y ≠ x := by
        rintro rfl
        exact hasymm y y hr hr
      rcases hleast y (List.mem_append_right _ (List.mem_cons_of_mem x hy)) hne with h | h
      · exact le_of_lt h
      · exact le_of_eq h.1

end FirstLeast

theorem exists_firstLeast (key : α → κ) {xs : List α} (hne : xs ≠ []) :
    ∃ x, FirstLeast key xs x := by
  induction xs with
  | nil => exact absurd rfl hne
  | cons x xs ih =>
    by_cases hxs : xs = []
    · subst hxs
      exact ⟨x, [], [], rfl, by simp, by simp⟩
    · obtain ⟨z, hz⟩ := ih hxs
      by_cases hle : key x ≤ key z
      · exact ⟨x, [], xs, rfl, by simp, fun y hy => le_trans hle (hz.le hy)⟩
      · obtain ⟨before, after, rfl, hbefore, hafter⟩ := hz
        refine ⟨z, x :: before, after, rfl, ?_, hafter⟩
        rw [List.forall_mem_cons]
        exact ⟨lt_of_not_ge hle, hbefore⟩

section Least

variable {lt : α → α → Bool} {key : α → κ}

theorem foldl_best_eq_self (hlt : ∀ a b, lt a b = true ↔ key a < key b) {x : α} {xs : List α}
    (h : ∀ y ∈ xs, key x ≤ key y) :
    xs.foldl (fun best y => if lt y best then y else best) x = x := by
  induction xs with
  | nil => rfl
  | cons y xs ih =>
    rw [List.forall_mem_cons] at h
    have hy : ¬lt y x = true := by
      rw [hlt]
      exact not_lt_of_ge h.1
    rw [List.foldl_cons, if_neg hy, ih h.2]

theorem least?_of_firstLeast (hlt : ∀ a b, lt a b = true ↔ key a < key b) {xs : List α} {x : α}
    (h : FirstLeast key xs x) : least? lt xs = some x := by
  obtain ⟨before, after, rfl, hbefore, hafter⟩ := h
  cases before with
  | nil => exact congrArg some (foldl_best_eq_self hlt hafter)
  | cons b before =>
    -- Whatever the items before leave as the best, `x` is lower.
    have hx : lt x (before.foldl (fun best y => if lt y best then y else best) b) = true :=
      (hlt _ _).mpr (hbefore _ (foldl_best_mem lt before b))
    rw [List.cons_append, least?, List.foldl_append, List.foldl_cons, if_pos hx,
      foldl_best_eq_self hlt hafter]

theorem least?_eq_some_iff (hlt : ∀ a b, lt a b = true ↔ key a < key b) {xs : List α} {x : α} :
    least? lt xs = some x ↔ FirstLeast key xs x := by
  constructor
  · intro h
    have hne : xs ≠ [] := by
      rintro rfl
      simp [least?] at h
    obtain ⟨z, hz⟩ := exists_firstLeast key hne
    rw [least?_of_firstLeast hlt hz, Option.some.injEq] at h
    exact h ▸ hz
  · exact least?_of_firstLeast hlt

end Least

/-- Of the items of a list that are selected, the least is the one with the lowest key that stands
before the others with this key. -/
theorem least?_placed_eq_some_iff {lt : α → α → Bool} {key : α → κ}
    (hlt : ∀ a b, lt a b = true ↔ key a < key b) (selects : α → Bool) {xs : List α} {p : Placed α} :
    least? (fun a b => lt a.item b.item) ((Placed.list xs).filter fun q => selects q.item) = some p ↔
      p ∈ Placed.list xs ∧ selects p.item = true ∧
        ∀ q ∈ Placed.list xs, selects q.item = true → q ≠ p →
          key p.item < key q.item ∨ key p.item = key q.item ∧ p.place < q.place := by
  have hitems : ∀ a b : Placed α, lt a.item b.item = true ↔ key a.item < key b.item :=
    fun a b => hlt a.item b.item
  have hord := (Placed.pairwise_place_list xs).filter fun q => selects q.item
  rw [least?_eq_some_iff hitems, FirstLeast.iff_of_pairwise (fun _ _ => Nat.lt_asymm) hord]
  simp only [List.mem_filter, and_assoc, and_imp]

theorem least?_map (lt : β → β → Bool) (f : α → β) (xs : List α) :
    least? lt (xs.map f) = (least? (fun a b => lt (f a) (f b)) xs).map f := by
  cases xs with
  | nil => rfl
  | cons x xs =>
    simp only [List.map_cons, least?, Option.map_some, Option.some.injEq]
    induction xs generalizing x with
    | nil => rfl
    | cons y xs ih =>
      rw [List.map_cons, List.foldl_cons, List.foldl_cons, ← ih]
      split <;> rfl

end Data
end Refit

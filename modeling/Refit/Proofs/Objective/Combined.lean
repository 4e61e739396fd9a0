/-
The objective of several rules depends on which rules they are, and on nothing else.

Repetitions go twice: once among the rules, and once more among their objectives, since rules may
share one.  Both times the first occurrence stays, so what is left of a strictly increasing list are
the rules that are least among those with their objective (`eraseDups_map_of_pairwise`).  These are
told by the set of rules alone.
-/
import Mathlib.Data.Char
import Mathlib.Data.List.Lex
import Mathlib.Data.List.Sort
import Refit.Objective.Table
import Refit.Proofs.Data.Gather

namespace Refit

/-! ## The order of code points -/

namespace Text

theorem noLater_iff (s t : Text) : noLater s t = true ↔ s ≤ t := by
  induction s generalizing t with
  | nil => exact iff_of_true rfl (not_lt.mp (List.not_lt_nil t))
  | cons c s ih =>
      cases t with
      | nil => simp [noLater]
      | cons d t =>
          -- Characters are compared by their code points.
          have hlt : c < d ↔ c.toNat < d.toNat := Iff.rfl
          rw [noLater, Bool.or_eq_true, Bool.and_eq_true, beq_iff_eq, decide_eq_true_eq, ih,
            le_iff_lt_or_eq, le_iff_lt_or_eq, List.cons_lt_cons_iff, List.cons.injEq, hlt]
          tauto

theorem noLater_trans (s t u : Text) (h : noLater s t = true) (h' : noLater t u = true) :
    noLater s u = true := by
  rw [noLater_iff] at *
  exact h.trans h'

theorem noLater_total (s t : Text) : (noLater s t || noLater t s) = true := by
  rw [Bool.or_eq_true, noLater_iff, noLater_iff]
  exact le_total s t

end Text

/-! ## First occurrences in a list that is in order -/

section InOrder

variable {α β : Type} [LinearOrder α]

theorem pairwise_lt_eraseDups [BEq α] [LawfulBEq α] {xs : List α} (h : xs.Pairwise (· ≤ ·)) :
    xs.eraseDups.Pairwise (· < ·) := by
  have hle : xs.eraseDups.Pairwise (· ≤ ·) := h.sublist (eraseDups_sublist xs)
  exact (hle.and (nodup_eraseDups xs)).imp fun hab => lt_of_le_of_ne hab.1 hab.2

/-- The items with no smaller item of the same value. -/
def leaders [DecidableEq β] (f : α → β) (xs : List α) : List α :=
  xs.filter fun x => ∀ y ∈ xs, f y = f x → x ≤ y

theorem mem_leaders_iff [DecidableEq β] {f : α → β} {xs : List α} {x : α} :
    x ∈ leaders f xs ↔ x ∈ xs ∧ ∀ y ∈ xs, f y = f x → x ≤ y := by
  rw [leaders, List.mem_filter, decide_eq_true_eq]

theorem leaders_concat [DecidableEq β] (f : α → β) {xs : List α} {x : α} (h : ∀ y ∈ xs, y < x) :
    leaders f (xs ++ [x]) = if f x ∈ xs.map f then leaders f xs else leaders f xs ++ [x] := by
  -- All items before `x` are smaller, so it takes the lead from none of them.
  have hbefore : ∀ y ∈ xs, ((∀ z ∈ xs ++ [x], f z = f y → y ≤ z) ↔
      ∀ z ∈ xs, f z = f y → y ≤ z) := by
    intro y hy
    rw [List.forall_mem_append, List.forall_mem_singleton]
    exact and_iff_left fun _ => (h y hy).le
  -- It leads itself if none of them has its value.
  have hlast : (∀ z ∈ xs ++ [x], f z = f x → x ≤ z) ↔ f x ∉ xs.map f := by
    rw [List.forall_mem_append, List.forall_mem_singleton, List.mem_map]
    constructor
    · rintro ⟨hlead, -⟩ ⟨z, hz, hfz⟩
      exact (h z hz).not_ge (hlead z hz hfz)
    · intro hnew
      exact ⟨fun z hz hfz => absurd ⟨z, hz, hfz⟩ hnew, fun _ => le_refl x⟩
  have hxs : xs.filter (fun y => ∀ z ∈ xs ++ [x], f z = f y → y ≤ z) = leaders f xs :=
    List.filter_congr fun y hy => decide_eq_decide.mpr (hbefore y hy)
  rw [leaders, List.filter_append, hxs]
  by_cases hx : f x ∈ xs.map f
  · rw [if_pos hx, List.filter_cons_of_neg (by simpa using mt hlast.mp (not_not_intro hx)),
      List.filter_nil, List.append_nil]
  · rw [if_neg hx, List.filter_cons_of_pos (by simpa using hlast.mpr hx), List.filter_nil]

/-- The values of a strictly increasing list, each once, are the values of its leaders. -/
theorem eraseDups_map_of_pairwise [DecidableEq β] [BEq β] [LawfulBEq β] (f : α → β) {xs : List α}
    (h : xs.Pairwise (· < ·)) : (xs.map f).eraseDups = (leaders f xs).map f := by
  induction xs using List.reverseRecOn with
  | nil => rfl
  | append_singleton xs x ih =>
      obtain ⟨hxs, -, hlt⟩ := List.pairwise_append.mp h
      rw [List.map_append, List.map_singleton, eraseDups_concat, ih hxs,
        leaders_concat f fun y hy => hlt y hy x (List.mem_singleton_self x)]
      split
      · rfl
      · rw [List.map_append, List.map_singleton]

end InOrder

/-! ## The objective of several rules -/

namespace Objective
namespace Table

theorem mem_sortRules {rules : List Text} {r : Text} : r ∈ sortRules rules ↔ r ∈ rules := by
  rw [sortRules, List.mem_eraseDups, List.mem_mergeSort]

theorem pairwise_sortRules (rules : List Text) : (sortRules rules).Pairwise (· < ·) := by
  have hsorted := List.pairwise_mergeSort Text.noLater_trans Text.noLater_total rules
  exact pairwise_lt_eraseDups (hsorted.imp fun h => (Text.noLater_iff _ _).mp h)

theorem sortRules_congr {rules rules' : List Text} (h : ∀ r, r ∈ rules ↔ r ∈ rules') :
    sortRules rules = sortRules rules' := by
  refine (pairwise_sortRules rules).eq_of_mem_iff (pairwise_sortRules rules') fun r => ?_
  rw [mem_sortRules, mem_sortRules, h]

theorem combined_of_ne_nil (t : Table) {rules : List Text} (h : rules ≠ []) :
    t.combined rules =
      Text.join " " ((leaders t.objective (sortRules rules)).map t.objective) := by
  rw [combined, if_neg (by simpa using h), eraseDups_map_of_pairwise _ (pairwise_sortRules rules)]

theorem combined_congr (t : Table) {rules rules' : List Text} (h : ∀ r, r ∈ rules ↔ r ∈ rules') :
    t.combined rules = t.combined rules' := by
  have hnil : rules = [] ↔ rules' = [] := by
    rw [List.eq_nil_iff_forall_not_mem, List.eq_nil_iff_forall_not_mem]
    exact forall_congr' fun r => not_congr (h r)
  by_cases hrules : rules = []
  · rw [hrules, hnil.mp hrules]
  · rw [combined_of_ne_nil t hrules, combined_of_ne_nil t (mt hnil.mpr hrules), sortRules_congr h]

/-- The objective of some rules is told by their set: it joins the objectives of the rules, each
once and in the order of the least rules that have them. -/
theorem combined_joins_objectives_of_least_rules (t : Table) (rules : List Text) :
    (∀ rules', (∀ r, r ∈ rules' ↔ r ∈ rules) → t.combined rules' = t.combined rules) ∧
      (rules ≠ [] → ∃ least : List Text,
        t.combined rules = Text.join " " (least.map t.objective) ∧
          least.Pairwise (· < ·) ∧
          (∀ r, r ∈ least ↔ r ∈ rules ∧ ∀ r' ∈ rules, t.objective r' = t.objective r → r ≤ r') ∧
          (least.map t.objective).Nodup ∧
          ∀ s, s ∈ least.map t.objective ↔ s ∈ rules.map t.objective) ∧
      t.combined [] = (t.objectives.get? defaultRule).getD generalObjective := by
  have hsorted := pairwise_sortRules rules
  have hvalues := eraseDups_map_of_pairwise t.objective hsorted
  refine ⟨fun rules' h => combined_congr t h, fun hne => ?_, ?_⟩
  · refine ⟨leaders t.objective (sortRules rules), combined_of_ne_nil t hne, hsorted.filter _,
      fun r => ?_, ?_, fun s => ?_⟩
    · simp only [mem_leaders_iff, mem_sortRules]
    · rw [← hvalues]
      exact nodup_eraseDups _
    · simp only [← hvalues, List.mem_eraseDups, List.mem_map, mem_sortRules]
  · rw [combined, if_pos List.isEmpty_nil, objective]
    split
    · next h => rw [h, Option.getD_some]
    · rfl

/-- Two of three rules share their objective. -/
def sharedTable : Table :=
  ⟨defaultInstruction, [("Naming", "Rename it."), ("Size", "Split it."), ("Depth", "Split it.")]⟩

theorem combined_joins_objectives_of_sharedTable :
    ["Size".toList, "Naming".toList, "Depth".toList, "Size".toList] ≠ [] ∧
      sharedTable.combined ["Size", "Naming", "Depth", "Size"] = "Split it. Rename it.".toList ∧
      sharedTable.combined ["Naming", "Depth", "Size"] = "Split it. Rename it.".toList := by
  obtain ⟨hset, hjoin, -⟩ := combined_joins_objectives_of_least_rules sharedTable
    ["Size", "Naming", "Depth", "Size"]
  obtain ⟨least, hcombined, hsorted, hmem, -⟩ := hjoin (by decide)
  have hleast : least = ["Depth".toList, "Naming".toList] := by
    refine hsorted.eq_of_mem_iff (by decide) fun r => (hmem r).trans ?_
    constructor
    · rintro ⟨hr, hle⟩
      revert r
      decide
    · intro hr
      revert r
      decide
  have htext : sharedTable.combined ["Size", "Naming", "Depth", "Size"] =
      "Split it. Rename it.".toList := by
    rw [hcombined, hleast]
    rfl
  refine ⟨by decide, htext, (hset _ fun r => ?_).trans htext⟩
  simp only [List.mem_cons, List.not_mem_nil, or_false]
  tauto

end Table
end Objective
end Refit

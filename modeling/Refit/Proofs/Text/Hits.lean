/-
Scanning a text with a recogniser, line by line.

A piece that a scan reports is recognised at some point of the text.  Where a
recogniser never looks beyond the end of a line, scanning a text comes to
scanning its lines one after the other (`values_eq_flatMap`).
-/
import Refit.Proofs.Text.Lines

namespace Refit
namespace Text

variable {β : Type} {r : Recogniser β}

theorem exists_suffix_of_mem_hitsFrom {s : Text} {pos skip : Nat} {before : Option Char}
    {hit : Hit β} (h : hit ∈ hitsFrom r pos skip before s) :
    ∃ before' s' n, s' <:+ s ∧ r before' s' = some (n, hit.value) := by
  induction s generalizing pos skip before with
  | nil => exact absurd h List.not_mem_nil
  | cons c s ih =>
      have hrest : ∀ {pos skip : Nat} {before : Option Char}, hit ∈ hitsFrom r pos skip before s →
          ∃ before' s' n, s' <:+ c :: s ∧ r before' s' = some (n, hit.value) := by
        intro pos skip before h
        obtain ⟨before', s', n, hsuffix, hr⟩ := ih h
        exact ⟨before', s', n, hsuffix.trans (List.suffix_cons c s), hr⟩
      cases skip with
      | succ skip => exact hrest h
      | zero =>
          rw [hitsFrom] at h
          split at h
          · next n v hv =>
            rcases List.mem_cons.mp h with rfl | h
            · exact ⟨before, c :: s, n, List.suffix_rfl, hv⟩
            · exact hrest h
          · exact hrest h

/-! ## Breaks -/

theorem after?_append_break {lead : Text} (hn : '\n' ∉ lead) (x y : Text) :
    after? lead (x ++ '\n' :: y) = (after? lead x).map (· ++ '\n' :: y) := by
  induction lead generalizing x with
  | nil => rfl
  | cons l lead ih =>
      rw [List.mem_cons, not_or] at hn
      cases x with
      | nil => simp [after?, Ne.symm hn.1]
      | cons c x =>
          by_cases hc : l = c
          · simp [after?, hc, ih hn.2]
          · simp [after?, hc]

theorem takeWhile_append_break {p : Char → Bool} (hp : p '\n' = false) (x y : Text) :
    (x ++ '\n' :: y).takeWhile p = x.takeWhile p := by
  induction x with
  | nil => simp [hp]
  | cons c x ih =>
      by_cases hc : p c = true
      · simp [hc, ih]
      · simp [hc]

theorem dropWhile_append_break {p : Char → Bool} (hp : p '\n' = false) (x y : Text) :
    (x ++ '\n' :: y).dropWhile p = x.dropWhile p ++ '\n' :: y := by
  induction x with
  | nil => simp [hp]
  | cons c x ih =>
      by_cases hc : p c = true
      · simp [hc, ih]
      · simp [hc]

/-! ## Runs -/

theorem takeWhile_append_of_head {p : Char → Bool} {run rest : Text}
    (hrun : ∀ c ∈ run, p c = true) (hrest : ∀ c ∈ rest.head?, p c = false) :
    (run ++ rest).takeWhile p = run := by
  rw [List.takeWhile_append_of_pos hrun]
  cases rest with
  | nil => simp
  | cons c rest => simp [hrest c rfl]

theorem dropWhile_append_of_head {p : Char → Bool} {run rest : Text}
    (hrun : ∀ c ∈ run, p c = true) (hrest : ∀ c ∈ rest.head?, p c = false) :
    (run ++ rest).dropWhile p = rest := by
  rw [List.dropWhile_append_of_pos hrun]
  cases rest with
  | nil => rfl
  | cons c rest => simp [hrest c rfl]

/-! ## Scanning lines -/

/-- What a scan reads from a text, without the positions. -/
def values (r : Recogniser β) (s : Text) : List β := (hits r s).map Hit.value

/-- The recogniser looks at nothing before its piece and nothing behind its line. -/
structure Recogniser.Linewise (r : Recogniser β) : Prop where
  free : ∀ before before' s, r before s = r before' s
  keeps : ∀ before x y, '\n' ∉ x → r before (x ++ '\n' :: y) = r before x
  within : ∀ before x n v, r before x = some (n, v) → n ≤ x.length
  nil : ∀ before, r before [] = none

theorem map_value_hitsFrom (hr : Recogniser.Linewise r) (s : Text) (pos pos' skip : Nat)
    (before before' : Option Char) :
    (hitsFrom r pos skip before s).map Hit.value =
      (hitsFrom r pos' skip before' s).map Hit.value := by
  induction s generalizing pos pos' skip before before' with
  | nil => rfl
  | cons c s ih =>
      cases skip with
      | succ skip => exact ih ..
      | zero =>
          rw [hitsFrom, hitsFrom, hr.free before before']
          split
          · rw [List.map_cons, List.map_cons, ih _ (pos' + 1) _ _ (some c)]
          · exact ih ..

theorem values_cons_of_none (hr : Recogniser.Linewise r) {c : Char} {s : Text}
    (h : r none (c :: s) = none) : values r (c :: s) = values r s := by
  rw [values, hits, hitsFrom, h]
  exact map_value_hitsFrom hr s ..

theorem mem_values_of_eq_some (hr : Recogniser.Linewise r) {s : Text} {n : Nat} {v : β}
    (h : r none s = some (n, v)) : v ∈ values r s := by
  cases s with
  | nil => exact absurd ((hr.nil none).symm.trans h) (Option.some_ne_none _).symm
  | cons c s =>
      rw [values, hits, hitsFrom, h]
      exact List.mem_cons_self

theorem map_value_hitsFrom_append_break (hr : Recogniser.Linewise r) {x : Text} (hx : '\n' ∉ x)
    {skip : Nat} (hskip : skip ≤ x.length) (pos : Nat) (before : Option Char) (y : Text) :
    (hitsFrom r pos skip before (x ++ '\n' :: y)).map Hit.value =
      (hitsFrom r pos skip before x).map Hit.value ++ values r y := by
  induction x generalizing pos skip before with
  | nil =>
      obtain rfl : skip = 0 := Nat.le_zero.mp hskip
      have hbreak : r before ('\n' :: y) = none := (hr.keeps before [] y hx).trans (hr.nil before)
      show (hitsFrom r pos 0 before ('\n' :: y)).map Hit.value = values r y
      rw [hitsFrom, hbreak]
      exact map_value_hitsFrom hr y ..
  | cons c x ih =>
      have hx' : '\n' ∉ x := fun h => hx (List.mem_cons_of_mem c h)
      rw [List.length_cons] at hskip
      cases skip with
      | succ skip => exact ih hx' (by omega) ..
      | zero =>
          rw [List.cons_append, hitsFrom, hitsFrom, ← List.cons_append, hr.keeps before _ y hx]
          split
          · next n v hv =>
            have hn := hr.within before _ n v hv
            rw [List.length_cons] at hn
            rw [List.map_cons, List.map_cons, ih hx' (by omega), List.cons_append]
          · exact ih hx' (Nat.zero_le _) ..

theorem values_append_break (hr : Recogniser.Linewise r) {x : Text} (hx : '\n' ∉ x) (y : Text) :
    values r (x ++ '\n' :: y) = values r x ++ values r y :=
  map_value_hitsFrom_append_break hr hx (Nat.zero_le _) 0 none y

theorem values_eq_flatMap (hr : Recogniser.Linewise r) (s : Text) :
    values r s = (fileLines s).flatMap (values r) := by
  have hlines : ∀ (ls : List Text) (l : Text), (∀ l' ∈ l :: ls, '\n' ∉ l') →
      values r (l ++ afterBreaks ls) = (l :: ls).flatMap (values r) := by
    intro ls
    induction ls with
    | nil => intro l _; simp
    | cons l' ls ih =>
        intro l h
        rw [List.forall_mem_cons] at h
        rw [afterBreaks_cons, values_append_break hr h.1, ih l' h.2]
        rfl
  obtain ⟨l, ls, hs⟩ := List.exists_cons_of_ne_nil (fileLines_ne_nil s)
  have hfree : ∀ l' ∈ l :: ls, '\n' ∉ l' := fun l' hl' => notMem_of_mem_fileLines (hs ▸ hl')
  rw [hs, ← hlines ls l hfree, ← ofFileLines_cons, ← hs, ofFileLines_fileLines]

end Text
end Refit

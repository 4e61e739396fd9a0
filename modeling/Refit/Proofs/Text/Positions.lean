/-
Scanning a text with a recogniser, position by position.

A scan lists the leftmost piece, then the leftmost one from where that piece stops,
and so on to the end of the text (`scanned_hits`).
-/
import Refit.Text.Search

namespace Refit
namespace Text

variable {β : Type} {r : Recogniser β} {s : Text} {i : Nat} {h h' : Hit β} {hs : List (Hit β)}

def readAt (r : Recogniser β) (s : Text) (i : Nat) : Option (Nat × β) :=
  r (s.take i).getLast? (s.drop i)

def hitsAt (r : Recogniser β) (s : Text) (i : Nat) : List (Hit β) :=
  hitsFrom r i 0 (s.take i).getLast? (s.drop i)

def nextHit? (r : Recogniser β) (s : Text) (i : Nat) : Option (Hit β) :=
  firstHitFrom? r i (s.take i).getLast? (s.drop i)

/-- Every piece has at least one character and ends within the text. -/
structure Recogniser.Proper (r : Recogniser β) : Prop where
  pos : ∀ before s n v, r before s = some (n, v) → 0 < n
  within : ∀ before s n v, r before s = some (n, v) → n ≤ s.length

theorem Recogniser.Proper.readAt_within (hr : r.Proper) {n : Nat} {v : β}
    (h : readAt r s i = some (n, v)) : 0 < n ∧ i + n ≤ s.length := by
  have hpos := hr.pos _ _ n v h
  have hwithin := hr.within _ _ n v h
  rw [List.length_drop] at hwithin
  omega

theorem Recogniser.Proper.readAt_end (hr : r.Proper) (hi : s.length ≤ i) : readAt r s i = none := by
  cases hread : readAt r s i with
  | none => rfl
  | some piece =>
      have := hr.readAt_within hread
      omega

/-! ## One step of a scan -/

theorem getLast?_take_succ (hi : i < s.length) : (s.take (i + 1)).getLast? = some s[i] := by
  rw [List.take_succ_eq_append_getElem hi, List.getLast?_concat]

theorem hitsFrom_skip (r : Recogniser β) (s : Text) (i skip : Nat) :
    hitsFrom r i skip (s.take i).getLast? (s.drop i) = hitsAt r s (i + skip) := by
  induction skip generalizing i with
  | zero => rfl
  | succ skip ih =>
      by_cases hi : i < s.length
      · rw [List.drop_eq_getElem_cons hi, hitsFrom, ← getLast?_take_succ hi, ih]
        congr 1
        omega
      · rw [hitsAt, List.drop_eq_nil_of_le (by omega), List.drop_eq_nil_of_le (by omega)]
        rfl

theorem hitsAt_of_none (h : readAt r s i = none) : hitsAt r s i = hitsAt r s (i + 1) := by
  by_cases hi : i < s.length
  · rw [readAt, List.drop_eq_getElem_cons hi] at h
    rw [hitsAt, List.drop_eq_getElem_cons hi, hitsFrom, h, ← getLast?_take_succ hi]
    rfl
  · rw [hitsAt, hitsAt, List.drop_eq_nil_of_le (by omega), List.drop_eq_nil_of_le (by omega)]
    rfl

theorem hitsAt_of_some (hr : r.Proper) {n : Nat} {v : β} (h : readAt r s i = some (n, v)) :
    hitsAt r s i = ⟨i, i + n, v⟩ :: hitsAt r s (i + n) := by
  obtain ⟨hpos, hwithin⟩ := hr.readAt_within h
  have hi : i < s.length := by omega
  have hn : i + n = i + 1 + (n - 1) := by omega
  rw [readAt, List.drop_eq_getElem_cons hi] at h
  rw [hitsAt, List.drop_eq_getElem_cons hi, hitsFrom, h, ← getLast?_take_succ hi]
  show _ :: hitsFrom r (i + 1) (n - 1) _ _ = _
  rw [hitsFrom_skip, ← hn]

/-! ## Leftmost pieces -/

structure Leftmost (r : Recogniser β) (s : Text) (i : Nat) (h : Hit β) : Prop where
  le_start : i ≤ h.start
  start_lt : h.start < h.stop
  stop_le : h.stop ≤ s.length
  read : readAt r s h.start = some (h.stop - h.start, h.value)
  none_before : ∀ j < h.start, i ≤ j → readAt r s j = none

theorem Leftmost.unique (hl : Leftmost r s i h) (hl' : Leftmost r s i h') : h = h' := by
  have hstart : h.start = h'.start := by
    rcases Nat.lt_trichotomy h.start h'.start with hlt | heq | hlt
    · exact absurd (hl.read.symm.trans (hl'.none_before _ hlt hl.le_start)) (Option.some_ne_none _)
    · exact heq
    · exact absurd (hl'.read.symm.trans (hl.none_before _ hlt hl'.le_start)) (Option.some_ne_none _)
  have hread := hl.read.symm.trans (hstart ▸ hl'.read)
  obtain ⟨hlength, hvalue⟩ := Prod.mk.inj (Option.some.inj hread)
  have hlt := hl.start_lt
  have hlt' := hl'.start_lt
  have hstop : h.stop = h'.stop := by omega
  cases h
  cases h'
  simp_all

/-- The pieces are the leftmost ones, each from where the one before it stops. -/
inductive Scanned (r : Recogniser β) (s : Text) : Nat → List (Hit β) → Prop
  | nil {i : Nat} (hnone : ∀ j, i ≤ j → readAt r s j = none) : Scanned r s i []
  | cons {i : Nat} {h : Hit β} {hs : List (Hit β)} (hleft : Leftmost r s i h)
      (hrest : Scanned r s h.stop hs) : Scanned r s i (h :: hs)

theorem Scanned.of_succ (hnone : readAt r s i = none) (hs' : Scanned r s (i + 1) hs) :
    Scanned r s i hs := by
  have hfrom : ∀ j, i ≤ j → i = j ∨ i + 1 ≤ j := fun j hj => by omega
  cases hs' with
  | nil hrest =>
      refine .nil fun j hj => ?_
      rcases hfrom j hj with rfl | hj
      · exact hnone
      · exact hrest j hj
  | cons hleft hrest =>
      refine .cons ⟨Nat.le_of_succ_le hleft.le_start, hleft.start_lt, hleft.stop_le, hleft.read,
        fun j hlt hj => ?_⟩ hrest
      rcases hfrom j hj with rfl | hj
      · exact hnone
      · exact hleft.none_before j hlt hj

theorem scanned_hitsAt (hr : r.Proper) (s : Text) (i : Nat) : Scanned r s i (hitsAt r s i) := by
  -- on what is left of the text behind `i`
  induction hn : s.length - i using Nat.strongRecOn generalizing i with
  | ind n ih =>
      cases hread : readAt r s i with
      | some piece =>
          obtain ⟨hpos, hwithin⟩ := hr.readAt_within hread
          rw [hitsAt_of_some hr hread]
          refine .cons ⟨Nat.le_refl i, by simp only; omega, hwithin, ?_, ?_⟩ (ih _ ?_ _ rfl)
          · simpa using hread
          · exact fun j hlt hj => absurd hlt (Nat.not_lt.mpr hj)
          · simp only
            omega
      | none =>
          by_cases hi : i < s.length
          · rw [hitsAt_of_none hread]
            exact .of_succ hread (ih _ (by omega) (i + 1) rfl)
          · rw [hitsAt, List.drop_eq_nil_of_le (Nat.not_lt.mp hi)]
            exact .nil fun j hj => hr.readAt_end (by omega)

theorem scanned_hits (hr : r.Proper) (s : Text) : Scanned r s 0 (hits r s) :=
  scanned_hitsAt hr s 0

theorem Scanned.exists_leftmost (hs' : Scanned r s i hs) (hmem : h ∈ hs) : ∃ j, Leftmost r s j h := by
  induction hs' with
  | nil => exact absurd hmem List.not_mem_nil
  | cons hleft _ ih =>
      rcases List.mem_cons.mp hmem with rfl | hmem
      · exact ⟨_, hleft⟩
      · exact ih hmem

theorem Scanned.le_start (hs' : Scanned r s i hs) (hmem : h ∈ hs) : i ≤ h.start := by
  induction hs' with
  | nil => exact absurd hmem List.not_mem_nil
  | cons hleft _ ih =>
      rcases List.mem_cons.mp hmem with rfl | hmem
      · exact hleft.le_start
      · have := ih hmem
        have := hleft.le_start
        have := hleft.start_lt
        omega

theorem Scanned.stop_le_start (hs' : Scanned r s i hs) (hmem : h ∈ hs) (hmem' : h' ∈ hs)
    (hlt : h.start < h'.start) : h.stop ≤ h'.start := by
  induction hs' with
  | nil => exact absurd hmem List.not_mem_nil
  | cons hleft hrest ih =>
      rcases List.mem_cons.mp hmem with rfl | htail
      · rcases List.mem_cons.mp hmem' with rfl | hmem'
        · exact absurd hlt (Nat.lt_irrefl _)
        · exact hrest.le_start hmem'
      · rcases List.mem_cons.mp hmem' with rfl | hmem'
        · have := hrest.le_start htail
          have := hleft.start_lt
          omega
        · exact ih htail hmem'

/-! ## The next piece -/

theorem head?_hitsFrom (r : Recogniser β) (pos : Nat) (before : Option Char) (s : Text) :
    (hitsFrom r pos 0 before s).head? = firstHitFrom? r pos before s := by
  induction s generalizing pos before with
  | nil => rfl
  | cons c s ih =>
      rw [hitsFrom, firstHitFrom?]
      split
      · rfl
      · exact ih ..

theorem Scanned.head?_eq_some_iff (hs' : Scanned r s i hs) :
    hs.head? = some h ↔ Leftmost r s i h := by
  cases hs' with
  | nil hnone =>
      refine ⟨fun hh => absurd hh.symm (Option.some_ne_none _), fun hl => ?_⟩
      exact absurd (hl.read.symm.trans (hnone _ hl.le_start)) (Option.some_ne_none _)
  | cons hleft _ =>
      refine ⟨fun hh => ?_, fun hl => congrArg some (hleft.unique hl)⟩
      obtain rfl := Option.some.inj hh
      exact hleft

theorem Scanned.head?_eq_none_iff (hs' : Scanned r s i hs) :
    hs.head? = none ↔ ∀ j, i ≤ j → readAt r s j = none := by
  cases hs' with
  | nil hnone => exact ⟨fun _ => hnone, fun _ => rfl⟩
  | cons hleft _ =>
      refine ⟨fun hh => absurd hh (Option.some_ne_none _), fun hnone => ?_⟩
      exact absurd (hleft.read.symm.trans (hnone _ hleft.le_start)) (Option.some_ne_none _)

theorem nextHit?_eq_some_iff (hr : r.Proper) : nextHit? r s i = some h ↔ Leftmost r s i h := by
  rw [nextHit?, ← head?_hitsFrom]
  exact (scanned_hitsAt hr s i).head?_eq_some_iff

theorem nextHit?_eq_none_iff (hr : r.Proper) :
    nextHit? r s i = none ↔ ∀ j, i ≤ j → readAt r s j = none := by
  rw [nextHit?, ← head?_hitsFrom]
  exact (scanned_hitsAt hr s i).head?_eq_none_iff

end Text
end Refit

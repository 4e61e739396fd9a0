/-
Where a block ends, told by counting braces.

A search along a block carries the depth it has reached.  That depth is the number of braces
opened so far less the number closed, so the search ends at the first position where the two
numbers are equal, and up to there more braces are open than closed.
-/
import Mathlib.Order.Bounds.Defs
import Refit.Replacement

namespace Refit
namespace Replacement

variable {s : Text} {c : Char} {depth : Int} {n p e : Nat}

theorem closing?_within (h : closing? depth s = some n) : 0 < n ∧ n ≤ s.length := by
  induction s generalizing depth n with
  | nil => exact absurd h.symm (Option.some_ne_none _)
  | cons c s ih =>
      have hrest : ∀ {depth : Int}, (closing? depth s).map (· + 1) = some n →
          0 < n ∧ n ≤ (c :: s).length := by
        intro depth h
        obtain ⟨m, hm, rfl⟩ := Option.map_eq_some_iff.mp h
        have := ih hm
        rw [List.length_cons]
        omega
      rw [closing?] at h
      split at h
      · exact hrest h
      · split at h
        · split at h
          · obtain rfl := Option.some.inj h
            rw [List.length_cons]
            omega
          · exact hrest h
        · exact hrest h

theorem blockEnd_within (hp : p < s.length) : p < blockEnd s p ∧ blockEnd s p ≤ s.length := by
  unfold blockEnd
  split
  · next n hn =>
    have hwithin := closing?_within hn
    rw [List.length_drop] at hwithin
    omega
  · omega

/-! ## Depth and counts -/

/-- What a character does to the depth. -/
def turn (c : Char) : Int := if c = '\x7b' then 1 else if c = '\x7d' then -1 else 0

/-- How many more of the first `n` characters open a brace than close one. -/
def excess (s : Text) (n : Nat) : Int := (s.take n).count '\x7b' - (s.take n).count '\x7d'

theorem excess_zero (s : Text) : excess s 0 = 0 := by
  simp [excess]

theorem excess_nil (n : Nat) : excess [] n = 0 := by
  simp [excess]

theorem excess_cons (c : Char) (s : Text) (n : Nat) :
    excess (c :: s) (n + 1) = turn c + excess s n := by
  unfold excess turn
  rw [List.take_succ_cons]
  by_cases hopen : c = '\x7b'
  · rw [if_pos hopen, hopen, List.count_cons_self, List.count_cons_of_ne (by decide)]
    omega
  · rw [if_neg hopen, List.count_cons_of_ne hopen]
    by_cases hclose : c = '\x7d'
    · rw [if_pos hclose, hclose, List.count_cons_self]
      omega
    · rw [if_neg hclose, List.count_cons_of_ne hclose]
      omega

/-- One step of a search below the surface: it ends where the depth is used up, which only a
closing brace can do. -/
theorem closing?_cons (hdepth : 0 < depth) :
    closing? depth (c :: s) = if depth + turn c = 0 then some 1
      else (closing? (depth + turn c) s).map (· + 1) := by
  rw [closing?, turn]
  by_cases hopen : c = '\x7b'
  · have hdeeper : depth + 1 ≠ 0 := by omega
    rw [if_pos hopen, if_pos hopen, if_neg hdeeper]
  · rw [if_neg hopen, if_neg hopen]
    by_cases hclose : c = '\x7d'
    · rw [if_pos hclose, if_pos hclose]
      rfl
    · have hsame : depth + 0 ≠ 0 := by omega
      rw [if_neg hclose, if_neg hclose, if_neg hsame, Int.add_zero]

/-- The depth is used up after `n` characters, and not before. -/
structure Surfaces (depth : Int) (s : Text) (n : Nat) : Prop where
  level : depth + excess s n = 0
  before : ∀ m < n, 0 < depth + excess s m

theorem turn_ge (c : Char) : -1 ≤ turn c := by
  unfold turn
  split
  · omega
  · split <;> omega

theorem surfaces_cons_iff (hdepth : 0 < depth) :
    Surfaces depth (c :: s) (n + 1) ↔
      (depth + turn c = 0 ∧ n = 0) ∨ (depth + turn c ≠ 0 ∧ Surfaces (depth + turn c) s n) := by
  have hturn := turn_ge c
  constructor
  · rintro ⟨hlevel, hbefore⟩
    rw [excess_cons] at hlevel
    by_cases hzero : depth + turn c = 0
    · refine .inl ⟨hzero, ?_⟩
      rcases Nat.eq_zero_or_pos n with hn | hn
      · exact hn
      · have hfirst := hbefore 1 (by omega)
        rw [excess_cons, excess_zero] at hfirst
        omega
    · refine .inr ⟨hzero, by omega, fun m hm => ?_⟩
      have hlater := hbefore (m + 1) (by omega)
      rw [excess_cons] at hlater
      omega
  · rintro (⟨hzero, rfl⟩ | ⟨-, hlevel, hbefore⟩)
    · refine ⟨?_, fun m hm => ?_⟩
      · rw [excess_cons, excess_zero]
        omega
      · obtain rfl : m = 0 := by omega
        rw [excess_zero]
        omega
    · refine ⟨?_, fun m hm => ?_⟩
      · rw [excess_cons]
        omega
      · cases m with
        | zero =>
            rw [excess_zero]
            omega
        | succ m =>
            have hm' := hbefore m (by omega)
            rw [excess_cons]
            omega

theorem Surfaces.pos (h : Surfaces depth s n) (hdepth : 0 < depth) : 0 < n := by
  have hlevel := h.level
  cases n with
  | zero =>
      rw [excess_zero] at hlevel
      omega
  | succ n => exact Nat.succ_pos n

theorem closing?_eq_some_iff (hdepth : 0 < depth) :
    closing? depth s = some n ↔ Surfaces depth s n := by
  induction s generalizing depth n with
  | nil =>
      refine iff_of_false (Option.some_ne_none _).symm fun h => ?_
      have hlevel := h.level
      rw [excess_nil] at hlevel
      omega
  | cons c s ih =>
      cases n with
      | zero =>
          refine iff_of_false (fun h => ?_) fun h => ?_
          · have := closing?_within h
            omega
          · have := h.pos hdepth
            omega
      | succ n =>
          rw [closing?_cons hdepth, surfaces_cons_iff hdepth]
          have hturn := turn_ge c
          by_cases hzero : depth + turn c = 0
          · rw [if_pos hzero, Option.some.injEq]
            omega
          · rw [if_neg hzero, Option.map_eq_some_iff]
            have hdeeper : 0 < depth + turn c := by omega
            have hih := ih (n := n) hdeeper
            simp only [Nat.add_right_cancel_iff, exists_eq_right, hih, hzero, ne_eq,
              not_false_eq_true, true_and, false_and, false_or]

/-- A search that finds no end stays below the surface all along. -/
theorem closing?_eq_none_iff (hdepth : 0 < depth) :
    closing? depth s = none ↔ ∀ n, 0 < depth + excess s n := by
  constructor
  · intro h
    induction s generalizing depth with
    | nil =>
        intro n
        rw [excess_nil]
        omega
    | cons c s ih =>
        intro n
        have hturn := turn_ge c
        rw [closing?_cons hdepth] at h
        split at h
        · exact absurd h (Option.some_ne_none _)
        · cases n with
          | zero =>
              rw [excess_zero]
              omega
          | succ n =>
              have hdeeper : 0 < depth + turn c := by omega
              have hrest := ih hdeeper (Option.map_eq_none_iff.mp h) n
              rw [excess_cons]
              omega
  · intro h
    cases hsome : closing? depth s with
    | none => rfl
    | some n =>
        have hlevel := ((closing?_eq_some_iff hdepth).mp hsome).level
        have hbelow := h n
        omega

/-- The last step to the surface is a closing brace. -/
theorem Surfaces.getElem? (h : Surfaces depth s (n + 1)) (hdepth : 0 < depth) :
    s[n]? = some '\x7d' := by
  induction s generalizing depth n with
  | nil =>
      have hlevel := h.level
      rw [excess_nil] at hlevel
      omega
  | cons c s ih =>
      rcases (surfaces_cons_iff hdepth).mp h with ⟨hzero, rfl⟩ | ⟨hdeep, hrest⟩
      · have hclose : c = '\x7d' := by
          unfold turn at hzero
          split at hzero
          · omega
          · split at hzero
            · assumption
            · omega
        rw [hclose]
        rfl
      · have hturn := turn_ge c
        have hpos := hrest.pos (by omega)
        obtain ⟨m, rfl⟩ : ∃ m, n = m + 1 := ⟨n - 1, by omega⟩
        exact ih hrest (by omega)

/-! ## The end of a block -/

/-- As many braces open as close from `p` up to `e`. -/
def Balanced (s : Text) (p e : Nat) : Prop :=
  p < e ∧ (slice s p e).count '\x7b' = (slice s p e).count '\x7d'

instance (s : Text) (p e : Nat) : Decidable (Balanced s p e) := inferInstanceAs (Decidable (_ ∧ _))

/-- More braces open than close from `p` up to `e`. -/
def Unclosed (s : Text) (p e : Nat) : Prop :=
  (slice s p e).count '\x7d' < (slice s p e).count '\x7b'

section Open

variable (hopen : s[p]? = some '\x7b')

include hopen

theorem drop_eq_cons_of_open : s.drop p = '\x7b' :: s.drop (p + 1) := by
  obtain ⟨hp, hbrace⟩ := List.getElem?_eq_some_iff.mp hopen
  rw [List.drop_eq_getElem_cons hp, hbrace]

theorem slice_of_open (n : Nat) :
    slice s p (p + 1 + n) = '\x7b' :: (s.drop (p + 1)).take n := by
  have hlength : p + 1 + n - p = n + 1 := by omega
  rw [slice, drop_eq_cons_of_open hopen, hlength, List.take_succ_cons]

theorem balanced_iff_excess : Balanced s p (p + 1 + n) ↔ 1 + excess (s.drop (p + 1)) n = 0 := by
  unfold Balanced excess
  rw [slice_of_open hopen, List.count_cons_self, List.count_cons_of_ne (by decide)]
  omega

theorem unclosed_iff_excess : Unclosed s p (p + 1 + n) ↔ 0 < 1 + excess (s.drop (p + 1)) n := by
  unfold Unclosed excess
  rw [slice_of_open hopen, List.count_cons_self, List.count_cons_of_ne (by decide)]
  omega

/-- Behind an opening brace the search goes on at depth one. -/
theorem closing?_drop_of_open :
    closing? 0 (s.drop p) = (closing? 1 (s.drop (p + 1))).map (· + 1) := by
  rw [drop_eq_cons_of_open hopen, closing?, if_pos rfl]
  rfl

theorem blockEnd_of_surfaces (h : Surfaces 1 (s.drop (p + 1)) n) : blockEnd s p = p + 1 + n := by
  have hclosing := (closing?_eq_some_iff (by omega)).mpr h
  rw [blockEnd, closing?_drop_of_open hopen, hclosing]
  show p + (n + 1) = p + 1 + n
  omega

theorem blockEnd_of_unclosed (h : ∀ n, 0 < 1 + excess (s.drop (p + 1)) n) :
    blockEnd s p = s.length := by
  have hclosing := (closing?_eq_none_iff (by omega)).mpr h
  rw [blockEnd, closing?_drop_of_open hopen, hclosing]
  rfl

theorem isLeast_of_surfaces (h : Surfaces 1 (s.drop (p + 1)) n) :
    IsLeast {e | Balanced s p e} (p + 1 + n) := by
  refine ⟨(balanced_iff_excess hopen).mpr h.level, fun e he => ?_⟩
  obtain ⟨m, rfl⟩ : ∃ m, e = p + 1 + m := ⟨e - (p + 1), by have := he.1; omega⟩
  have hlevel := (balanced_iff_excess hopen).mp he
  rcases Nat.lt_or_ge m n with hm | hm
  · have hbelow := h.before m hm
    omega
  · omega

/-- A block that is closed before the end of the text has as many opening as closing braces. -/
theorem count_slice_blockEnd (h : blockEnd s p ≠ s.length) :
    (slice s p (blockEnd s p)).count '\x7b' = (slice s p (blockEnd s p)).count '\x7d' := by
  cases hclosing : closing? 1 (s.drop (p + 1)) with
  | none =>
      have hunclosed := (closing?_eq_none_iff (by omega)).mp hclosing
      exact absurd (blockEnd_of_unclosed hopen hunclosed) h
  | some n =>
      have hsurfaces := (closing?_eq_some_iff (by omega)).mp hclosing
      rw [blockEnd_of_surfaces hopen hsurfaces]
      exact ((balanced_iff_excess hopen).mpr hsurfaces.level).2

end Open

/-- The end of the block at an opening brace is the first position up to which as many braces
close as open.  It is behind a closing brace, and the block is unclosed at every position before.
A block without such a position ends with the text. -/
theorem blockEnd_matches_brace (hopen : s[p]? = some '\x7b') :
    blockEndAt s p = .ok (blockEnd s p) ∧
      ((∃ e, Balanced s p e) →
        IsLeast {e | Balanced s p e} (blockEnd s p) ∧
        (∀ e, p < e → e < blockEnd s p → Unclosed s p e) ∧
        s[blockEnd s p - 1]? = some '\x7d') ∧
      ((∀ e, ¬Balanced s p e) → blockEnd s p = s.length) := by
  have hat : blockEndAt s p = .ok (blockEnd s p) := by
    rw [blockEndAt, if_pos (Int.natCast_nonneg p), Int.toNat_natCast]
  refine ⟨hat, ?_⟩
  cases hclosing : closing? 1 (s.drop (p + 1)) with
  | some n =>
      have hsurfaces := (closing?_eq_some_iff (by omega)).mp hclosing
      have hleast := isLeast_of_surfaces hopen hsurfaces
      have hpos := hsurfaces.pos (by omega)
      rw [blockEnd_of_surfaces hopen hsurfaces]
      refine ⟨fun _ => ⟨hleast, fun e hpe hen => ?_, ?_⟩, fun hnone => absurd hleast.1 (hnone _)⟩
      · obtain ⟨m, rfl⟩ : ∃ m, e = p + 1 + m := ⟨e - (p + 1), by omega⟩
        exact (unclosed_iff_excess hopen).mpr (hsurfaces.before m (by omega))
      · obtain ⟨m, rfl⟩ : ∃ m, n = m + 1 := ⟨n - 1, by omega⟩
        have hlast := hsurfaces.getElem? (by omega)
        rwa [List.getElem?_drop] at hlast
  | none =>
      have hunclosed := (closing?_eq_none_iff (by omega)).mp hclosing
      refine ⟨fun ⟨e, he⟩ => ?_, fun _ => blockEnd_of_unclosed hopen hunclosed⟩
      obtain ⟨m, rfl⟩ : ∃ m, e = p + 1 + m := ⟨e - (p + 1), by have := he.1; omega⟩
      have hlevel := (balanced_iff_excess hopen).mp he
      have hbelow := hunclosed m
      omega

/-- A block with another one inside it and a closing brace too many behind it, and a block that is
cut short. -/
def unevenBlocks : Text := "\x7d f \x7b a \x7b \x7d b \x7d \x7d \x7b \x7b \x7d"

theorem blockEnd_matches_brace_unevenBlocks :
    (unevenBlocks[4]? = some '\x7b' ∧ blockEndAt unevenBlocks 4 = .ok 15 ∧
      IsLeast {e | Balanced unevenBlocks 4 e} 15) ∧
      unevenBlocks[18]? = some '\x7b' ∧ (∀ e, ¬Balanced unevenBlocks 18 e) ∧
      blockEndAt unevenBlocks 18 = .ok 23 := by
  have hfirst : unevenBlocks[4]? = some '\x7b' := by decide
  have hlast : unevenBlocks[18]? = some '\x7b' := by decide
  obtain ⟨hat, hclosed, -⟩ := blockEnd_matches_brace hfirst
  obtain ⟨hat', hclosed', -⟩ := blockEnd_matches_brace hlast
  have hend : blockEnd unevenBlocks 4 = 15 := by decide
  have hend' : blockEnd unevenBlocks 18 = 23 := by decide
  rw [hend] at hat hclosed
  rw [hend'] at hat' hclosed'
  refine ⟨⟨hfirst, hat, (hclosed ⟨15, by decide⟩).1⟩, hlast, fun e he => ?_, hat'⟩
  have hbalanced : Balanced unevenBlocks 18 23 := (hclosed' ⟨e, he⟩).1.1
  exact absurd hbalanced (by decide)

end Replacement
end Refit

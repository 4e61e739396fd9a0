/-
The marked blocks form an antichain that covers the flagged code.

From a flagged member one climbs to a flagged member around it, from an uncovered
type one descends to an uncovered block inside it.  Spans grow on the way up and
shrink on the way down, so both ways end, and they end at a marked block.
-/
import Refit.Proofs.Marker.Layout

namespace Refit

theorem Span.length_lt_of_contains {a b : Span} (h : a.contains b = true) (hne : a ≠ b) :
    b.length < a.length := by
  obtain ⟨i, j, hi, hij⟩ := a
  obtain ⟨k, l, hk, hkl⟩ := b
  rw [contains_iff] at h
  simp only [ne_eq, Span.mk.injEq, not_and] at h hne
  simp only [length]
  omega

namespace Marker

variable {n : Nat} {blocks bs : List Block}

theorem isCovered_iff {b : Block} :
    isCovered bs b = true ↔
      ∃ o ∈ bs, o.span ≠ b.span ∧ o.isContainer = false ∧ o.span.contains b.span = true := by
  simp [isCovered, and_assoc]

theorem isEnclosing_iff {b : Block} :
    isEnclosing bs b = true ↔
      b.isContainer = true ∧ ∃ o ∈ bs, o.span ≠ b.span ∧ b.span.contains o.span = true := by
  simp [isEnclosing]

theorem mem_uncovered_iff {b : Block} :
    b ∈ uncovered bs ↔ b ∈ bs ∧ ¬ isCovered bs b = true := by
  simp [uncovered]

theorem mem_markable_iff {b : Block} :
    b ∈ markable n blocks ↔
      b ∈ uncovered (flagged n blocks) ∧
        ¬ isEnclosing (uncovered (flagged n blocks)) b = true := by
  simp [markable]

theorem firstOfSpan_eq_self (h : bs.Pairwise fun a b => a.span ≠ b.span) :
    firstOfSpan bs = bs := by
  induction bs with
  | nil => rfl
  | cons b bs ih =>
      rw [List.pairwise_cons] at h
      rw [firstOfSpan, ih h.2, List.filter_eq_self.mpr]
      intro c hc
      simpa using (h.1 c hc).symm

theorem flagged_eq_filter (h : blocks.Pairwise fun a b => a.span ≠ b.span) (n : Nat) :
    flagged n blocks = blocks.filter fun b => b.hasFindings && b.span.stop ≤ n :=
  firstOfSpan_eq_self (h.filter _)

/-! ## Climbing and descending -/

theorem mem_markable_of_member {b : Block} (h : b ∈ uncovered (flagged n blocks))
    (hb : b.isContainer = false) : b ∈ markable n blocks := by
  rw [mem_markable_iff, isEnclosing_iff, hb]
  exact ⟨h, fun hc => Bool.false_ne_true hc.1⟩

/-- A flagged member lies in a marked one, the outermost of those around it. -/
theorem exists_marked_around {b : Block} (h : b ∈ flagged n blocks) (hb : b.isContainer = false) :
    ∃ m ∈ markable n blocks, m.isContainer = false ∧ m.span.contains b.span = true := by
  by_cases hcov : isCovered (flagged n blocks) b = true
  · obtain ⟨o, ho, hne, hmember, hcontains⟩ := isCovered_iff.mp hcov
    -- The way up ends because no flagged span is longer than the file.
    have hlonger := Span.length_lt_of_contains hcontains hne
    have hstop := stop_le_of_mem_flagged ho
    have hlength : o.span.length ≤ n := by
      rw [Span.length]
      omega
    obtain ⟨m, hm, hmm, hmo⟩ := exists_marked_around ho hmember
    exact ⟨m, hm, hmm, Span.contains_trans hmo hcontains⟩
  · exact ⟨b, mem_markable_of_member (mem_uncovered_iff.mpr ⟨h, hcov⟩) hb, hb,
      Span.contains_self _⟩
termination_by n - b.span.length

/-- An uncovered block is marked or holds a marked one. -/
theorem exists_marked_within {b : Block} (h : b ∈ uncovered (flagged n blocks)) :
    ∃ m ∈ markable n blocks, b.span.contains m.span = true := by
  by_cases henc : isEnclosing (uncovered (flagged n blocks)) b = true
  · obtain ⟨-, o, ho, hne, hcontains⟩ := isEnclosing_iff.mp henc
    have hshorter := Span.length_lt_of_contains hcontains hne.symm
    obtain ⟨m, hm, hom⟩ := exists_marked_within ho
    exact ⟨m, hm, Span.contains_trans hcontains hom⟩
  · exact ⟨b, mem_markable_iff.mpr ⟨h, henc⟩, Span.contains_self _⟩
termination_by b.span.length

/-! ## The antichain -/

theorem pairwise_not_contains_markable (n : Nat) (blocks : List Block) :
    (markable n blocks).Pairwise fun a b =>
      a.span.contains b.span = false ∧ b.span.contains a.span = false := by
  refine (pairwise_markable n blocks).imp_of_mem fun {a b} ha hb hne => ?_
  exact ⟨not_contains_of_mem_markable ha hb hne, not_contains_of_mem_markable hb ha hne.symm⟩

theorem markable_sublist_flagged (n : Nat) (blocks : List Block) :
    (markable n blocks).Sublist (flagged n blocks) :=
  List.filter_sublist.trans List.filter_sublist

/-- Of the blocks with findings inside the file, those that are marked never hold
one another.  A member lies in a marked member; a type is marked, lies in a marked
member, or holds another block that is marked. -/
theorem markable_antichain_covers {blocks : List Block}
    (hspans : blocks.Pairwise fun a b => a.span ≠ b.span) (n : Nat) :
    (markable n blocks).Sublist
        (blocks.filter fun b => b.hasFindings && b.span.stop ≤ n) ∧
      ((markable n blocks).Pairwise fun a b =>
        a.span.contains b.span = false ∧ b.span.contains a.span = false) ∧
      ∀ b ∈ blocks, b.hasFindings = true → b.span.stop ≤ n →
        (b.isContainer = false →
          ∃ m ∈ markable n blocks, m.isContainer = false ∧ m.span.contains b.span = true) ∧
        (b.isContainer = true →
          b ∈ markable n blocks ∨
          (∃ m ∈ markable n blocks, m.isContainer = false ∧ m.span.contains b.span = true) ∨
          ∃ m ∈ markable n blocks, m.span ≠ b.span ∧ b.span.contains m.span = true) := by
  have hflagged := flagged_eq_filter hspans n
  refine ⟨hflagged ▸ markable_sublist_flagged n blocks, pairwise_not_contains_markable n blocks,
    fun b hb hfindings hstop => ?_⟩
  have hmem : b ∈ flagged n blocks := by
    rw [hflagged, List.mem_filter]
    simp [hb, hfindings, hstop]
  refine ⟨exists_marked_around hmem, fun _ => ?_⟩
  by_cases hcov : isCovered (flagged n blocks) b = true
  · obtain ⟨o, ho, -, hmember, hcontains⟩ := isCovered_iff.mp hcov
    obtain ⟨m, hm, hmm, hmo⟩ := exists_marked_around ho hmember
    exact .inr (.inl ⟨m, hm, hmm, Span.contains_trans hmo hcontains⟩)
  have hout := mem_uncovered_iff.mpr ⟨hmem, hcov⟩
  by_cases henc : isEnclosing (uncovered (flagged n blocks)) b = true
  · obtain ⟨-, o, ho, hne, hcontains⟩ := isEnclosing_iff.mp henc
    obtain ⟨m, hm, hom⟩ := exists_marked_within ho
    refine .inr (.inr ⟨m, hm, fun heq => ?_, Span.contains_trans hcontains hom⟩)
    have hshorter := Span.length_lt_of_contains hcontains hne.symm
    have hlonger := Span.length_lt_of_contains (heq ▸ hom) hne
    omega
  · exact .inl (mem_markable_iff.mpr ⟨hout, henc⟩)

/-- A type around a method, around a type, around a lambda; and a type in a type. -/
def layeredBlocks : List Block :=
  [flaggedBehind .type none 0 19, flaggedBehind .method none 1 7, flaggedBehind .type none 2 4,
    flaggedBehind .lambda none 3 1, flaggedBehind .type none 10 8, flaggedBehind .type none 12 2]

theorem markable_antichain_covers_layeredBlocks :
    (layeredBlocks.Pairwise fun a b => a.span ≠ b.span) ∧
      ((markable 20 layeredBlocks).Pairwise fun a b =>
        a.span.contains b.span = false ∧ b.span.contains a.span = false) ∧
      (∃ m ∈ markable 20 layeredBlocks, m.isContainer = false ∧
        m.span.contains (flaggedBehind .lambda none 3 1).span = true) ∧
      ∃ m ∈ markable 20 layeredBlocks, m.span ≠ (flaggedBehind .type none 0 19).span ∧
        (flaggedBehind .type none 0 19).span.contains m.span = true := by
  have hspans : layeredBlocks.Pairwise fun a b => a.span ≠ b.span := by decide
  obtain ⟨-, hantichain, hcovers⟩ := markable_antichain_covers hspans 20
  have hlambda := hcovers (flaggedBehind .lambda none 3 1) (by decide) rfl (by decide)
  have htype := hcovers (flaggedBehind .type none 0 19) (by decide) rfl (by decide)
  have hunmarked : flaggedBehind .type none 0 19 ∉ markable 20 layeredBlocks := by decide
  have houtside : ¬∃ m ∈ markable 20 layeredBlocks, m.isContainer = false ∧
      m.span.contains (flaggedBehind .type none 0 19).span = true := by decide
  exact ⟨hspans, hantichain, hlambda.1 rfl,
    ((htype.2 rfl).resolve_left hunmarked).resolve_left houtside⟩

example : markable 20 layeredBlocks =
    [flaggedBehind .method none 1 7, flaggedBehind .type none 12 2] := by decide

end Marker
end Refit

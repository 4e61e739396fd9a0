/-
Line breaks of reports, and the blanks around a line.

A carriage return and a line feed together end one line of a report.  Up to
empty lines that is the same as if both ended one (`filter_reportLines`), and
splitting at every break is compatible with appending, so two reports with a
break between them can be read one by one.
-/
import Refit.Proofs.Text.Hits

namespace Refit
namespace Text

/-! ## Properties of all characters

Deciding these goes through the characters at hand.  The other way, through all
characters there are, never ends. -/

scoped instance (priority := high) decidableForallMem (s : Text) (p : Char → Prop)
    [DecidablePred p] : Decidable (∀ c ∈ s, p c) := List.decidableBAll p s

scoped instance (priority := high) decidableForallMemOption (o : Option Char) (p : Char → Prop)
    [DecidablePred p] : Decidable (∀ c ∈ o, p c) :=
  match o with
  | none => .isTrue (by simp)
  | some c => decidable_of_iff (p c) (by simp)

theorem forall_mem_head?_cons {p : Char → Prop} {c : Char} {s : Text} :
    (∀ d ∈ (c :: s).head?, p d) ↔ p c := by
  simp

/-! ## Blanks and breaks -/

theorem isBlank_of_isBreak {c : Char} (h : isBreak c = true) : isBlank c = true := by
  simp only [isBreak, isBlank, Bool.or_eq_true, Bool.and_eq_true, decide_eq_true_eq,
    beq_iff_eq] at h ⊢
  omega

def blankCodes : List Nat :=
  [9, 10, 11, 12, 13, 0x1C, 0x1D, 0x1E, 0x1F, 0x20, 0x85, 0xA0, 0x1680, 0x2000, 0x2001, 0x2002,
    0x2003, 0x2004, 0x2005, 0x2006, 0x2007, 0x2008, 0x2009, 0x200A, 0x2028, 0x2029, 0x202F,
    0x205F, 0x3000]

theorem toNat_mem_blankCodes {c : Char} (h : isBlank c = true) : c.toNat ∈ blankCodes := by
  simp only [isBlank, Bool.or_eq_true, Bool.and_eq_true, decide_eq_true_eq, beq_iff_eq] at h
  simp only [blankCodes, List.mem_cons, List.not_mem_nil, or_false]
  omega

theorem isBlank_of_isWord {c : Char} (h : isWord c = true) : isBlank c = false := by
  have hcodes : ∀ n ∈ blankCodes, isWord (Char.ofNat n) = false := by decide +kernel
  rw [← Bool.not_eq_true]
  intro hblank
  have hword := hcodes _ (toNat_mem_blankCodes hblank)
  rw [Char.ofNat_toNat, h] at hword
  exact Bool.false_ne_true hword.symm

theorem isWord_of_isDigit {c : Char} (h : isDigit c = true) : isWord c = true := by
  rw [isWord, h, Bool.or_true, Bool.true_or]

/-! ## Lines of a report -/

theorem filter_reportLines_go (line s : Text) :
    (reportLines.go line s).filter (fun l => !l.isEmpty) =
      (s.splitOnPPrepend isBreak line).filter fun l => !l.isEmpty := by
  fun_induction reportLines.go line s with
  | case1 line h =>
      rw [List.splitOnPPrepend_nil, List.isEmpty_iff.mp h]
      rfl
  | case2 line h => rw [List.splitOnPPrepend_nil]
  | case3 line rest ih =>
      -- The two characters of one break leave an empty line between them.
      rw [List.splitOnPPrepend_cons_eq_if, if_pos (by decide), List.splitOnP,
        List.splitOnPPrepend_cons_eq_if, if_pos (by decide), List.splitOnP]
      simp only [List.filter_cons, ih]
      rfl
  | case4 line c rest _ hc ih =>
      rw [List.splitOnPPrepend_cons_eq_if, if_pos hc, List.splitOnP, List.filter_cons,
        List.filter_cons, ih]
  | case5 line c rest _ hc ih => rw [List.splitOnPPrepend_cons_eq_if, if_neg hc, ih]

theorem filter_reportLines (s : Text) :
    (reportLines s).filter (fun l => !l.isEmpty) =
      (s.splitOnP isBreak).filter fun l => !l.isEmpty :=
  filter_reportLines_go [] s

theorem filter_reportLines_append {c : Char} (hc : isBreak c = true) (a b : Text) :
    (reportLines (a ++ c :: b)).filter (fun l => !l.isEmpty) =
      (reportLines a).filter (fun l => !l.isEmpty) ++
        (reportLines b).filter fun l => !l.isEmpty := by
  rw [filter_reportLines, List.splitOnP_append_cons a b hc, List.filter_append,
    filter_reportLines, filter_reportLines]

theorem filter_reportLines_of_line {s : Text} (h : ∀ c ∈ s, isBreak c = false) (hne : s ≠ []) :
    (reportLines s).filter (fun l => !l.isEmpty) = [s] := by
  rw [filter_reportLines, List.splitOnP_eq_singleton h]
  simp [hne]

/-! ## Blanks around a line -/

theorem dropWhile_of_head {p : Char → Bool} {s : Text} (h : ∀ c ∈ s.head?, p c = false) :
    s.dropWhile p = s :=
  dropWhile_append_of_head (fun _ hc => absurd hc List.not_mem_nil) h

theorem trim_of_ends {s : Text} (hstart : ∀ c ∈ s.head?, isBlank c = false)
    (hstop : ∀ c ∈ s.getLast?, isBlank c = false) : trim s = s := by
  have hback : s.reverse.dropWhile isBlank = s.reverse := by
    apply dropWhile_of_head
    rwa [List.head?_reverse]
  rw [trim, trimStart, dropWhile_of_head hstart, trimEnd, hback, List.reverse_reverse]

theorem trim_append_of_blank {w : Text} (hw : ∀ c ∈ w, isBlank c = true) (s : Text) :
    trim (w ++ s) = trim s := by
  rw [trim, trimStart, List.dropWhile_append_of_pos hw]
  rfl

theorem trim_of_blank {w : Text} (hw : ∀ c ∈ w, isBlank c = true) : trim w = [] := by
  have h := trim_append_of_blank hw []
  rwa [List.append_nil] at h

end Text
end Refit

/-
How often a summary lists a finding.

A summary prints every member under each type whose lines hold it. So the findings of a type are
listed once, and those of a member as often as there are types around it: twice in a nested type, and
never outside all types.
-/
import Mathlib.Data.List.Perm.Basic
import Refit.Proofs.Decl.Partition
import Refit.Proofs.Request.Listing
import Refit.Request.Summary
import Refit.Text.Search

namespace Refit

section Repeating

variable {α β γ : Type}

theorem flatMap_filter (p : α → Bool) (g : α → List γ) (xs : List α) :
    (xs.filter p).flatMap g = xs.flatMap fun x => if p x then g x else [] := by
  induction xs with
  | nil => rfl
  | cons x xs ih =>
    by_cases h : p x = true
    · simp [h, ih]
    · simp [h, ih]

/-- Going through `xs` for each of `ts`, an item comes up as often as there are `t` that select it. -/
theorem flatMap_selected_perm (selects : β → α → Bool) (g : α → List γ) (ts : List β) (xs : List α) :
    (ts.flatMap fun t => (xs.filter (selects t)).flatMap g).Perm
      (xs.flatMap fun x => (List.replicate (ts.countP (selects · x)) (g x)).flatten) := by
  induction ts with
  | nil => simp
  | cons t ts ih =>
    rw [List.flatMap_cons, flatMap_filter]
    refine (ih.append_left _).trans ((List.flatMap_append_perm xs _ _).trans (.of_eq ?_))
    refine List.flatMap_congr fun x _ => ?_
    rw [List.countP_cons]
    by_cases h : selects t x = true
    · simp [h, List.replicate_succ]
    · simp [h]

end Repeating

namespace Request
namespace Summary

def findingLine (f : Finding) : Text := "    - " ++ f.rule ++ ": " ++ f.message

def isFindingLine (l : Text) : Bool := Text.startsWith "    - " l

def members (blocks : List Block) : List Block := blocks.filter fun b => !b.isContainer

def listed (blocks : List Block) : List Finding :=
  (types blocks).flatMap fun t => t.findings ++
    ((members blocks).filter fun m => t.span.contains m.span).flatMap Block.findings

/-- The number of types whose lines hold a block. -/
def typesAround (blocks : List Block) (b : Block) : Nat :=
  (blocks.filter Block.isContainer).countP fun t => t.span.contains b.span

def timesListed (blocks : List Block) (b : Block) : Nat :=
  if b.isContainer then 1 else typesAround blocks b

/-! ## The lines of findings -/

theorem filter_findingLines (b : Block) :
    (findingLines b).filter isFindingLine = b.findings.map findingLine := by
  refine List.filter_eq_self.mpr fun l hl => ?_
  obtain ⟨f, -, rfl⟩ := List.mem_map.mp hl
  rfl

theorem isFindingLine_nil : isFindingLine [] = false := rfl

theorem filter_memberLines (m : Block) :
    (memberLines m).filter isFindingLine = m.findings.map findingLine := by
  have hheading : isFindingLine (memberHeading m) = false := by
    rw [memberHeading]
    cases m.kind <;> rfl
  rw [memberLines, List.filter_append, filter_findingLines]
  simp only [List.filter_cons, List.filter_nil, isFindingLine_nil, hheading, Bool.false_eq_true,
    if_false, List.nil_append]

theorem filter_typeLines {members : List Block} {t : Block} {ls : List Text}
    (h : typeLines members t = .ok ls) :
    ls.filter isFindingLine =
      (t.findings ++
        (members.filter fun m => t.span.contains m.span).flatMap Block.findings).map findingLine := by
  have hheading : ∀ text, isFindingLine (typeHeading text t.span) = false := fun _ => rfl
  have hnone : ∀ quiet : Bool, (if quiet then ["  No violations detected in this type."]
      else [] : List Text).filter isFindingLine = [] := by
    intro quiet
    cases quiet <;> rfl
  unfold typeLines at h
  cases htext : t.text with
  | none =>
      rw [htext] at h
      cases h
  | some text =>
      rw [htext] at h
      obtain rfl := Except.ok.inj h
      simp only [List.filter_append, filter_findingLines, hnone, List.filter_flatMap,
        filter_memberLines, List.map_append, List.map_flatMap, List.filter_cons, List.filter_nil,
        isFindingLine_nil, hheading, Bool.false_eq_true, if_false, List.nil_append, List.append_nil]

theorem filter_mapM_typeLines {members ts : List Block} {parts : List (List Text)}
    (h : ts.mapM (typeLines members) = .ok parts) :
    parts.flatten.filter isFindingLine = (ts.flatMap fun t => t.findings ++
      (members.filter fun m => t.span.contains m.span).flatMap Block.findings).map findingLine := by
  induction ts generalizing parts with
  | nil =>
      obtain rfl := Except.ok.inj h
      rfl
  | cons t ts ih =>
      rw [List.mapM_cons, bind_eq_ok_iff] at h
      obtain ⟨ls, htype, h⟩ := h
      obtain ⟨more, hrest, h⟩ := bind_eq_ok_iff.mp h
      obtain rfl := Except.ok.inj h
      rw [List.flatten_cons, List.filter_append, filter_typeLines htype, ih hrest, ← List.map_append,
        List.flatMap_cons]

theorem exists_mapM_typeLines (members : List Block) {ts : List Block}
    (h : ∀ t ∈ ts, t.text.isSome = true) :
    ∃ parts, ts.mapM (typeLines members) = .ok parts := by
  induction ts with
  | nil => exact ⟨[], rfl⟩
  | cons t ts ih =>
      rw [List.forall_mem_cons] at h
      obtain ⟨text, htext⟩ := Option.isSome_iff_exists.mp h.1
      obtain ⟨parts, hparts⟩ := ih h.2
      have htype : ∃ ls, typeLines members t = .ok ls := by
        rw [typeLines, htext]
        exact ⟨_, rfl⟩
      obtain ⟨ls, htype⟩ := htype
      refine ⟨ls :: parts, ?_⟩
      rw [List.mapM_cons, htype, hparts]
      rfl

/-- A summary fails only where a type has no text. -/
theorem exists_lines {blocks : List Block} (h : ∀ b ∈ blocks, b.text.isSome = true) :
    ∃ ls, lines blocks = .ok ls := by
  have htypes : ∀ t ∈ types blocks, t.text.isSome = true := by
    intro t ht
    exact h t (List.mem_filter.mp (List.mem_mergeSort.mp ht)).1
  obtain ⟨parts, hparts⟩ := exists_mapM_typeLines (members blocks) htypes
  exact ⟨_, bind_eq_ok_iff.mpr ⟨parts, hparts, rfl⟩⟩

/-- The lines of findings in a summary, in order. -/
theorem filter_lines {blocks : List Block} {ls : List Text} (h : lines blocks = .ok ls) :
    ls.filter isFindingLine = (listed blocks).map findingLine := by
  have hfile : isFindingLine ("Analysis Summary for file: " ++ Block.fileName blocks) = false := rfl
  obtain ⟨parts, hparts, h⟩ := bind_eq_ok_iff.mp h
  obtain rfl := Except.ok.inj h
  rw [List.filter_cons_of_neg (Bool.eq_false_iff.mp hfile), filter_mapM_typeLines hparts, listed]
  rfl

/-! ## How often they come -/

theorem listed_perm (blocks : List Block) :
    (listed blocks).Perm
      (blocks.flatMap fun b => (List.replicate (timesListed blocks b) b.findings).flatten) := by
  have htypes : (types blocks).Perm (blocks.filter Block.isContainer) :=
    List.mergeSort_perm _ _
  have hcontainers : (blocks.filter Block.isContainer).flatMap Block.findings =
      (blocks.filter Block.isContainer).flatMap fun b =>
        (List.replicate (timesListed blocks b) b.findings).flatten := by
    refine List.flatMap_congr fun b hb => ?_
    simp [timesListed, (List.mem_filter.mp hb).2]
  have hmembers : ((members blocks).flatMap fun b =>
        (List.replicate (typesAround blocks b) b.findings).flatten) =
      (members blocks).flatMap fun b =>
        (List.replicate (timesListed blocks b) b.findings).flatten := by
    refine List.flatMap_congr fun b hb => ?_
    have hmember : b.isContainer = false := by simpa using (List.mem_filter.mp hb).2
    simp [timesListed, hmember]
  refine (htypes.flatMap fun _ _ => .refl _).trans ?_
  -- Each type lists itself before its members; here all types come first.
  refine (List.flatMap_append_perm _ _ _).symm.trans ?_
  refine ((flatMap_selected_perm (fun t m : Block => t.span.contains m.span) Block.findings _
    _).append_left _).trans ?_
  rw [hcontainers]
  show (_ ++ (members blocks).flatMap fun b =>
    (List.replicate (typesAround blocks b) b.findings).flatten).Perm _
  rw [hmembers, ← List.flatMap_append]
  exact (List.filter_append_perm _ blocks).flatMap fun _ _ => .refl _

end Summary

/-! ## The blocks of a file -/

section Grouping

open Decl (Grouped)

variable {t : DeclTree} {findings : List Finding} {file : Text}
  {context flagged : Data.Pairs Span Block}

theorem count_listed (h : Grouped t findings file context flagged) {b : Block}
    (hb : b ∈ (context ++ flagged).values) {f : Finding} (hf : f ∈ b.findings) :
    (Summary.listed (context ++ flagged).values).count f =
      Summary.timesListed (context ++ flagged).values b * b.findings.count f := by
  rw [(Summary.listed_perm _).count_eq, count_flatMap_of_only (x := b),
    List.count_eq_one_of_mem h.nodup_values hb]
  · simp [List.count_flatten]
  · intro b' hb' hf'
    refine h.eq_of_mem_findings hb hb' hf ?_
    obtain ⟨fs, hfs, hmem⟩ := List.mem_flatten.mp hf'
    exact List.eq_of_mem_replicate hfs ▸ hmem

theorem count_carried (h : Grouped t findings file context flagged) {b : Block}
    (hb : b ∈ (context ++ flagged).values) {f : Finding} (hf : f ∈ b.findings) :
    ((context ++ flagged).values.flatMap Block.findings).count f = b.findings.count f := by
  rw [count_flatMap_of_only fun b' hb' hf' => h.eq_of_mem_findings hb hb' hf hf',
    List.count_eq_one_of_mem h.nodup_values hb, Nat.one_mul]

end Grouping

/-- A summary lists the findings of a type once, and those of a member once for every type around it.
So it lists each finding as often as the blocks carry it exactly where every member is in one type. -/
theorem summary_lists_by_types_around {t : DeclTree}
    (ht : ∀ d ∈ t.walk, 1 ≤ d.start ∧ d.start ≤ d.stop) (findings : List Finding) (file : Text) :
    ∃ blocks lines, (Decl.group t findings file).outcome = .ok blocks ∧
      Summary.lines blocks.values = .ok lines ∧
      (blocks.values ≠ [] → summary blocks.values = .ok (Text.ofFileLines lines ++ "\n")) ∧
      lines.filter Summary.isFindingLine =
        (Summary.listed blocks.values).map (fun f => ("    - " : Text) ++ f.rule ++ ": " ++ f.message) ∧
      (Summary.listed blocks.values).Perm (blocks.values.flatMap fun b =>
        (List.replicate (Summary.timesListed blocks.values b) b.findings).flatten) ∧
      ((Summary.listed blocks.values).Perm (blocks.values.flatMap Block.findings) ↔
        ∀ b ∈ blocks.values, b.isContainer = false → Summary.typesAround blocks.values b = 1) := by
  obtain ⟨context, flagged, hgroup, h⟩ := Decl.exists_grouped ht findings file
  obtain ⟨lines, hlines⟩ := Summary.exists_lines fun b hb => h.isSome_text hb
  refine ⟨_, lines, hgroup, hlines, ?_, Summary.filter_lines hlines, Summary.listed_perm _, ?_, ?_⟩
  · intro hne
    rw [summary, if_neg (by simpa using hne), hlines]
    rfl
  · intro hperm b hb hmember
    obtain ⟨f, hf⟩ := List.exists_mem_of_ne_nil _ (h.findings_ne_nil hb hmember)
    have hcount := hperm.count_eq f
    rw [count_listed h hb hf, count_carried h hb hf, Summary.timesListed, hmember,
      if_neg Bool.false_ne_true] at hcount
    exact Nat.eq_of_mul_eq_mul_right (List.count_pos_iff.mpr hf) (hcount.trans (Nat.one_mul _).symm)
  · intro honce
    refine (Summary.listed_perm _).trans (.of_eq (List.flatMap_congr fun b hb => ?_))
    have htimes : Summary.timesListed (context ++ flagged).values b = 1 := by
      rw [Summary.timesListed]
      split
      · rfl
      · next hmember => exact honce b hb (Bool.eq_false_iff.mpr hmember)
    simp [htimes]

/-- The method of the shop is in one class only, so every finding is listed once. -/
theorem summary_lists_by_types_around_shopTree :
    (∀ d ∈ Decl.shopTree.walk, 1 ≤ d.start ∧ d.start ≤ d.stop) ∧
      ∃ blocks lines, (Decl.group Decl.shopTree Decl.shopFindings "Shop").outcome = .ok blocks ∧
        blocks.values ≠ [] ∧ summary blocks.values = .ok (Text.ofFileLines lines ++ "\n") ∧
        lines.filter Summary.isFindingLine =
          (Summary.listed blocks.values).map (fun f => ("    - " : Text) ++ f.rule ++ ": " ++ f.message) ∧
        (Summary.listed blocks.values).Perm (blocks.values.flatMap Block.findings) := by
  have hspans : ∀ d ∈ Decl.shopTree.walk, 1 ≤ d.start ∧ d.start ≤ d.stop := by decide
  obtain ⟨blocks, lines, hgroup, -, hsummary, hlines, -, honce⟩ :=
    summary_lists_by_types_around hspans Decl.shopFindings "Shop"
  have hblocks : blocks =
      (Decl.group Decl.shopTree Decl.shopFindings "Shop").outcome.toOption.getD [] := by
    rw [hgroup]
    rfl
  have hne : blocks.values ≠ [] := by
    rw [hblocks]
    decide
  refine ⟨hspans, blocks, lines, hgroup, hne, hsummary hne, hlines, honce.mpr ?_⟩
  rw [hblocks]
  decide

/-- A class in a class, and a method with a finding in both. -/
def nestedTree : DeclTree :=
  .node ⟨.unknown, 1, 9, "", none, none⟩
    [.node ⟨.type, 1, 9, "", some "Outer".toList, none⟩
      [.node ⟨.type, 2, 8, "", some "Inner".toList, none⟩
        [.node ⟨.method, 3, 5, "sell()", some "sell".toList, none⟩ []]]]

def nestedFindings : List Finding := [⟨5, "Doc", "missing", Nat.succ_pos _⟩]

/-- The one finding gets two lines. -/
theorem summary_repeats_nested_finding :
    ∃ blocks lines, (Decl.group nestedTree nestedFindings "Shop.java").outcome = .ok blocks ∧
      blocks.values ≠ [] ∧ Summary.lines blocks.values = .ok lines ∧
      ¬(lines.filter Summary.isFindingLine).Perm ((blocks.values.flatMap Block.findings).map
        fun f => ("    - " : Text) ++ f.rule ++ ": " ++ f.message) := by
  have htexts : ∀ b ∈ ((Decl.group nestedTree nestedFindings "Shop.java").outcome.toOption.getD
      []).values, b.text.isSome = true := by decide
  obtain ⟨lines, hlines⟩ := Summary.exists_lines htexts
  refine ⟨_, lines, rfl, by decide, hlines, fun hperm => ?_⟩
  have hlength := hperm.length_eq
  rw [Summary.filter_lines hlines, List.length_map, (Summary.listed_perm _).length_eq] at hlength
  exact absurd hlength (by decide)

end Request
end Refit

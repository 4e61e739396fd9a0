/-
The findings that a request lists.

Filing only reorders, so what a request lists is, up to order, what its blocks
carry (`listed_make_perm`).  `issuesIn` reads the same list off the document.
-/
import Refit.Proofs.Request.Entries

namespace Refit

/-- What only one item holds comes as often as the item and as often as the item holds it. -/
theorem count_flatMap_of_only {α γ : Type} [DecidableEq α] [DecidableEq γ] {g : α → List γ}
    {xs : List α} {x : α} {c : γ} (honly : ∀ y ∈ xs, c ∈ g y → y = x) :
    (xs.flatMap g).count c = xs.count x * (g x).count c := by
  induction xs with
  | nil => simp
  | cons y xs ih =>
      rw [List.forall_mem_cons] at honly
      rw [List.flatMap_cons, List.count_append, ih honly.2, List.count_cons]
      by_cases hy : y = x
      · subst hy
        simp [Nat.add_mul, Nat.add_comm]
      · have hnone : (g y).count c = 0 := List.count_eq_zero.mpr fun hc => hy (honly.1 hc)
        simp [hy, hnone]

namespace Request

open Data (Value Placed)
open Objective (Table)

/-! ## What is listed -/

def Issues.listed (issues : Option Issues) : List Finding := (issues.map Issues.findings).getD []

/-- The findings of an entry: those of its type, then those of its members. -/
def ClassEntry.listed (c : ClassEntry) : List Finding :=
  Issues.listed c.issues ++ c.violations.flatMap fun v => Issues.listed v.issues

namespace Payload

def listed (p : Payload) : List Finding := p.classes.flatMap ClassEntry.listed

/-- The items of a list under a text key, none where there is no such list. -/
def itemsAt (key : Text) (v : Value) : List Value :=
  match v.field? key with
  | some (.list items) => items
  | _ => []

/-- The issues that a document lists, entry by entry. -/
def issuesIn (document : Value) : List Value :=
  (itemsAt "classes" document).flatMap fun c =>
    itemsAt "issues" c ++ (itemsAt "violations" c).flatMap (itemsAt "issues")

theorem itemsAt_violationValue (v : Violation) :
    itemsAt "issues" (violationValue v) = (Issues.listed v.issues).map findingValue := by
  obtain ⟨kind, code, issues⟩ := v
  cases issues <;> rfl

theorem itemsAt_classValue (c : ClassEntry) :
    itemsAt "issues" (classValue c) = (Issues.listed c.issues).map findingValue ∧
      itemsAt "violations" (classValue c) = c.violations.map violationValue := by
  obtain ⟨signature, violations, issues⟩ := c
  cases issues <;> exact ⟨rfl, rfl⟩

/-- The document of a request lists the rule and the message of each of its findings. -/
theorem issuesIn_value (p : Payload) : issuesIn p.value = p.listed.map findingValue := by
  have hclasses : itemsAt "classes" p.value = p.classes.map classValue := rfl
  rw [issuesIn, hclasses, listed, List.flatMap_map, List.map_flatMap]
  refine List.flatMap_congr fun c _ => ?_
  rw [(itemsAt_classValue c).1, (itemsAt_classValue c).2, ClassEntry.listed, List.map_append,
    List.flatMap_map, List.map_flatMap]
  simp only [itemsAt_violationValue]

/-! ## What the blocks carry -/

section Make

variable (table : Table) (blocks : List Block)

theorem listed_violations (bs : List Block) :
    ((bs.map (violation table true)).flatMap fun v => Issues.listed v.issues) =
      bs.flatMap Block.findings := by
  rw [List.flatMap_map]
  rfl

theorem listed_entryWith (c : Block) (members : List Block) :
    (entryWith table true c members).listed = c.findings ++ members.flatMap Block.findings := by
  rw [ClassEntry.listed, entryWith, listed_violations]
  refine congrArg (· ++ _) ?_
  cases hf : c.findings with
  | nil => simp [Issues.listed, Block.hasFindings, hf]
  | cons f fs => simp [Issues.listed, Block.hasFindings, hf, issuesOf]

theorem listed_make :
    (make table true blocks).listed =
      ((blocks.filter Block.isContainer).zipIdx.flatMap fun e => e.1.findings ++
        (filed (ownerIndex (blocks.filter Block.isContainer)) blocks (some e.2)).flatMap
          Block.findings) ++
      (filed (ownerIndex (blocks.filter Block.isContainer)) blocks none).flatMap Block.findings := by
  rw [listed, classes_make, List.flatMap_append, List.flatMap_map]
  simp only [listed_entryWith]
  refine congrArg (_ ++ ·) ?_
  split
  · next h => rw [h]; rfl
  · rw [List.flatMap_singleton, ClassEntry.listed, listed_violations]
    rfl

/-- A request lists the findings of its blocks, each as often as they carry it. -/
theorem listed_make_perm :
    (make table true blocks).listed.Perm (blocks.flatMap Block.findings) := by
  have hcontainers : (blocks.filter Block.isContainer).zipIdx.flatMap (fun e => e.1.findings) =
      (blocks.filter Block.isContainer).flatMap Block.findings := by
    rw [← List.flatMap_map, List.zipIdx_map_fst]
  have hmembers := (filed_ownerIndex_perm blocks).flatMap fun m _ => List.Perm.refl m.findings
  rw [List.flatMap_append, List.flatMap_assoc] at hmembers
  rw [listed_make]
  -- Each entry lists its type before its members; here all types come first.
  refine ((List.flatMap_append_perm _ _ _).symm.append_right _).trans ?_
  rw [List.append_assoc, hcontainers]
  refine (hmembers.append_left _).trans ?_
  rw [← List.flatMap_append]
  exact (List.filter_append_perm _ blocks).flatMap fun _ _ => .refl _

end Make

end Payload
end Request
end Refit

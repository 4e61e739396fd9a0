/-
A plan loses no block and sends none twice, and its batches fit.

A block besides containers is sent once or skipped once, by its size.  A
container that carries findings is sent with every batch that draws on its
group, and at least once; one without findings is context and never counts as
skipped.
-/
import Refit.Proofs.Plan.Groups

namespace Refit
namespace Plan

variable {budget : Nat} {items : List Item}

/-! ## What is too large -/

theorem mem_tooLarge {i : Item} :
    i ∈ tooLarge budget items ↔
      i ∈ items ∧ budget < i.size ∧ (i.isContainer = true → i.hasFindings = true) := by
  rw [tooLarge, List.mem_append, List.mem_filter, List.mem_filter]
  simp only [Bool.and_eq_true, Bool.not_eq_true', decide_eq_true_eq]
  constructor
  · rintro (⟨hi, ⟨_, hf⟩, hsize⟩ | ⟨hi, hc, hsize⟩)
    · exact ⟨hi, hsize, fun _ => hf⟩
    · refine ⟨hi, hsize, fun h => ?_⟩
      rw [hc] at h
      exact absurd h Bool.false_ne_true
  · rintro ⟨hi, hsize, hf⟩
    cases hc : i.isContainer with
    | true => exact .inl ⟨hi, ⟨rfl, hf hc⟩, hsize⟩
    | false => exact .inr ⟨hi, rfl, hsize⟩

theorem nodup_tooLarge (hnd : items.Nodup) : (tooLarge budget items).Nodup := by
  rw [tooLarge]
  refine List.Nodup.append (hnd.filter _) (hnd.filter _) ?_
  intro i hi hi'
  have hc := (List.mem_filter.mp hi).2
  have hc' := (List.mem_filter.mp hi').2
  simp only [Bool.and_eq_true, Bool.not_eq_true'] at hc hc'
  rw [hc'.1] at hc
  exact Bool.false_ne_true hc.1.1

/-! ## What is sent -/

section Sent

variable {ps : List Pass}

theorem count_sent_member (h : Filled budget (groups budget items) ps)
    (hnd : (items.map Data.Placed.place).Nodup) {i : Item} (hi : i.isContainer = false) :
    (ps.flatMap Pass.blocks).count i = if i ∈ members budget items then 1 else 0 := by
  rw [h.count_member (fun g hg => fits_of_mem_groups hg) hi, (nodup_queues hnd).count]
  simp only [mem_queues]

/-- Only blocks of the input are sent, and only those that fit alone. -/
theorem mem_and_fits_of_sent (h : Filled budget (groups budget items) ps)
    (hnd : (items.map Data.Placed.place).Nodup) {i : Item} (hi : i ∈ ps.flatMap Pass.blocks) :
    i ∈ items ∧ i.size ≤ budget := by
  cases hc : i.isContainer with
  | true =>
      obtain ⟨⟨g, hg, hlead⟩, hsize⟩ := h.leader_of_mem (fun g hg => fits_of_mem_groups hg) hc hi
      exact ⟨(mem_containers.mp (container_of_mem_groups hg hlead)).1, hsize⟩
  | false =>
      have hcount := count_sent_member h hnd hc
      have hpos := List.count_pos_iff.mpr hi
      by_cases hm : i ∈ members budget items
      · exact ⟨(mem_members.mp hm).1, (mem_members.mp hm).2.2⟩
      · rw [if_neg hm] at hcount
        omega

theorem sent_of_container (h : Filled budget (groups budget items) ps) {c : Item}
    (hc : c ∈ items) (hcont : c.isContainer = true) (hf : c.hasFindings = true)
    (hsize : c.size ≤ budget) : c ∈ ps.flatMap Pass.blocks := by
  refine h.mem_of_owed (mem_groups_of_container (mem_containers.mpr ⟨hc, hcont⟩)) ?_ rfl
  rw [containerGroup, Bool.and_eq_true, decide_eq_true_eq]
  exact ⟨hf, hsize⟩

end Sent

/-! ## The plan of a positive budget -/

/-- A positive budget gives a plan.  Its batches come from a derivation over the
groups of the blocks, and it skips exactly what is too large. -/
theorem make_eq_ok (blocks : List Block) {budget : Int} (hb : 0 < budget) :
    ∃ p, make blocks budget = .ok p ∧
      Filled budget.toNat (groups budget.toNat (Data.Placed.list blocks)) p.run.passes ∧
      p.skipped = tooLarge budget.toNat (Data.Placed.list blocks) := by
  have hfilled := filled_fillAll
    (@fits_of_mem_groups budget.toNat (Data.Placed.list blocks)) (Nat.le_refl _)
  refine ⟨_, if_neg (by omega), hfilled.1, ?_⟩
  rw [skipped]
  simp only [hfilled.2, Option.getD_none, List.append_nil]

theorem flatten_batches (p : Plan) : p.batches.flatten = p.run.passes.flatMap Pass.blocks := rfl

/-- Every block is accounted for.  Blocks are told apart by place, so equal
blocks at different places are counted apart. -/
theorem make_accounts_for_every_block (blocks : List Block) {budget : Int} (hb : 0 < budget) :
    ∃ p, make blocks budget = .ok p ∧
      (∀ i : Item, i ∈ p.allBlocks → i ∈ Data.Placed.list blocks) ∧
      ∀ i : Item, i ∈ Data.Placed.list blocks →
        (i.isContainer = false →
          ((i.size : Int) ≤ budget → p.batches.flatten.count i = 1 ∧ i ∉ p.skipped) ∧
          (budget < i.size → p.skipped.count i = 1 ∧ i ∉ p.batches.flatten)) ∧
        (i.isContainer = true → i.hasFindings = true →
          ((i.size : Int) ≤ budget → i ∈ p.batches.flatten ∧ i ∉ p.skipped) ∧
          (budget < i.size → p.skipped.count i = 1 ∧ i ∉ p.batches.flatten)) ∧
        (i.isContainer = true → i.hasFindings = false → i ∉ p.skipped) := by
  obtain ⟨p, hp, hfilled, hskipped⟩ := make_eq_ok blocks hb
  have hnd := Data.Placed.nodup_place_list blocks
  have hsent : ∀ i : Item, i ∈ p.batches.flatten →
      i ∈ Data.Placed.list blocks ∧ i.size ≤ budget.toNat := by
    intro i hi
    exact mem_and_fits_of_sent hfilled hnd hi
  have hkept : ∀ i : Item, (i.size : Int) ≤ budget → i ∉ p.skipped := by
    intro i hsize hi
    rw [hskipped, mem_tooLarge] at hi
    omega
  have hlarge : ∀ i : Item, i ∈ Data.Placed.list blocks → budget < i.size →
      (i.isContainer = true → i.hasFindings = true) →
        p.skipped.count i = 1 ∧ i ∉ p.batches.flatten := by
    intro i hi hsize hf
    constructor
    · rw [hskipped, (nodup_tooLarge (List.Nodup.of_map _ hnd)).count, if_pos]
      exact mem_tooLarge.mpr ⟨hi, by omega, hf⟩
    · intro hm
      have := (hsent i hm).2
      omega
  refine ⟨p, hp, ?_, fun i hi => ⟨fun hc => ⟨fun hsize => ⟨?_, hkept i hsize⟩, ?_⟩,
    fun hc hf => ⟨fun hsize => ⟨?_, hkept i hsize⟩, ?_⟩, fun hc hf hm => ?_⟩⟩
  · intro i hi
    rcases List.mem_append.mp hi with hi | hi
    · exact (hsent i hi).1
    · rw [hskipped] at hi
      exact (mem_tooLarge.mp hi).1
  · rw [flatten_batches, count_sent_member hfilled hnd hc, if_pos]
    exact mem_members.mpr ⟨hi, hc, by omega⟩
  · intro hsize
    refine hlarge i hi hsize fun h => ?_
    rw [hc] at h
    exact absurd h Bool.false_ne_true
  · exact sent_of_container hfilled hi hc hf (by omega)
  · exact fun hsize => hlarge i hi hsize fun _ => hf
  · rw [hskipped, mem_tooLarge] at hm
    have hf' := hm.2.2 hc
    rw [hf] at hf'
    exact Bool.false_ne_true hf'

/-- A class with a finding of its own, a method that fits beside it under a
budget of 20, and one that does not fit at all. -/
def shopBlocks : List Block :=
  [⟨"shop", .type, ⟨1, 9, by decide, by decide⟩, some "class Shop".toList,
      [⟨1, "Doc", "missing", by decide⟩], none⟩,
    ⟨"shop", .method, ⟨2, 4, by decide, by decide⟩, some "sell()".toList, [], none⟩,
    ⟨"shop", .method, ⟨5, 8, by decide, by decide⟩, some (List.replicate 21 'x'), [], none⟩]

theorem make_accounts_for_shopBlocks :
    (0 : Int) < 20 ∧ ∃ p, make shopBlocks 20 = .ok p ∧
      (∀ i ∈ (Data.Placed.list shopBlocks)[0]?, i ∈ p.batches.flatten ∧ i ∉ p.skipped) ∧
      (∀ i ∈ (Data.Placed.list shopBlocks)[1]?,
        p.batches.flatten.count i = 1 ∧ i ∉ p.skipped) ∧
      ∀ i ∈ (Data.Placed.list shopBlocks)[2]?,
        p.skipped.count i = 1 ∧ i ∉ p.batches.flatten := by
  have hb : (0 : Int) < 20 := by decide
  obtain ⟨p, hp, _, h⟩ := make_accounts_for_every_block shopBlocks hb
  refine ⟨hb, p, hp, ?_, ?_, ?_⟩
  · intro i hi
    have hmem := List.mem_of_getElem? hi
    obtain rfl := Option.some.inj hi
    exact ((h _ hmem).2.1 rfl rfl).1 (by decide)
  · intro i hi
    have hmem := List.mem_of_getElem? hi
    obtain rfl := Option.some.inj hi
    exact ((h _ hmem).1 rfl).1 (by decide)
  · intro i hi
    have hmem := List.mem_of_getElem? hi
    obtain rfl := Option.some.inj hi
    exact ((h _ hmem).1 rfl).2 (by decide)

/-- Every batch holds something and stays within the budget, the containers that
it repeats included. -/
theorem make_batches_within (blocks : List Block) {budget : Int} (hb : 0 < budget) :
    ∃ p, make blocks budget = .ok p ∧
      ∀ batch ∈ p.batches, batch ≠ [] ∧ (totalSize batch : Int) ≤ budget := by
  obtain ⟨p, hp, hfilled, _⟩ := make_eq_ok blocks hb
  refine ⟨p, hp, fun batch hbatch => ?_⟩
  obtain ⟨pass, hpass, rfl⟩ := List.mem_map.mp hbatch
  obtain ⟨hne, hsize⟩ := hfilled.batch_within (fun g hg => fits_of_mem_groups hg) pass hpass
  exact ⟨hne, by omega⟩

/-- The type and the method that fits are sent together, in sixteen characters. -/
theorem make_batches_within_shopBlocks :
    (0 : Int) < 20 ∧ ∃ p, make shopBlocks 20 = .ok p ∧
      p.batches = [(Data.Placed.list shopBlocks).take 2] ∧
      totalSize ((Data.Placed.list shopBlocks).take 2) = 16 ∧
      ∀ batch ∈ p.batches, batch ≠ [] ∧ (totalSize batch : Int) ≤ 20 := by
  have hb : (0 : Int) < 20 := by decide
  obtain ⟨p, hp, hwithin⟩ := make_batches_within shopBlocks hb
  have hmap : (make shopBlocks 20).map batches = .ok [(Data.Placed.list shopBlocks).take 2] := rfl
  rw [hp] at hmap
  exact ⟨hb, p, hp, Except.ok.inj hmap, rfl, hwithin⟩

end Plan
end Refit

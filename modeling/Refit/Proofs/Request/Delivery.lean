/-
No finding is lost between the report and the requests.

Every finding belongs to one block by its span, every block is skipped or sent by
its size, and a request lists what its blocks carry.  A finding that is reported
several times is counted as often: the batch that sends its block lists it just
as many times.
-/
import Refit.Proofs.Decl.Partition
import Refit.Proofs.Plan.Conservation
import Refit.Proofs.Request.Encoding
import Refit.Proofs.Request.Listing

namespace Refit
namespace Request

open Data (Value Placed)
open Data
open Objective (Table)
open Plan (Item)

/-- A text stands for one document, and the issues in it show the rules and messages of some
findings, in order. -/
def ListsFindings (text : Text) (findings : List Finding) : Prop :=
  ∃ v, (∀ w, Json.Document text w ↔ w = v) ∧
    List.Forall₂ ShowsFinding (Payload.issuesIn v) findings

/-- The findings that the request of a batch lists. -/
def listedIn (table : Table) (batch : List Item) : List Finding :=
  (Payload.make table true (batch.map Placed.item)).listed

theorem listedIn_perm (table : Table) (batch : List Item) :
    (listedIn table batch).Perm (batch.flatMap fun i => i.item.findings) := by
  have hperm := Payload.listed_make_perm table (batch.map Placed.item)
  rwa [List.flatMap_map] at hperm

theorem mem_listedIn {table : Table} {batch : List Item} {f : Finding} :
    f ∈ listedIn table batch ↔ ∃ i ∈ batch, f ∈ i.item.findings := by
  rw [(listedIn_perm table batch).mem_iff, List.mem_flatMap]

theorem listsFindings_listedIn (table : Table) {batch : List Item} (hne : batch ≠ []) :
    ListsFindings (payloadText table true (batch.map Placed.item)) (listedIn table batch) := by
  have hblocks : batch.map Placed.item ≠ [] := by simpa using hne
  refine ⟨_, fun w => document_payloadText_iff table true hblocks, ?_⟩
  exact (forall₂_iff_eq_map Payload.showsFinding_iff).mpr (Payload.issuesIn_value _)

/-! ## Sent once -/

section Once

variable {α : Type} [DecidableEq α]

theorem exists_split_of_count_flatten {xss : List (List α)} {x : α}
    (h : xss.flatten.count x = 1) :
    ∃ before xs after, xss = before ++ xs :: after ∧ xs.count x = 1 ∧
      ∀ ys ∈ before ++ after, x ∉ ys := by
  induction xss with
  | nil => simp at h
  | cons xs xss ih =>
      rw [List.flatten_cons, List.count_append] at h
      by_cases hx : x ∈ xs
      · have hpos := List.count_pos_iff.mpr hx
        have hrest : x ∉ xss.flatten := List.count_eq_zero.mp (by omega)
        refine ⟨[], xs, xss, rfl, by omega, fun ys hys hmem => ?_⟩
        exact hrest (List.mem_flatten.mpr ⟨ys, hys, hmem⟩)
      · rw [List.count_eq_zero.mpr hx, Nat.zero_add] at h
        obtain ⟨before, xs', after, rfl, hcount, hother⟩ := ih h
        refine ⟨xs :: before, xs', after, rfl, hcount, ?_⟩
        rw [List.cons_append, List.forall_mem_cons]
        exact ⟨hx, hother⟩

end Once

/-- Where only one item carries a finding, the finding is listed as often as the
item is sent and carries it. -/
theorem count_listedIn (table : Table) {batch : List Item} {i : Item} {f : Finding}
    (h : ∀ j ∈ batch, f ∈ j.item.findings → j = i) :
    (listedIn table batch).count f = batch.count i * i.item.findings.count f := by
  rw [(listedIn_perm table batch).count_eq]
  exact count_flatMap_of_only h

/-! ## Findings and their blocks -/

section Blocks

open Decl

variable {t : DeclTree} {findings : List Finding} {file : Text}
  {context flagged : Data.Pairs Span Block}

theorem exists_entry_of_item {m : Data.Pairs Span Block} {i : Item}
    (hi : i ∈ Placed.list m.values) : ∃ s, (s, i.item) ∈ m := by
  have hmem : i.item ∈ m.values := by
    rw [← Placed.map_item_list m.values]
    exact List.mem_map_of_mem hi
  obtain ⟨⟨s, b⟩, he, hb⟩ := List.mem_map.mp hmem
  exact ⟨s, hb ▸ he⟩

theorem mem_findings_item_iff (h : Grouped t findings file context flagged) {i : Item}
    (hi : i ∈ Placed.list (context ++ flagged).values) {f : Finding} (hf : f ∈ findings) :
    f ∈ i.item.findings ↔ t.spanAt f = some i.item.span := by
  obtain ⟨s, hs⟩ := exists_entry_of_item hi
  rw [h.mem_findings_iff hs hf, h.span_eq hs]

theorem item_eq_of_span_eq (h : Grouped t findings file context flagged) {i j : Item}
    (hi : i ∈ Placed.list (context ++ flagged).values)
    (hj : j ∈ Placed.list (context ++ flagged).values) (hspan : i.item.span = j.item.span) :
    i = j := by
  have hspans : (Placed.list (context ++ flagged).values).map (fun i => i.item.span) =
      (context ++ flagged).keys := by
    have hitems := congrArg (List.map Block.span) (Placed.map_item_list (context ++ flagged).values)
    rw [List.map_map, h.map_span_values] at hitems
    exact hitems
  have hnd := h.nodup_keys
  rw [← hspans] at hnd
  exact List.inj_on_of_nodup_map hnd hi hj hspan

/-- A located finding has a block, which carries it as often as it was reported. -/
theorem exists_item_of_located (ht : t.Spanned) (h : Grouped t findings file context flagged)
    {f : Finding} (hf : f ∈ findings) {p : Placed Decl} (hp : t.locate f.line = some p) :
    ∃ i ∈ Placed.list (context ++ flagged).values, p.item.span? = some i.item.span ∧
      f ∈ i.item.findings ∧ i.item.findings.count f = findings.count f := by
  obtain ⟨s, -, hs⟩ := ht.span_eq_ok (DeclTree.mem_walk_of_locate hp)
  have hspan : t.spanAt f = some s := by
    rw [DeclTree.spanAt, hp]
    exact hs
  have hkey : s ∈ flagged.keys := by
    rw [h.flagged_keys, List.mem_eraseDups]
    exact List.mem_filterMap.mpr ⟨f, hf, hspan⟩
  obtain ⟨⟨_, b⟩, hb, rfl⟩ := List.mem_map.mp hkey
  have hvalue : b ∈ (context ++ flagged).values :=
    List.mem_map.mpr ⟨_, List.mem_append_right _ hb, rfl⟩
  rw [← Placed.map_item_list (context ++ flagged).values] at hvalue
  obtain ⟨i, hi, rfl⟩ := List.mem_map.mp hvalue
  have hsame := h.span_eq (List.mem_append_right _ hb)
  obtain ⟨_, _, _, _, hblock⟩ := h.flagged_entry _ _ hb
  refine ⟨i, hi, by rw [hsame, hs], ?_, ?_⟩
  · rw [mem_findings_item_iff h hi hf, hsame, hspan]
  · rw [hblock]
    exact List.count_filter (by simpa using hspan)

end Blocks

/-! ## Findings and the plan -/

section Plan

variable {blocks : List Block} {budget : Int} {plan : Plan}

/-- What is known of the plan of some blocks under a positive budget. -/
structure Planned (blocks : List Block) (budget : Int) (plan : Plan) : Prop where
  budget_pos : 0 < budget
  filled : Plan.Filled budget.toNat (Plan.groups budget.toNat (Placed.list blocks)) plan.run.passes
  skipped : plan.skipped = Plan.tooLarge budget.toNat (Placed.list blocks)

theorem Planned.mem_of_sent (h : Planned blocks budget plan) {i : Item}
    (hi : i ∈ plan.batches.flatten) : i ∈ Placed.list blocks :=
  (Plan.mem_and_fits_of_sent h.filled (Placed.nodup_place_list blocks) hi).1

theorem Planned.mem_allBlocks (h : Planned blocks budget plan) {i : Item}
    (hi : i ∈ plan.allBlocks) : i ∈ Placed.list blocks := by
  rcases List.mem_append.mp hi with hi | hi
  · exact h.mem_of_sent hi
  · rw [h.skipped, Plan.mem_tooLarge] at hi
    exact hi.1

/-- A block with findings is skipped or sent, and sent once where it is no
container. -/
theorem Planned.skipped_or_sent (h : Planned blocks budget plan) {i : Item}
    (hi : i ∈ Placed.list blocks) (hf : i.hasFindings = true) :
    (i ∈ plan.skipped ∧ budget < i.size) ∨
      i ∈ plan.batches.flatten ∧ (i.isContainer = false → plan.batches.flatten.count i = 1) := by
  have hpos := h.budget_pos
  by_cases hsize : budget < i.size
  · left
    rw [h.skipped, Plan.mem_tooLarge]
    exact ⟨⟨hi, by omega, fun _ => hf⟩, hsize⟩
  · right
    cases hc : i.isContainer with
    | true =>
        exact ⟨Plan.sent_of_container h.filled hi hc hf (by omega),
          fun hfalse => absurd hfalse.symm Bool.false_ne_true⟩
    | false =>
        have hcount : plan.batches.flatten.count i = 1 := by
          rw [Plan.flatten_batches,
            Plan.count_sent_member h.filled (Placed.nodup_place_list blocks) hc, if_pos]
          exact Plan.mem_members.mpr ⟨hi, hc, by omega⟩
        exact ⟨List.count_pos_iff.mp (by omega), fun _ => hcount⟩

theorem exists_listedIn (table : Table) {i : Item} {f : Finding}
    (hi : i ∈ plan.batches.flatten) (hf : f ∈ i.item.findings) :
    ∃ batch ∈ plan.batches, f ∈ listedIn table batch := by
  obtain ⟨batch, hbatch, hmem⟩ := List.mem_flatten.mp hi
  exact ⟨batch, hbatch, mem_listedIn.mpr ⟨i, hmem, hf⟩⟩

/-- An item that is sent once has its findings listed in one request. -/
theorem exists_split_listedIn (table : Table) {i : Item} {f : Finding}
    (honly : ∀ j ∈ plan.batches.flatten, f ∈ j.item.findings → j = i)
    (hcount : plan.batches.flatten.count i = 1) :
    ∃ before batch after, plan.batches = before ++ batch :: after ∧
      (listedIn table batch).count f = i.item.findings.count f ∧
      ∀ other ∈ before ++ after, f ∉ listedIn table other := by
  obtain ⟨before, batch, after, hsplit, honce, hother⟩ := exists_split_of_count_flatten hcount
  have hmem : ∀ other ∈ before ++ after, other ∈ plan.batches := by
    intro other hin
    rw [hsplit]
    exact List.mem_append.mpr ((List.mem_append.mp hin).imp_right (List.mem_cons_of_mem _))
  have hbatch : batch ∈ plan.batches := by
    rw [hsplit]
    exact List.mem_append_right _ List.mem_cons_self
  refine ⟨before, batch, after, hsplit, ?_, ?_⟩
  · rw [count_listedIn table fun j hj => honly j (List.mem_flatten.mpr ⟨batch, hbatch, hj⟩), honce,
      Nat.one_mul]
  · intro other hin hlisted
    obtain ⟨j, hj, hf⟩ := mem_listedIn.mp hlisted
    have heq := honly j (List.mem_flatten.mpr ⟨other, hmem other hin, hj⟩) hf
    exact hother other hin (heq ▸ hj)

end Plan

/-- Every finding in a declaration is skipped with its block or listed in a
request.  The findings of a member are listed in one request only, each as often
as it was reported. -/
theorem requests_list_every_finding {t : DeclTree}
    (ht : ∀ d ∈ t.walk, 1 ≤ d.start ∧ d.start ≤ d.stop) (findings : List Finding) (file : Text)
    (table : Table) {budget : Int} (hb : 0 < budget) :
    ∃ blocks plan, ∃ listed : List Item → List Finding,
      (Decl.group t findings file).outcome = .ok blocks ∧
      Plan.make blocks.values budget = .ok plan ∧
      (∀ batch ∈ plan.batches,
        ListsFindings (payloadText table true (batch.map Placed.item)) (listed batch) ∧
          (listed batch).Perm (batch.flatMap fun i => i.item.findings)) ∧
      (∀ f ∈ findings, ∀ p, t.locate f.line = some p →
        ∃ i : Item, i ∈ Placed.list blocks.values ∧ p.item.span? = some i.item.span ∧
          f ∈ i.item.findings ∧
          (∀ j ∈ Placed.list blocks.values, f ∈ j.item.findings → j = i) ∧
          ((i ∈ plan.skipped ∧ budget < i.size) ∨
            (∃ batch ∈ plan.batches, f ∈ listed batch) ∧
            (i.item.kind ≠ .type → ∃ before batch after,
              plan.batches = before ++ batch :: after ∧
              (listed batch).count f = findings.count f ∧
              ∀ other ∈ before ++ after, f ∉ listed other))) ∧
      ∀ f ∈ findings, t.locate f.line = none → ∀ i ∈ plan.allBlocks, f ∉ i.item.findings := by
  obtain ⟨context, flagged, hgroup, hgrouped⟩ := Decl.exists_grouped ht findings file
  obtain ⟨plan, hplan, hfilled, hskipped⟩ := Plan.make_eq_ok (context ++ flagged).values hb
  have hplanned : Planned (context ++ flagged).values budget plan := ⟨hb, hfilled, hskipped⟩
  refine ⟨_, plan, listedIn table, hgroup, hplan, ?_, ?_, ?_⟩
  · intro batch hbatch
    obtain ⟨pass, hpass, rfl⟩ := List.mem_map.mp hbatch
    have hne := (hfilled.batch_within (fun g hg => Plan.fits_of_mem_groups hg) pass hpass).1
    exact ⟨listsFindings_listedIn table hne, listedIn_perm table _⟩
  · intro f hf p hp
    obtain ⟨i, hi, hspan, hmem, hcount⟩ := exists_item_of_located ht hgrouped hf hp
    have honly : ∀ j ∈ Placed.list (context ++ flagged).values, f ∈ j.item.findings → j = i := by
      intro j hj hfj
      refine item_eq_of_span_eq hgrouped hj hi (Option.some.inj ?_)
      rw [← (mem_findings_item_iff hgrouped hj hf).mp hfj,
        (mem_findings_item_iff hgrouped hi hf).mp hmem]
    have hhas : Plan.Item.hasFindings i = true := by
      rw [Plan.Item.hasFindings, Block.hasFindings, Bool.not_eq_true', List.isEmpty_eq_false_iff]
      exact List.ne_nil_of_mem hmem
    refine ⟨i, hi, hspan, hmem, honly, (hplanned.skipped_or_sent hi hhas).imp_right ?_⟩
    rintro ⟨hsent, honce⟩
    refine ⟨exists_listedIn table hsent hmem, fun hkind => ?_⟩
    rw [← hcount]
    exact exists_split_listedIn table (fun j hj => honly j (hplanned.mem_of_sent hj))
      (honce (beq_eq_false_iff_ne.mpr hkind))
  · intro f hf hnone i hi hmem
    have hspan := (mem_findings_item_iff hgrouped (hplanned.mem_allBlocks hi) hf).mp hmem
    rw [DeclTree.spanAt, hnone] at hspan
    exact Option.some_ne_none _ hspan.symm

theorem ListsFindings.exists_issue {text : Text} {findings : List Finding}
    (h : ListsFindings text findings) {f : Finding} (hf : f ∈ findings) :
    ∃ v, Json.Document text v ∧
      .object [("rule", .text f.rule), ("message", .text f.message)] ∈ Payload.issuesIn v := by
  obtain ⟨v, hdocument, hissues⟩ := h
  obtain ⟨j, hj⟩ := List.mem_iff_getElem?.mp hf
  obtain ⟨w, hw, ⟨⟩⟩ := exists_getElem?_of_forall₂ hissues hj
  exact ⟨v, (hdocument v).mpr rfl, List.mem_of_getElem? hw⟩

/-- The finding in the method of the shop is in the document of a batch, and one on a line that the
file has not is in no block. -/
theorem requests_list_shopFindings :
    (∀ d ∈ Decl.shopTree.walk, 1 ≤ d.start ∧ d.start ≤ d.stop) ∧ (0 : Int) < 40 ∧
      ∃ blocks plan, (Decl.group Decl.shopTree Decl.shopFindings "Shop").outcome = .ok blocks ∧
        Plan.make blocks.values 40 = .ok plan ∧ plan.skipped = [] ∧
        (∃ batch ∈ plan.batches, ∃ v,
          Json.Document (payloadText .default true (batch.map Placed.item)) v ∧
          .object [("rule", .text "Doc"), ("message", .text "missing")] ∈ Payload.issuesIn v) ∧
        ∀ f ∈ Decl.shopFindings[2]?, ∀ i ∈ plan.allBlocks, f ∉ i.item.findings := by
  have hspans : ∀ d ∈ Decl.shopTree.walk, 1 ≤ d.start ∧ d.start ≤ d.stop := by decide
  have hb : (0 : Int) < 40 := by decide
  obtain ⟨blocks, plan, listed, hgroup, hplan, hlists, hlisted, hnowhere⟩ :=
    requests_list_every_finding hspans Decl.shopFindings "Shop" .default hb
  have hskipped : plan.skipped = [] := by
    have hmap : ((Decl.group Decl.shopTree Decl.shopFindings "Shop").outcome.bind fun m =>
        (Plan.make m.values 40).map Plan.skipped) = .ok [] := rfl
    rw [hgroup] at hmap
    have hmake : (Plan.make blocks.values 40).map Plan.skipped = .ok [] := hmap
    rw [hplan] at hmake
    exact Except.ok.inj hmake
  refine ⟨hspans, hb, blocks, plan, hgroup, hplan, hskipped, ?_, ?_⟩
  · obtain ⟨i, -, -, -, -, hskip | ⟨⟨batch, hbatch, hmem⟩, -⟩⟩ :=
      hlisted ⟨3, "Doc", "missing", Nat.succ_pos _⟩ (by decide)
        ⟨2, ⟨.method, 2, 4, "sell()", some "sell".toList, none⟩⟩ (by decide)
    · rw [hskipped] at hskip
      exact absurd hskip.1 List.not_mem_nil
    · exact ⟨batch, hbatch, (hlists batch hbatch).1.exists_issue hmem⟩
  · intro f hf
    have hmem := List.mem_of_getElem? hf
    obtain rfl := Option.some.inj hf
    exact hnowhere _ hmem (by decide)

end Request
end Refit

/-
The plan and the requests agree on who owns a member.

The plan looks for the owner among all containers, by whole spans. A request looks among those of its
batch, by the member's first line. A batch lists its containers in input order, so the two searches
end at the same container wherever the lines and the spans of the batch say the same.
-/
import Mathlib.Data.Nat.Basic
import Refit.Proofs.Plan.Conservation
import Refit.Proofs.Request.Encoding

namespace Refit

open Data (Placed)

theorem Span.containsLine_start_of_contains {a b : Span} (h : a.contains b = true) :
    a.containsLine b.start = true := by
  have hstop := b.start_le_stop
  rw [contains_iff] at h
  simp only [containsLine, Bool.and_eq_true, decide_eq_true_eq]
  omega

namespace Plan

theorem owner?_eq_some_iff {containers : List Item} {m o : Item} :
    owner? containers m = some o ↔
      Data.FirstLeast (fun c : Item => c.span.length)
        (containers.filter fun c => c.span.contains m.span) o :=
  Data.least?_eq_some_iff fun _ _ => decide_eq_true_iff

theorem owner?_eq_none_iff {containers : List Item} {m : Item} :
    owner? containers m = none ↔ ∀ c ∈ containers, ¬c.span.contains m.span = true := by
  rw [owner?, Data.least?_eq_none_iff, List.filter_eq_nil_iff]

/-- An owner is still the owner among fewer containers. -/
theorem owner?_of_sublist {all fewer : List Item} {m o : Item} (hnd : all.Nodup)
    (hsub : fewer.Sublist all) (ho : o ∈ fewer) (h : owner? all m = some o) :
    owner? fewer m = some o := by
  have hcontains := (List.mem_filter.mp (Data.mem_of_least? h)).2
  rw [owner?_eq_some_iff] at h ⊢
  exact h.of_sublist (hnd.filter _) (hsub.filter _) (List.mem_filter.mpr ⟨ho, hcontains⟩)

end Plan

namespace Request

open Data (Value)
open Data
open Objective (Table)
open Plan (Item)

/-! ## The search in a batch -/

theorem filter_isContainer_batch (batch : List Item) :
    (batch.map Placed.item).filter Block.isContainer = (Plan.containers batch).map Placed.item :=
  List.filter_map

theorem placed_containers_batch (batch : List Item) :
    Placed.list ((Plan.containers batch).map Placed.item) =
      (Plan.containers batch).zipIdx.map fun e => ⟨e.2, e.1.item⟩ := by
  rw [Placed.list, List.zipIdx_map, List.map_map]
  rfl

/-- Where the lines and the spans of a batch say the same about a member, its request finds the owner
that the plan would find among the containers of the batch. -/
theorem exists_found {batch : List Item} {m : Item}
    (hagree : ∀ c ∈ batch, c.isContainer = true → c.span.containsLine m.span.start = true →
      c.span.contains m.span = true) :
    ∃ found : Option (Item × Nat),
      Plan.owner? (Plan.containers batch) m = found.map Prod.fst ∧
      Payload.ownerIndex ((batch.map Placed.item).filter Block.isContainer) m.item =
        found.map Prod.snd ∧
      ∀ e ∈ found, (Plan.containers batch)[e.2]? = some e.1 := by
  let numbered := (Plan.containers batch).zipIdx
  let covers : Item × Nat → Bool := fun e => e.1.span.contains m.span
  refine ⟨Data.least? (fun a b => a.1.span.length < b.1.span.length) (numbered.filter covers),
    ?_, ?_, ?_⟩
  · have hfst : numbered.map Prod.fst = Plan.containers batch := List.zipIdx_map_fst 0 _
    have hfilter : (numbered.filter covers).map Prod.fst =
        (Plan.containers batch).filter fun c => c.span.contains m.span := by
      rw [← hfst, List.filter_map]
      rfl
    rw [Plan.owner?, ← hfilter, Data.least?_map]
  · have hcovers : numbered.filter (fun e => e.1.span.containsLine m.span.start) =
        numbered.filter covers := by
      refine List.filter_congr fun e he => Bool.eq_iff_iff.mpr ⟨?_, ?_⟩
      · obtain ⟨hbatch, hc⟩ := Plan.mem_containers.mp (List.fst_mem_of_mem_zipIdx he)
        exact hagree e.1 hbatch hc
      · exact Span.containsLine_start_of_contains
    rw [← hcovers, filter_isContainer_batch, Payload.ownerIndex_eq, placed_containers_batch,
      List.filter_map, Data.least?_map, Option.map_map]
    rfl
  · intro e he
    have hmem := (List.mem_filter.mp (Data.mem_of_least? he)).1
    exact List.mem_zipIdx_iff_getElem?.mp hmem

/-! ## The entries of a request -/

section Entries

variable (table : Table) (withIssues : Bool) {batch : List Item}

theorem filed_map_item (index : Block → Option Nat) (batch : List Item) (entry : Option Nat) :
    filed index (batch.map Placed.item) entry =
      (batch.filter fun i => !i.isContainer && index i.item == entry).map Placed.item :=
  List.filter_map

/-- An entry under a signature lists a member of the batch, among others of the batch. -/
def Lists (entry : Value) (signature : Option Text) (issues : Option Issues) (batch : List Item)
    (m : Item) : Prop :=
  ∃ members : List Item, members.Sublist batch ∧ m ∈ members ∧
    ShowsEntry table withIssues entry signature (members.map Placed.item) issues

variable {table withIssues}

theorem lists_of_filed {entry : Value} {signature : Option Text} {issues : Option Issues}
    {index : Block → Option Nat} {k : Option Nat} {m : Item} (hm : m ∈ batch)
    (hc : m.isContainer = false) (hindex : index m.item = k)
    (h : ShowsEntry table withIssues entry signature (filed index (batch.map Placed.item) k)
      issues) :
    Lists table withIssues entry signature issues batch m := by
  rw [filed_map_item] at h
  refine ⟨_, List.filter_sublist, List.mem_filter.mpr ⟨hm, ?_⟩, h⟩
  simp [hc, hindex]

end Entries

/-! ## Plans and their requests -/

/-- The containers of a batch stand in it as they do in the input. -/
theorem containers_sublist_of_batch {blocks : List Block} {budget : Nat} {passes : List Plan.Pass}
    (h : Plan.Filled budget (Plan.groups budget (Placed.list blocks)) passes) {pass : Plan.Pass}
    (hpass : pass ∈ passes) :
    (Plan.containers (Plan.Pass.blocks pass)).Sublist (Plan.containers (Placed.list blocks)) := by
  have hsub := h.containers_sublist (fun g hg => Plan.fits_of_mem_groups hg) pass hpass
  rwa [Plan.leaders_groups] at hsub

/-- The document of a batch lists a member under the owner that it has in the plan, if the owner is
in the batch, and under the unknown type if it has none. -/
theorem requests_follow_plan_owners (blocks : List Block) {budget : Int} (hb : 0 < budget)
    (table : Table) (withIssues : Bool) :
    ∃ plan, Plan.make blocks budget = .ok plan ∧ ∀ batch ∈ plan.batches, ∃ classes : List Value,
      (∀ v, Json.Document (payloadText table withIssues (batch.map Placed.item)) v ↔
        v = .object [("instruction", .text table.instruction),
          ("file", .text (Block.fileName (batch.map Placed.item))), ("classes", .list classes)]) ∧
      ∀ m ∈ batch, m.isContainer = false →
        (∀ c ∈ batch, c.isContainer = true → c.span.containsLine m.span.start = true →
          c.span.contains m.span = true) →
        (∀ o ∈ batch, Plan.owner? (Plan.containers (Placed.list blocks)) m = some o →
          ∃ (j : Nat) (entry : Value), (Plan.containers batch)[j]? = some o ∧
            classes[j]? = some entry ∧
            Lists table withIssues entry o.item.text (ownIssues table withIssues o.item) batch m) ∧
        ((∀ c ∈ Placed.list blocks, c.item.isContainer = true →
            c.item.span.contains m.span = false) →
          ∃ entry, classes[(Plan.containers batch).length]? = some entry ∧
            Lists table withIssues entry (some "Unknown".toList) none batch m) := by
  obtain ⟨plan, hplan, hfilled, -⟩ := Plan.make_eq_ok blocks hb
  refine ⟨plan, hplan, fun batch hbatch => ?_⟩
  obtain ⟨pass, hpass, rfl⟩ := List.mem_map.mp hbatch
  have hsub := containers_sublist_of_batch hfilled hpass
  have hne := (hfilled.batch_within (fun g hg => Plan.fits_of_mem_groups hg) pass hpass).1
  have hblocks : (Plan.Pass.blocks pass).map Placed.item ≠ [] := by simpa using hne
  obtain ⟨entries, rest, hdocument, hentries, -, hrest⟩ :=
    Payload.exists_entries table withIssues hblocks
  have hlength : entries.length = (Plan.containers (Plan.Pass.blocks pass)).length := by
    rw [hentries.length_eq, List.length_zipIdx, filter_isContainer_batch, List.length_map]
  refine ⟨entries ++ rest, hdocument, fun m hm hc hagree => ?_⟩
  obtain ⟨found, hplanned, hindex, hfound⟩ := exists_found hagree
  constructor
  · intro o ho howner
    have hcontainer := (Plan.mem_containers.mp (Plan.owner?_mem howner).1).2
    have hnd : (Plan.containers (Placed.list blocks)).Nodup :=
      (List.Nodup.of_map _ (Placed.nodup_place_list blocks)).filter _
    have hlocal := Plan.owner?_of_sublist hnd hsub (Plan.mem_containers.mpr ⟨ho, hcontainer⟩) howner
    rw [hplanned, Option.map_eq_some_iff] at hlocal
    obtain ⟨⟨c, j⟩, rfl, rfl⟩ := hlocal
    have hj := hfound _ rfl
    have hplace : (((Plan.Pass.blocks pass).map Placed.item).filter Block.isContainer).zipIdx[j]? =
        some (c.item, j) := by
      rw [filter_isContainer_batch, List.getElem?_zipIdx, List.getElem?_map, hj, Nat.zero_add]
      rfl
    obtain ⟨entry, hentry, hshows⟩ := exists_getElem?_of_forall₂ hentries hplace
    have hlt := (List.getElem?_eq_some_iff.mp hentry).1
    refine ⟨j, entry, hj, ?_, lists_of_filed hm hc hindex hshows⟩
    rw [List.getElem?_append_left hlt, hentry]
  · intro hnone
    have hlocal : Plan.owner? (Plan.containers (Plan.Pass.blocks pass)) m = none := by
      rw [Plan.owner?_eq_none_iff]
      intro c hmem
      obtain ⟨hinput, hcontainer⟩ := Plan.mem_containers.mp (hsub.subset hmem)
      exact Bool.eq_false_iff.mp (hnone c hinput hcontainer)
    rw [hplanned, Option.map_eq_none_iff] at hlocal
    subst hlocal
    have hfiled : m.item ∈ filed _ ((Plan.Pass.blocks pass).map Placed.item) none :=
      mem_filed.mpr ⟨List.mem_map_of_mem hm, hc, hindex⟩
    obtain ⟨entry, rfl, hshows⟩ := hrest (List.ne_nil_of_mem hfiled)
    refine ⟨entry, ?_, lists_of_filed hm hc hindex hshows⟩
    rw [List.getElem?_append_right (Nat.le_of_eq hlength), hlength, Nat.sub_self]
    rfl

section Twins

def shopType : Block :=
  ⟨"shop", .type, ⟨10, 40, by decide, by decide⟩, some "class Shop".toList,
    [⟨10, "Doc", "missing", by decide⟩], none⟩

def tillType : Block :=
  ⟨"shop", .type, ⟨13, 18, by decide, by decide⟩, some "class Till".toList, [], none⟩

def trayType : Block :=
  ⟨"shop", .type, ⟨13, 18, by decide, by decide⟩, some "class Tray".toList,
    [⟨13, "Doc", "missing", by decide⟩], none⟩

def sellMethod : Block :=
  ⟨"shop", .method, ⟨14, 15, by decide, by decide⟩, some "sell()".toList,
    [⟨14, "Doc", "missing", by decide⟩], none⟩

def countMethod : Block :=
  ⟨"shop", .method, ⟨50, 51, by decide, by decide⟩, some "count()".toList,
    [⟨50, "Doc", "missing", by decide⟩], none⟩

def twinBlocks : List Block := [shopType, tillType, trayType, sellMethod, countMethod]

def twinBatch : List Item :=
  [⟨0, shopType⟩, ⟨1, tillType⟩, ⟨3, sellMethod⟩, ⟨2, trayType⟩, ⟨4, countMethod⟩]

end Twins

/-- The violation of a method with one undocumented line. -/
def undocumented (code : Text) : Value :=
  .object [("block_type", .text "Method"), ("extracted_code", .text code),
    ("issues", .list [.object [("rule", .text "Doc"), ("message", .text "missing")]]),
    ("refactoring_objective", .text "Document.")]

theorem Lists.undocumented_mem {entry : Value} {signature code : Text} {issues : Option Issues}
    {batch : List Item} {m : Item} (h : Lists bareTable true entry (some signature) issues batch m)
    (hm : Payload.violationValue (Payload.violation bareTable true m.item) = undocumented code) :
    entry.field? "type_signature" = some (.text signature) ∧
      ∃ vs, entry.field? "violations" = some (.list vs) ∧ undocumented code ∈ vs := by
  obtain ⟨members, -, hmem, hshows⟩ := h
  obtain ⟨s, vs, hsignature, hs, hvs, w, hw, hmember⟩ :=
    hshows.exists_member (List.mem_map_of_mem hmem)
  obtain rfl : w = undocumented code := ((Payload.showsViolation_iff _ _).mp hmember).trans hm
  obtain rfl : s = .text signature := Payload.showsText_iff.mp hs
  exact ⟨hsignature, vs, hvs, hw⟩

theorem violationValue_undocumented {m : Block} {code : Text} (hkind : m.kind = .method)
    (htext : m.text = some code) (hrules : m.findings.map Finding.rule = [("Doc" : Text)])
    (hmessages : m.findings.map Finding.message = [("missing" : Text)]) :
    Payload.violationValue (Payload.violation bareTable true m) = undocumented code := by
  obtain ⟨file, kind, span, text, findings, name⟩ := m
  obtain ⟨f, rfl⟩ : ∃ f, findings = [f] := List.length_eq_one_iff.mp (by
    simpa using congrArg List.length hrules)
  obtain rfl : kind = .method := hkind
  obtain rfl : text = some code := htext
  rw [undocumented, ← combined_bareTable, ← (List.cons.inj hrules).1, ← (List.cons.inj hmessages).1]
  rfl

/-- Of two types of the same lines, the method in them goes with the first in the plan and in the
request. -/
theorem requests_follow_plan_owners_twinBlocks :
    (0 : Int) < 100 ∧ ∃ plan, Plan.make twinBlocks 100 = .ok plan ∧ plan.batches = [twinBatch] ∧
      ∃ classes : List Value,
        Json.Document (payloadText bareTable true (twinBatch.map Placed.item))
          (.object [("instruction", .text "Refactor."), ("file", .text "shop"),
            ("classes", .list classes)]) ∧
        (∃ entry, classes[1]? = some entry ∧
          entry.field? "type_signature" = some (.text "class Till") ∧
          ∃ vs, entry.field? "violations" = some (.list vs) ∧ undocumented "sell()" ∈ vs) ∧
        ∃ entry, classes[3]? = some entry ∧
          entry.field? "type_signature" = some (.text "Unknown") ∧
          ∃ vs, entry.field? "violations" = some (.list vs) ∧ undocumented "count()" ∈ vs := by
  have hb : (0 : Int) < 100 := by decide
  obtain ⟨plan, hplan, h⟩ := requests_follow_plan_owners twinBlocks hb bareTable true
  have hmap : (Plan.make twinBlocks 100).map Plan.batches = .ok [twinBatch] := rfl
  rw [hplan] at hmap
  have hbatches : plan.batches = [twinBatch] := Except.ok.inj hmap
  obtain ⟨classes, hdocument, hfollow⟩ :=
    h twinBatch (by rw [hbatches]; exact List.mem_singleton_self _)
  refine ⟨hb, plan, hplan, hbatches, classes, (hdocument _).mpr rfl, ?_, ?_⟩
  · obtain ⟨j, entry, hj, hentry, hlists⟩ :=
      (hfollow ⟨3, sellMethod⟩ (by decide) rfl (by decide)).1 ⟨1, tillType⟩ (by decide) (by decide)
    have hplaces : ∀ k < 3, (Plan.containers twinBatch)[k]? = some ⟨1, tillType⟩ → k = 1 := by
      decide
    obtain rfl := hplaces j (List.getElem?_eq_some_iff.mp hj).1 hj
    exact ⟨entry, hentry, hlists.undocumented_mem (violationValue_undocumented rfl rfl rfl rfl)⟩
  · obtain ⟨entry, hentry, hlists⟩ :=
      (hfollow ⟨4, countMethod⟩ (by decide) rfl (by decide)).2 (by decide)
    exact ⟨entry, hentry, hlists.undocumented_mem (violationValue_undocumented rfl rfl rfl rfl)⟩

end Request
end Refit

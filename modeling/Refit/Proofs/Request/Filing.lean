/-
Where the blocks of a batch stand in its request.

Every container has an entry, in input order, and every member has one violation: in the entry of the
shortest container around its first line, or in a last entry where no container is around it. Which
entry that is depends on nothing but the lines of the blocks and the order of the containers (`GoesTo`),
so a request can be told from its batch without the search that fills it.
-/
import Refit.Proofs.Request.Ownership

namespace Refit
namespace Request

open Data (Value Placed)
open Data
open Objective (Table)

variable {containers blocks : List Block} {b c : Block} {j : Nat}

/-- The first line of `b` is one of the lines of `c`. -/
def Covers (c b : Block) : Prop := c.span.start ≤ b.span.start ∧ b.span.start ≤ c.span.stop

instance (c b : Block) : Decidable (Covers c b) := inferInstanceAs (Decidable (_ ∧ _))

/-- The container at position `j` is the shortest around the first line of `b`, and of those equally
short the first. -/
structure OwnedAt (containers : List Block) (b : Block) (j : Nat) (c : Block) : Prop where
  at_place : containers[j]? = some c
  covers : Covers c b
  least : ∀ k d, containers[k]? = some d → Covers d b → k ≠ j →
    c.span.length < d.span.length ∨ c.span.length = d.span.length ∧ j < k

/-- The entry that a member belongs to: that of the container at a position, or the last one. -/
def GoesTo (containers : List Block) (b : Block) : Option Nat → Prop
  | some j => ∃ c, OwnedAt containers b j c
  | none => ∀ c ∈ containers, ¬Covers c b

/-- A member that no container is around. -/
def Uncovered (blocks : List Block) (b : Block) : Prop :=
  b.isContainer = false ∧ ∀ c ∈ blocks, c.isContainer = true → ¬Covers c b

instance (blocks : List Block) (b : Block) : Decidable (Uncovered blocks b) :=
  inferInstanceAs (Decidable (_ ∧ _))

/-! ## The search for the entry -/

theorem containsLine_iff_covers : c.span.containsLine b.span.start = true ↔ Covers c b := by
  simp only [Span.containsLine, Covers, Bool.and_eq_true, decide_eq_true_eq]
  omega

namespace Payload

theorem ownerIndex_eq_none_iff :
    ownerIndex containers b = none ↔ ∀ c ∈ containers, ¬Covers c b := by
  rw [ownerIndex_eq, Option.map_eq_none_iff, Data.least?_eq_none_iff, List.filter_eq_nil_iff]
  simp only [containsLine_iff_covers]
  constructor
  · intro h c hc
    obtain ⟨j, hj⟩ := List.mem_iff_getElem?.mp hc
    exact h ⟨j, c⟩ (Placed.mem_list_iff.mpr hj)
  · exact fun h c hc => h c.item (List.mem_of_getElem? (Placed.mem_list_iff.mp hc))

theorem ownerIndex_eq_some_iff :
    ownerIndex containers b = some j ↔ ∃ c, OwnedAt containers b j c := by
  have hlt : ∀ x y : Block, decide (x.span.length < y.span.length) = true ↔
      x.span.length < y.span.length := fun _ _ => decide_eq_true_iff
  rw [ownerIndex_eq, Option.map_eq_some_iff]
  simp only [Data.least?_placed_eq_some_iff hlt fun x => x.span.containsLine b.span.start,
    Placed.mem_list_iff, containsLine_iff_covers]
  constructor
  · rintro ⟨⟨_, c⟩, ⟨hplace, hcovers, hleast⟩, rfl⟩
    refine ⟨c, hplace, hcovers, fun k d hd hcd hne => hleast ⟨k, d⟩ hd hcd ?_⟩
    exact fun heq => hne (congrArg Placed.place heq)
  · rintro ⟨c, hplace, hcovers, hleast⟩
    refine ⟨⟨j, c⟩, ⟨hplace, hcovers, ?_⟩, rfl⟩
    refine fun x hx hcx hne => hleast x.place x.item hx hcx fun hxj => ?_
    -- at one place there is one container
    rw [hxj, hplace] at hx
    exact hne (by rw [Option.some.inj hx, ← hxj])

theorem goesTo_iff {entry : Option Nat} :
    GoesTo containers b entry ↔ ownerIndex containers b = entry := by
  cases entry with
  | none => exact ownerIndex_eq_none_iff.symm
  | some j => exact ownerIndex_eq_some_iff.symm

theorem filed_none_ne_nil_iff :
    filed (ownerIndex (blocks.filter Block.isContainer)) blocks none ≠ [] ↔
      ∃ m ∈ blocks, Uncovered blocks m := by
  have hmem : ∀ m, m ∈ filed (ownerIndex (blocks.filter Block.isContainer)) blocks none ↔
      m ∈ blocks ∧ Uncovered blocks m := by
    intro m
    rw [mem_filed, ownerIndex_eq_none_iff]
    simp only [Uncovered, List.mem_filter, and_imp]
  constructor
  · intro h
    obtain ⟨m, hm⟩ := List.exists_mem_of_ne_nil _ h
    exact ⟨m, (hmem m).mp hm⟩
  · rintro ⟨m, hm⟩
    exact List.ne_nil_of_mem ((hmem m).mpr hm)

end Payload

/-- The document of a request has an entry for each container, in input order, and after them one
more exactly if some member is in no container. The violations of an entry are those of the members
that belong to it, in input order, so that every member has one violation in all. -/
theorem request_files_each_block_once (table : Table) (withIssues : Bool) {blocks : List Block}
    (hne : blocks ≠ []) :
    ∃ (home : Block → Option Nat) (entries rest : List Value),
      (∀ m entry, GoesTo (blocks.filter Block.isContainer) m entry ↔ home m = entry) ∧
      (∀ v, Json.Document (payloadText table withIssues blocks) v ↔
        v = .object [("instruction", .text table.instruction),
          ("file", .text (Block.fileName blocks)), ("classes", .list (entries ++ rest))]) ∧
      List.Forall₂ (fun v (e : Block × Nat) => ShowsEntry table withIssues v e.1.text
          (filed home blocks (some e.2)) (ownIssues table withIssues e.1))
        entries (blocks.filter Block.isContainer).zipIdx ∧
      (¬(∃ m ∈ blocks, Uncovered blocks m) → rest = []) ∧
      ((∃ m ∈ blocks, Uncovered blocks m) → ∃ v, rest = [v] ∧
        ShowsEntry table withIssues v (some "Unknown".toList) (filed home blocks none) none) ∧
      (((blocks.filter Block.isContainer).zipIdx.flatMap fun e => filed home blocks (some e.2)) ++
        filed home blocks none).Perm (blocks.filter fun m => !m.isContainer) := by
  obtain ⟨entries, rest, hdocument, hentries, hnone, hsome⟩ :=
    Payload.exists_entries table withIssues hne
  refine ⟨Payload.ownerIndex (blocks.filter Block.isContainer), entries, rest,
    fun _ _ => Payload.goesTo_iff, hdocument, hentries, ?_, ?_, Payload.filed_ownerIndex_perm blocks⟩
  · rw [← Payload.filed_none_ne_nil_iff, not_not]
    exact hnone
  · rw [← Payload.filed_none_ne_nil_iff]
    exact hsome

/-- The method before its types, of which two have the same lines, and a method outside. -/
def shuffledBlocks : List Block := [sellMethod, shopType, trayType, countMethod, tillType]

/-- The method goes with the first of the two types on the same lines, which is not the first type
around it, and the other method with none. -/
theorem request_files_shuffledBlocks :
    shuffledBlocks ≠ [] ∧
      Json.Document (payloadText bareTable true shuffledBlocks) (.object
        [("instruction", .text "Refactor."), ("file", .text "shop"), ("classes", .list
          [.object [("type_signature", .text "class Shop"), ("violations", .list []),
              ("issues", .list [.object [("rule", .text "Doc"), ("message", .text "missing")]]),
              ("refactoring_objective", .text "Document.")],
            .object [("type_signature", .text "class Tray"),
              ("violations", .list [undocumented "sell()"]),
              ("issues", .list [.object [("rule", .text "Doc"), ("message", .text "missing")]]),
              ("refactoring_objective", .text "Document.")],
            .object [("type_signature", .text "class Till"), ("violations", .list [])],
            .object [("type_signature", .text "Unknown"),
              ("violations", .list [undocumented "count()"])]])]) := by
  have hne : shuffledBlocks ≠ [] := List.cons_ne_nil _ _
  obtain ⟨home, entries, rest, hgoes, hdocument, hentries, -, hunknown, -⟩ :=
    request_files_each_block_once bareTable true hne
  have hsell : home sellMethod = some 1 := (hgoes _ _).mp (Payload.goesTo_iff.mpr (by decide))
  have hcount : home countMethod = none := (hgoes _ _).mp (Payload.goesTo_iff.mpr (by decide))
  have hfiled : ∀ entry, filed home shuffledBlocks entry =
      [sellMethod, countMethod].filter fun m => home m == entry := fun _ => rfl
  obtain ⟨unknown, rfl, hshows⟩ := hunknown (by decide)
  obtain rfl : entries = (shuffledBlocks.filter Block.isContainer).zipIdx.map fun e =>
      Payload.classValue ⟨e.1.text,
        (filed home shuffledBlocks (some e.2)).map (Payload.violation bareTable true),
        ownIssues bareTable true e.1⟩ := by
    refine (forall₂_iff_eq_map ?_).mp hentries
    exact fun _ _ => Payload.showsEntry_iff
  obtain rfl := Payload.showsEntry_iff.mp hshows
  refine ⟨hne, (hdocument _).mpr ?_⟩
  simp only [hfiled, List.filter_cons, hsell, hcount]
  rw [← violationValue_undocumented (m := sellMethod) rfl rfl rfl rfl,
    ← violationValue_undocumented (m := countMethod) rfl rfl rfl rfl, ← combined_bareTable]
  rfl

end Request
end Refit

/-
How the entries of a request are filled.

The loop over the blocks appends each member's violation to the entry that its
index names. `draftOf` says what a draft holds after some blocks, with a filter
in place of the loop, and one more block takes it one step further. So the
violations of an entry are those of the members with its index, in input order.
-/
import Mathlib.Data.List.Nodup
import Mathlib.Data.List.Perm.Basic
import Refit.Proofs.Data.Least
import Refit.Request.Payload

namespace Refit

/-! ## Filing by key -/

section Filing

variable {α κ : Type} [DecidableEq κ]

theorem filter_append_filter_perm {p q : α → Bool} {xs : List α}
    (h : ∀ x ∈ xs, p x = true → q x = false) :
    (xs.filter p ++ xs.filter q).Perm (xs.filter fun x => p x || q x) := by
  have hleft : (xs.filter fun x => p x || q x).filter p = xs.filter p := by
    rw [List.filter_filter]
    refine List.filter_congr fun x _ => ?_
    cases p x <;> simp
  have hright : (xs.filter fun x => p x || q x).filter (fun x => !p x) = xs.filter q := by
    rw [List.filter_filter]
    refine List.filter_congr fun x hx => ?_
    cases hp : p x with
    | true => simp [h x hx hp]
    | false => simp
  have hperm := List.filter_append_perm p (xs.filter fun x => p x || q x)
  rwa [hleft, hright] at hperm

/-- What is filed under some distinct keys, up to order. -/
theorem flatMap_filed_perm (key : α → Option κ) (xs : List α) {keys : List κ} (hnd : keys.Nodup) :
    (keys.flatMap fun k => xs.filter fun x => key x = some k).Perm
      (xs.filter fun x => (key x).any (· ∈ keys)) := by
  induction keys with
  | nil => simp
  | cons k keys ih =>
      rw [List.nodup_cons] at hnd
      rw [List.flatMap_cons]
      refine ((ih hnd.2).append_left _).trans ((filter_append_filter_perm ?_).trans ?_)
      · intro x _ hx
        rw [of_decide_eq_true hx, Option.any_some]
        exact decide_eq_false hnd.1
      · refine List.Perm.of_eq (List.filter_congr fun x _ => ?_)
        cases key x with
        | none => simp
        | some k' => simp [List.mem_cons]

/-- Filing loses nothing where every key is among those filed under. -/
theorem filed_perm (key : α → Option κ) {xs : List α} {keys : List κ} (hnd : keys.Nodup)
    (hkeys : ∀ x ∈ xs, ∀ k ∈ key x, k ∈ keys) :
    ((keys.flatMap fun k => xs.filter fun x => key x = some k) ++
      xs.filter fun x => (key x).isNone).Perm xs := by
  refine ((flatMap_filed_perm key xs hnd).append_right _).trans ?_
  have hrest : xs.filter (fun x => (key x).isNone) =
      xs.filter fun x => !(key x).any (· ∈ keys) := by
    refine List.filter_congr fun x hx => ?_
    cases hk : key x with
    | none => rfl
    | some k => simpa using hkeys x hx k hk
  rw [hrest]
  exact List.filter_append_perm _ xs

end Filing

namespace Request

open Data (Placed)
open Objective (Table)

/-- The members with an index, in input order. -/
def filed (index : Block → Option Nat) (blocks : List Block) (entry : Option Nat) : List Block :=
  blocks.filter fun m => !m.isContainer && index m == entry

theorem mem_filed {index : Block → Option Nat} {blocks : List Block} {entry : Option Nat}
    {m : Block} :
    m ∈ filed index blocks entry ↔ m ∈ blocks ∧ m.isContainer = false ∧ index m = entry := by
  simp [filed]

theorem filed_append (index : Block → Option Nat) (done rest : List Block) (entry : Option Nat) :
    filed index (done ++ rest) entry = filed index done entry ++ filed index rest entry :=
  List.filter_append _ _

theorem filed_container {b : Block} (h : b.isContainer = true) (index : Block → Option Nat)
    (entry : Option Nat) : filed index [b] entry = [] :=
  List.filter_cons_of_neg (by simp [h])

theorem filed_member {b : Block} (h : b.isContainer = false) (index : Block → Option Nat)
    (entry : Option Nat) : filed index [b] entry = if index b = entry then [b] else [] := by
  by_cases hentry : index b = entry
  · rw [if_pos hentry]
    exact List.filter_cons_of_pos (by simp [h, hentry])
  · rw [if_neg hentry]
    exact List.filter_cons_of_neg (by simp [h, hentry])

namespace Payload

/-! ## The index of a member -/

theorem ownerIndex_eq (containers : List Block) (b : Block) :
    ownerIndex containers b =
      (Data.least? (fun c d => c.item.span.length < d.item.span.length)
        ((Placed.list containers).filter fun c => c.item.span.containsLine b.span.start)).map
        Placed.place := by
  rw [ownerIndex, Data.foldl_better]

/-- An index is that of a container. -/
theorem ownerIndex_lt {containers : List Block} {b : Block} {j : Nat}
    (h : ownerIndex containers b = some j) : j < containers.length := by
  rw [ownerIndex_eq, Option.map_eq_some_iff] at h
  obtain ⟨c, hc, rfl⟩ := h
  have hmem := (List.mem_filter.mp (Data.mem_of_least? hc)).1
  exact (List.getElem?_eq_some_iff.mp (Placed.mem_list_iff.mp hmem)).1

/-! ## The loop -/

section Loop

variable (table : Table) (withIssues : Bool)

/-- The entry of a container with the violations of some members. -/
def entryWith (c : Block) (members : List Block) : ClassEntry :=
  ⟨c.text, members.map (violation table withIssues),
    if withIssues && c.hasFindings then some (issuesOf table c) else none⟩

/-- The draft after the blocks of `done`. -/
def draftOf (containers done : List Block) : Draft :=
  ⟨containers.zipIdx.map fun e =>
      entryWith table withIssues e.1 (filed (ownerIndex containers) done (some e.2)),
    (filed (ownerIndex containers) done none).map (violation table withIssues)⟩

variable {table withIssues}

theorem getElem?_draftOf (containers done : List Block) (j : Nat) :
    (draftOf table withIssues containers done).classes[j]? = containers[j]?.map fun c =>
      entryWith table withIssues c (filed (ownerIndex containers) done (some j)) := by
  rw [draftOf, List.getElem?_map, List.getElem?_zipIdx, Option.map_map, Nat.zero_add]
  rfl

theorem addBlock_draftOf (containers done : List Block) (b : Block) :
    addBlock table withIssues containers (draftOf table withIssues containers done) b =
      draftOf table withIssues containers (done ++ [b]) := by
  rw [addBlock]
  cases hb : b.isContainer with
  | true =>
      simp only [if_true, draftOf, filed_append, filed_container hb, List.append_nil]
  | false =>
      rw [if_neg Bool.false_ne_true]
      cases hindex : ownerIndex containers b with
      | none =>
          simp only [Draft.append, draftOf, filed_append, filed_member hb, hindex, if_true,
            reduceCtorEq, if_false, List.append_nil, List.map_append, List.map_cons, List.map_nil]
      | some i =>
          -- only the entry at `i` gets longer
          have hclasses : (draftOf table withIssues containers done).classes.modify i (fun e =>
              ⟨e.signature, e.violations ++ [violation table withIssues b], e.issues⟩) =
              (draftOf table withIssues containers (done ++ [b])).classes := by
            apply List.ext_getElem?
            intro j
            rw [List.getElem?_modify, getElem?_draftOf, getElem?_draftOf, filed_append,
              filed_member hb, hindex]
            by_cases hij : i = j
            · subst hij
              cases containers[i]? <;> simp [entryWith]
            · have hne : ¬ some i = some j := fun h => hij (Option.some.inj h)
              simp [hij, hne]
          have hunknown : (draftOf table withIssues containers done).unknown =
              (draftOf table withIssues containers (done ++ [b])).unknown := by
            simp [draftOf, filed_append, filed_member hb, hindex]
          rw [Draft.append, hclasses, hunknown]

theorem foldl_addBlock_draftOf (containers done rest : List Block) :
    rest.foldl (addBlock table withIssues containers) (draftOf table withIssues containers done) =
      draftOf table withIssues containers (done ++ rest) := by
  induction rest generalizing done with
  | nil => rw [List.append_nil]; rfl
  | cons b rest ih =>
      rw [List.foldl_cons, addBlock_draftOf, ih, List.append_assoc, List.singleton_append]

variable (table withIssues)

theorem draft_eq_draftOf (blocks : List Block) :
    draft table withIssues blocks =
      draftOf table withIssues (blocks.filter Block.isContainer) blocks := by
  have hopened : draftOf table withIssues (blocks.filter Block.isContainer) [] =
      ⟨(blocks.filter Block.isContainer).map (openEntry table withIssues), []⟩ := by
    have hclasses : (draftOf table withIssues (blocks.filter Block.isContainer) []).classes =
        (blocks.filter Block.isContainer).map (openEntry table withIssues) := by
      apply List.ext_getElem?
      intro j
      rw [getElem?_draftOf, List.getElem?_map]
      rfl
    rw [← hclasses]
    rfl
  rw [draft, ← hopened, foldl_addBlock_draftOf, List.nil_append]

/-- The entries of a request: one for each container, with the members of its index, and one more
for the members without an index, if there are any. -/
theorem classes_make (blocks : List Block) :
    (make table withIssues blocks).classes =
      ((blocks.filter Block.isContainer).zipIdx.map fun e => entryWith table withIssues e.1
        (filed (ownerIndex (blocks.filter Block.isContainer)) blocks (some e.2))) ++
      if filed (ownerIndex (blocks.filter Block.isContainer)) blocks none = [] then []
      else [⟨some "Unknown".toList,
        (filed (ownerIndex (blocks.filter Block.isContainer)) blocks none).map
          (violation table withIssues), none⟩] := by
  rw [make, draft_eq_draftOf, Draft.entries]
  simp only [draftOf, List.isEmpty_iff, List.map_eq_nil_iff]

end Loop

theorem filed_ownerIndex_perm (blocks : List Block) :
    (((blocks.filter Block.isContainer).zipIdx.flatMap fun e =>
        filed (ownerIndex (blocks.filter Block.isContainer)) blocks (some e.2)) ++
      filed (ownerIndex (blocks.filter Block.isContainer)) blocks none).Perm
        (blocks.filter fun m => !m.isContainer) := by
  let index := ownerIndex (blocks.filter Block.isContainer)
  have hkeys : ∀ m ∈ blocks.filter fun m => !m.isContainer, ∀ k ∈ index m,
      k ∈ List.range (blocks.filter Block.isContainer).length :=
    fun m _ k hk => List.mem_range.mpr (ownerIndex_lt hk)
  have hperm := filed_perm index List.nodup_range hkeys
  have hsnd : List.range (blocks.filter Block.isContainer).length =
      (blocks.filter Block.isContainer).zipIdx.map Prod.snd := by
    rw [List.zipIdx_map_snd, List.range_eq_range']
  have hsome : ∀ k, ((blocks.filter fun m => !m.isContainer).filter fun m => index m = some k) =
      filed index blocks (some k) := by
    intro k
    rw [List.filter_filter]
    refine List.filter_congr fun m _ => ?_
    rw [Bool.and_comm, beq_eq_decide]
  have hnone : ((blocks.filter fun m => !m.isContainer).filter fun m => (index m).isNone) =
      filed index blocks none := by
    rw [List.filter_filter]
    refine List.filter_congr fun m _ => ?_
    rw [Bool.and_comm]
    cases index m <;> rfl
  simp only [hsnd, List.flatMap_map, hsome, hnone] at hperm
  exact hperm

end Payload
end Request
end Refit

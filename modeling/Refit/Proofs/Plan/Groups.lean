/-
The groups that a plan starts from.

Every member that can be sent waits in exactly one queue: that of its owner, or
the last one where no container holds it.  Owners are told apart by their places
in the input, so containers with equal text and span keep separate queues.
-/
import Mathlib.Data.List.Nodup
import Refit.Proofs.Plan.Passes

namespace Refit

namespace Data
namespace Placed

theorem nodup_place_list {α : Type} (xs : List α) : ((list xs).map place).Nodup := by
  rw [map_place_list]
  exact List.nodup_range

end Placed
end Data

namespace Plan

variable {budget : Nat} {items : List Item}

theorem mem_containers {c : Item} : c ∈ containers items ↔ c ∈ items ∧ c.isContainer = true := by
  rw [containers, List.mem_filter]

theorem mem_members {m : Item} :
    m ∈ members budget items ↔ m ∈ items ∧ m.isContainer = false ∧ m.size ≤ budget := by
  rw [members, List.mem_filter, Bool.and_eq_true, Bool.not_eq_true', decide_eq_true_eq]

theorem owner?_mem {m c : Item} (h : owner? (containers items) m = some c) :
    c ∈ containers items ∧ c.span.contains m.span = true :=
  List.mem_filter.mp (Data.mem_of_least? h)

theorem ownedBy_iff {c m : Item} :
    ownedBy items c m = true ↔
      ∃ o, owner? (containers items) m = some o ∧ o.place = c.place := by
  rw [ownedBy, Option.any_eq_true]
  simp only [beq_iff_eq]

theorem unowned_iff {m : Item} :
    unowned items m = true ↔ owner? (containers items) m = none :=
  Option.isNone_iff_eq_none

/-! ## The queues -/

theorem eq_of_mem_unownedGroup {g : Group} (hg : g ∈ unownedGroup budget items) :
    g = ⟨none, (members budget items).filter (unowned items), false⟩ := by
  simp only [unownedGroup] at hg
  split at hg
  · exact absurd hg List.not_mem_nil
  · exact List.mem_singleton.mp hg

theorem flatMap_queue_unownedGroup :
    (unownedGroup budget items).flatMap Group.queue =
      (members budget items).filter (unowned items) := by
  simp only [unownedGroup]
  split
  · next h => rw [List.isEmpty_iff.mp h, List.flatMap_nil]
  · rw [List.flatMap_singleton]

theorem flatMap_queue_groups :
    (groups budget items).flatMap Group.queue =
      (containers items).flatMap (fun c => (members budget items).filter (ownedBy items c)) ++
        (members budget items).filter (unowned items) := by
  rw [groups, List.flatMap_append, flatMap_queue_unownedGroup, List.flatMap_map]
  rfl

theorem mem_queues {m : Item} :
    m ∈ (groups budget items).flatMap Group.queue ↔ m ∈ members budget items := by
  rw [flatMap_queue_groups, List.mem_append, List.mem_flatMap]
  constructor
  · rintro (⟨c, _, hm⟩ | hm)
    · exact List.mem_of_mem_filter hm
    · exact List.mem_of_mem_filter hm
  · intro hm
    cases howner : owner? (containers items) m with
    | none => exact .inr (List.mem_filter.mpr ⟨hm, unowned_iff.mpr howner⟩)
    | some c =>
        refine .inl ⟨c, (owner?_mem howner).1, List.mem_filter.mpr ⟨hm, ?_⟩⟩
        exact ownedBy_iff.mpr ⟨c, howner, rfl⟩

/-- No two containers own the same member. -/
theorem queues_disjoint (hnd : (items.map Data.Placed.place).Nodup) :
    (containers items).Pairwise fun c d =>
      ((members budget items).filter (ownedBy items c)).Disjoint
        ((members budget items).filter (ownedBy items d)) := by
  have hplaces : (containers items).Pairwise fun c d => c.place ≠ d.place := by
    rw [containers]
    exact (List.pairwise_map.mp hnd).filter _
  refine hplaces.imp ?_
  intro c d hne m hc hd
  obtain ⟨o, howner, hoc⟩ := ownedBy_iff.mp (List.mem_filter.mp hc).2
  obtain ⟨o', howner', hod⟩ := ownedBy_iff.mp (List.mem_filter.mp hd).2
  rw [howner] at howner'
  obtain rfl : o = o' := Option.some.inj howner'
  exact hne (hoc.symm.trans hod)

theorem nodup_queues (hnd : (items.map Data.Placed.place).Nodup) :
    ((groups budget items).flatMap Group.queue).Nodup := by
  have hitems : items.Nodup := List.Nodup.of_map _ hnd
  have hmembers : (members budget items).Nodup := hitems.filter _
  rw [flatMap_queue_groups]
  refine List.Nodup.append ?_ (hmembers.filter _) ?_
  · exact List.nodup_flatMap.mpr ⟨fun c _ => hmembers.filter _, queues_disjoint hnd⟩
  · intro m hm hm'
    obtain ⟨c, _, hc⟩ := List.mem_flatMap.mp hm
    obtain ⟨o, howner, _⟩ := ownedBy_iff.mp (List.mem_filter.mp hc).2
    have hnone := unowned_iff.mp (List.mem_filter.mp hm').2
    rw [howner] at hnone
    exact Option.some_ne_none o hnone

/-! ## The leaders -/

theorem mem_groups_of_container {c : Item} (hc : c ∈ containers items) :
    containerGroup budget items c ∈ groups budget items := by
  rw [groups, List.mem_append]
  exact .inl (List.mem_map_of_mem hc)

theorem container_of_mem_groups {g : Group} {c : Item} (hg : g ∈ groups budget items)
    (hc : g.container = some c) : c ∈ containers items := by
  rw [groups, List.mem_append, List.mem_map] at hg
  rcases hg with ⟨d, hd, rfl⟩ | hg
  · obtain rfl : d = c := Option.some.inj hc
    exact hd
  · rw [eq_of_mem_unownedGroup hg] at hc
    exact absurd hc.symm (Option.some_ne_none c)

/-- The leaders are the containers of the input, in its order. -/
theorem leaders_groups :
    ((groups budget items).map Group.container).flatMap Option.toList = containers items := by
  have hlast : ((unownedGroup budget items).map Group.container).flatMap Option.toList = [] := by
    rw [List.flatMap_eq_nil_iff]
    intro c hc
    obtain ⟨g, hg, rfl⟩ := List.mem_map.mp hc
    rw [eq_of_mem_unownedGroup hg]
    rfl
  rw [groups, List.map_append, List.flatMap_append, hlast, List.append_nil, List.map_map,
    List.flatMap_map]
  exact List.flatMap_singleton' _

theorem fits_of_mem_groups {g : Group} (hg : g ∈ groups budget items) : g.Fits budget := by
  have hmember : ∀ m ∈ g.queue, m ∈ members budget items := fun m hm =>
    mem_queues.mp (List.mem_flatMap.mpr ⟨g, hg, hm⟩)
  refine ⟨fun c hc => (mem_containers.mp (container_of_mem_groups hg hc)).2,
    fun m hm => (mem_members.mp (hmember m hm)).2, fun howed => ?_⟩
  rw [groups, List.mem_append, List.mem_map] at hg
  rcases hg with ⟨c, _, rfl⟩ | hg
  · rw [containerGroup, Bool.and_eq_true, decide_eq_true_eq] at howed
    exact ⟨Option.some_ne_none c, howed.2⟩
  · rw [eq_of_mem_unownedGroup hg] at howed
    exact absurd howed Bool.false_ne_true

end Plan
end Refit

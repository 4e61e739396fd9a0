/-
Passes and runs of passes, as derivations.

`Swept` builds a pass from the steps of its visits and `Filled` a run from its
passes.  A fact about whole runs is then one induction over `Filled`, with one
induction over `Swept` for what a single pass does.  `filled_fillAll` says that
packing always follows such a derivation: every pass over a pending group sends
something, so the work runs out before the fuel and nothing is left stranded.
-/
import Refit.Proofs.Plan.Visit

namespace Refit
namespace Plan

/-- The passes over some groups when the batch holds `done` already. -/
inductive Swept (budget : Nat) : List Item → List Group → Pass → Prop
  | nil {done : List Item} : Swept budget done [] []
  | cons {done : List Item} {g : Group} {gs : List Group} {v : Visit} {p : Pass}
      (step : Step budget done g v) (rest : Swept budget (done ++ v.blocks) gs p) :
      Swept budget done (g :: gs) (v :: p)

theorem isEmpty_append (a b : List Item) : (a ++ b).isEmpty = (a.isEmpty && b.isEmpty) := by
  cases a <;> rfl

theorem swept_sweep (budget : Nat) (done : List Item) (gs : List Group) :
    Swept budget done gs (sweep budget (totalSize done) done.isEmpty gs) := by
  induction gs generalizing done with
  | nil => exact .nil
  | cons g gs ih =>
      have step := step_visit budget done g
      have hrest := ih (done ++ (g.visit budget (totalSize done) done.isEmpty).blocks)
      rw [totalSize_append, ← step.cost_eq, isEmpty_append] at hrest
      exact .cons step hrest

namespace Swept

variable {budget : Nat} {done : List Item} {gs : List Group} {p : Pass}

theorem eq_sweep (h : Swept budget done gs p) :
    p = sweep budget (totalSize done) done.isEmpty gs := by
  induction h with
  | nil => rfl
  | @cons done g gs v p step rest ih =>
      rw [totalSize_append, ← step.cost_eq, isEmpty_append] at ih
      rw [sweep, ← step.eq_visit, ih]

theorem fits_groups (h : Swept budget done gs p) (hgs : ∀ g ∈ gs, g.Fits budget) :
    ∀ g ∈ Pass.groups p, g.Fits budget := by
  induction h with
  | nil => exact hgs
  | cons step _ ih =>
      rw [List.forall_mem_cons] at hgs
      rw [Pass.groups, List.map_cons, List.forall_mem_cons]
      exact ⟨step.fits_group hgs.1, ih hgs.2⟩

theorem totalSize_le (h : Swept budget done gs p) (hgs : ∀ g ∈ gs, g.Fits budget)
    (hd : totalSize done ≤ budget) : totalSize (done ++ Pass.blocks p) ≤ budget := by
  induction h with
  | nil => simpa [Pass.blocks] using hd
  | cons step _ ih =>
      rw [List.forall_mem_cons] at hgs
      rw [Pass.blocks, List.flatMap_cons, ← List.append_assoc]
      exact ih hgs.2 (step.totalSize_le hgs.1 hd)

/-- A pass moves members from the queues to the batch and loses none. -/
theorem count_member (h : Swept budget done gs p) (hgs : ∀ g ∈ gs, g.Fits budget)
    {i : Item} (hi : i.isContainer = false) :
    (Pass.blocks p).count i + ((Pass.groups p).flatMap Group.queue).count i =
      (gs.flatMap Group.queue).count i := by
  induction h with
  | nil => rfl
  | cons step _ ih =>
      rw [List.forall_mem_cons] at hgs
      have hstep := step.count_member hgs.1 hi
      have hrest := ih hgs.2
      simp only [Pass.blocks, Pass.groups, List.map_cons, List.flatMap_cons,
        List.count_append] at hrest ⊢
      omega

theorem leader_of_mem (h : Swept budget done gs p) (hgs : ∀ g ∈ gs, g.Fits budget)
    {c : Item} (hc : c.isContainer = true) (hm : c ∈ Pass.blocks p) :
    (∃ g ∈ gs, g.container = some c) ∧ c.size ≤ budget := by
  induction h with
  | nil => exact absurd hm List.not_mem_nil
  | @cons _ g _ _ _ step _ ih =>
      rw [List.forall_mem_cons] at hgs
      rw [Pass.blocks, List.flatMap_cons, List.mem_append] at hm
      rcases hm with hm | hm
      · obtain ⟨hlead, hsize⟩ := step.leader_of_mem hgs.1 hc hm
        exact ⟨⟨g, List.mem_cons_self, hlead⟩, hsize⟩
      · obtain ⟨⟨g', hg', hlead⟩, hsize⟩ := ih hgs.2 hm
        exact ⟨⟨g', List.mem_cons_of_mem _ hg', hlead⟩, hsize⟩

theorem container_groups (h : Swept budget done gs p) :
    (Pass.groups p).map Group.container = gs.map Group.container := by
  induction h with
  | nil => rfl
  | cons step _ ih =>
      rw [Pass.groups] at ih
      rw [Pass.groups, List.map_cons, List.map_cons, List.map_cons, step.container_eq, ih]

/-- A pass adds leaders in the order of their groups. -/
theorem containers_sublist (h : Swept budget done gs p) (hgs : ∀ g ∈ gs, g.Fits budget) :
    ((Pass.blocks p).filter Item.isContainer).Sublist
      ((gs.map Group.container).flatMap Option.toList) := by
  induction h with
  | nil => exact List.nil_sublist _
  | cons step _ ih =>
      rw [List.forall_mem_cons] at hgs
      rw [Pass.blocks, List.flatMap_cons, List.filter_append, List.map_cons, List.flatMap_cons]
      exact (step.containers_sublist hgs.1).append (ih hgs.2)

theorem owed_or_mem (h : Swept budget done gs p) {g : Group} {c : Item} (hg : g ∈ gs)
    (howed : g.owed = true) (hc : g.container = some c) :
    c ∈ Pass.blocks p ∨ ∃ g' ∈ Pass.groups p, g'.owed = true ∧ g'.container = some c := by
  induction h with
  | nil => exact absurd hg List.not_mem_nil
  | @cons _ _ _ v _ step _ ih =>
      rw [Pass.blocks, List.flatMap_cons, List.mem_append, Pass.groups, List.map_cons]
      rcases List.mem_cons.mp hg with rfl | hg
      · rcases step.owed_or_mem howed hc with hstill | hm
        · exact .inr ⟨v.group, List.mem_cons_self, hstill, step.container_eq.trans hc⟩
        · exact .inl (.inl hm)
      · rcases ih hg with hm | ⟨g', hg', hstill⟩
        · exact .inl (.inr hm)
        · exact .inr ⟨g', List.mem_cons_of_mem _ hg', hstill⟩

theorem work_le (h : Swept budget done gs p) : work (Pass.groups p) ≤ work gs := by
  induction h with
  | nil => exact Nat.le_refl _
  | cons step _ ih =>
      have hstep := step.work_le
      rw [Pass.groups, List.map_cons, work_cons, work_cons _ (_ : List Group)]
      exact Nat.add_le_add hstep ih

theorem work_lt (h : Swept budget done gs p) (hp : Pass.blocks p ≠ []) :
    work (Pass.groups p) < work gs := by
  induction h with
  | nil => exact absurd rfl hp
  | @cons _ g gs v p step rest ih =>
      have hwork : work (Pass.groups (v :: p)) = work [v.group] + work (Pass.groups p) := by
        rw [Pass.groups, List.map_cons, work_cons]
        rfl
      rw [hwork, work_cons g gs]
      by_cases hv : v.blocks = []
      · rw [Pass.blocks, List.flatMap_cons, hv, List.nil_append] at hp
        exact Nat.add_lt_add_of_le_of_lt step.work_le (ih hp)
      · exact Nat.add_lt_add_of_lt_of_le (step.work_lt hv) rest.work_le

/-- A pass that starts on an empty batch sends something if any group is pending. -/
theorem blocks_ne_nil (h : Swept budget done gs p) (hd : done = [])
    (hgs : ∀ g ∈ gs, g.Fits budget) (hp : gs.any Group.pending = true) :
    Pass.blocks p ≠ [] := by
  induction h with
  | nil => exact absurd hp Bool.false_ne_true
  | @cons done g gs v p step rest ih =>
      subst hd
      rw [List.forall_mem_cons] at hgs
      rw [List.any_cons, Bool.or_eq_true] at hp
      intro hnil
      obtain ⟨hv, hp'⟩ := List.append_eq_nil_iff.mp hnil
      have hquiet : ¬ g.pending = true := fun hg => step.blocks_ne_nil hgs.1 hg hv
      exact ih (by rw [hv]; rfl) hgs.2 (hp.resolve_left hquiet) hp'

end Swept

/-! ## Runs of passes -/

/-- The runs of passes over some groups: each sends something, and the last
leaves no group pending. -/
inductive Filled (budget : Nat) : List Group → List Pass → Prop
  | done {gs : List Group} (quiet : gs.any Group.pending = false) : Filled budget gs []
  | pass {gs : List Group} {p : Pass} {ps : List Pass}
      (swept : Swept budget [] gs p) (sends : Pass.blocks p ≠ [])
      (rest : Filled budget (Pass.groups p) ps) : Filled budget gs (p :: ps)

theorem work_pos {gs : List Group} (h : gs.any Group.pending = true) : 0 < work gs := by
  induction gs with
  | nil => exact absurd h Bool.false_ne_true
  | cons g gs ih =>
      rw [work_cons, work_singleton]
      rw [List.any_cons, Bool.or_eq_true] at h
      rcases h with h | h
      · rw [Group.pending, Bool.or_eq_true] at h
        rcases h with hq | howed
        · have hpos : 0 < g.queue.length := by
            rw [List.length_pos_iff]
            simpa using hq
          omega
        · rw [howed, if_pos rfl]
          omega
      · have := ih h
        omega

/-- Packing follows a derivation, and strands nothing. -/
theorem filled_fillAll {budget fuel : Nat} {gs : List Group}
    (hgs : ∀ g ∈ gs, g.Fits budget) (hfuel : work gs ≤ fuel) :
    Filled budget gs (fillAll budget fuel gs).passes ∧
      (fillAll budget fuel gs).stranded = none := by
  induction fuel generalizing gs with
  | zero =>
      have hquiet : gs.any Group.pending = false := by
        rw [← Bool.not_eq_true]
        intro h
        have := work_pos h
        omega
      rw [fillAll, hquiet]
      exact ⟨.done hquiet, rfl⟩
  | succ fuel ih =>
      by_cases hp : gs.any Group.pending = true
      · have hswept := swept_sweep budget [] gs
        have hsends := hswept.blocks_ne_nil rfl hgs hp
        have hless := hswept.work_lt hsends
        have hrest := ih (hswept.fits_groups hgs) (by omega)
        rw [fillAll, if_pos hp]
        simp only [totalSize_nil, List.isEmpty_nil] at hsends hrest hswept ⊢
        rw [if_neg (by rwa [List.isEmpty_iff])]
        exact ⟨.pass hswept hsends hrest.1, hrest.2⟩
      · rw [Bool.not_eq_true] at hp
        rw [fillAll, hp]
        exact ⟨.done hp, rfl⟩

theorem flatMap_queue_eq_nil {gs : List Group} (h : gs.any Group.pending = false) :
    gs.flatMap Group.queue = [] := by
  rw [List.flatMap_eq_nil_iff]
  intro g hg
  have hquiet : g.queue = [] ∧ g.owed = false := by
    simpa [Group.pending] using List.any_eq_false.mp h g hg
  exact hquiet.1

namespace Filled

variable {budget : Nat} {gs : List Group} {ps : List Pass}

theorem batch_within (h : Filled budget gs ps) (hgs : ∀ g ∈ gs, g.Fits budget) :
    ∀ p ∈ ps, Pass.blocks p ≠ [] ∧ totalSize (Pass.blocks p) ≤ budget := by
  induction h with
  | done => exact fun p hp => absurd hp List.not_mem_nil
  | pass swept sends _ ih =>
      rw [List.forall_mem_cons]
      exact ⟨⟨sends, swept.totalSize_le hgs (Nat.zero_le budget)⟩, ih (swept.fits_groups hgs)⟩

/-- Over a whole run every member is sent as often as it was queued. -/
theorem count_member (h : Filled budget gs ps) (hgs : ∀ g ∈ gs, g.Fits budget)
    {i : Item} (hi : i.isContainer = false) :
    (ps.flatMap Pass.blocks).count i = (gs.flatMap Group.queue).count i := by
  induction h with
  | done quiet => rw [flatMap_queue_eq_nil quiet, List.flatMap_nil]
  | pass swept sends _ ih =>
      rw [List.flatMap_cons, List.count_append, ih (swept.fits_groups hgs)]
      exact swept.count_member hgs hi

theorem leader_of_mem (h : Filled budget gs ps) (hgs : ∀ g ∈ gs, g.Fits budget)
    {c : Item} (hc : c.isContainer = true) (hm : c ∈ ps.flatMap Pass.blocks) :
    (∃ g ∈ gs, g.container = some c) ∧ c.size ≤ budget := by
  induction h with
  | done => exact absurd hm List.not_mem_nil
  | @pass gs p _ swept sends _ ih =>
      rw [List.flatMap_cons, List.mem_append] at hm
      rcases hm with hm | hm
      · exact swept.leader_of_mem hgs hc hm
      · obtain ⟨⟨g, hg, hlead⟩, hsize⟩ := ih (swept.fits_groups hgs) hm
        refine ⟨?_, hsize⟩
        have hlead' : some c ∈ (Pass.groups p).map Group.container :=
          List.mem_map.mpr ⟨g, hg, hlead⟩
        rw [swept.container_groups] at hlead'
        exact List.mem_map.mp hlead'

/-- Every batch lists its containers in the order of the groups. -/
theorem containers_sublist (h : Filled budget gs ps) (hgs : ∀ g ∈ gs, g.Fits budget) :
    ∀ p ∈ ps, ((Pass.blocks p).filter Item.isContainer).Sublist
      ((gs.map Group.container).flatMap Option.toList) := by
  induction h with
  | done => exact fun p hp => absurd hp List.not_mem_nil
  | pass swept sends _ ih =>
      have hrest := ih (swept.fits_groups hgs)
      rw [swept.container_groups] at hrest
      rw [List.forall_mem_cons]
      exact ⟨swept.containers_sublist hgs, hrest⟩

/-- A leader that is owed at the start is sent in some batch. -/
theorem mem_of_owed (h : Filled budget gs ps) {g : Group} {c : Item} (hg : g ∈ gs)
    (howed : g.owed = true) (hc : g.container = some c) : c ∈ ps.flatMap Pass.blocks := by
  induction h generalizing g with
  | done quiet =>
      have hquiet := List.any_eq_false.mp quiet g hg
      exact absurd (by rw [Group.pending, howed, Bool.or_true]) hquiet
  | pass swept sends _ ih =>
      rw [List.flatMap_cons, List.mem_append]
      rcases swept.owed_or_mem hg howed hc with hm | ⟨g', hg', howed', hc'⟩
      · exact .inl hm
      · exact .inr (ih hg' howed' hc')

end Filled

end Plan
end Refit

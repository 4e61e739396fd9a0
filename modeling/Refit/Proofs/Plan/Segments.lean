/-
Batches as sequences of segments.

A pass comes to the groups in the order of their containers, with the unowned
members last, and what it adds for one group is a segment of the batch.  The
shapes of segments are read off `Step`.  Two facts need the whole run: a container
that is still owed has not been in any batch before, and what is sent of a queue
and what is left of it make up the queue, so that members leave it in order.
-/
import Refit.Proofs.Plan.Conservation

namespace Refit
namespace Plan

variable {budget : Nat} {items : List Item}

/-! ## The order of groups -/

/-- Containers come by their places, the unowned members come last. -/
def Precedes : Option Item → Option Item → Prop
  | some c, some d => c.place < d.place
  | some _, none => True
  | none, _ => False

theorem Precedes.ne {o o' : Option Item} (h : Precedes o o') : o ≠ o' := by
  rintro rfl
  cases o with
  | none => exact h
  | some c => exact Nat.lt_irrefl c.place h

theorem container_ne_of_precedes {g : Group} {gs : List Group}
    (order : ((g :: gs).map Group.container).Pairwise Precedes) :
    ∀ g' ∈ gs, g'.container ≠ g.container := by
  rw [List.map_cons, List.pairwise_cons] at order
  exact fun g' hg' => ((order.1 g'.container (List.mem_map_of_mem hg')).ne).symm

theorem precedes_leaders (budget : Nat) (blocks : List Block) :
    ((groups budget (Data.Placed.list blocks)).map Group.container).Pairwise Precedes := by
  have hcontainers : (containers (Data.Placed.list blocks)).Pairwise fun c d =>
      c.place < d.place := by
    rw [containers]
    exact (Data.Placed.pairwise_place_list blocks).filter _
  rw [groups, List.map_append, List.map_map, List.pairwise_append]
  refine ⟨List.pairwise_map.mpr hcontainers, ?_, ?_⟩
  · simp only [unownedGroup]
    split
    · exact List.Pairwise.nil
    · exact List.pairwise_singleton _ _
  · intro o ho o' ho'
    obtain ⟨c, -, rfl⟩ := List.mem_map.mp ho
    obtain ⟨g, hg, rfl⟩ := List.mem_map.mp ho'
    rw [eq_of_mem_unownedGroup hg]
    trivial

/-! ## Whose a member is -/

/-- Whether a block is a member that belongs to the group of `o`. -/
def belongs (items : List Item) (o : Option Item) (m : Item) : Bool :=
  !m.isContainer && owner? (containers items) m == o

theorem belongs_iff {o : Option Item} {m : Item} :
    belongs items o m = true ↔ m.isContainer = false ∧ owner? (containers items) m = o := by
  simp [belongs]

theorem ownedBy_eq (hnd : (items.map Data.Placed.place).Nodup) {c m : Item}
    (hc : c ∈ containers items) :
    ownedBy items c m = (owner? (containers items) m == some c) := by
  rw [Bool.eq_iff_iff, ownedBy_iff, beq_iff_eq]
  constructor
  · rintro ⟨o, howner, hplace⟩
    have ho := (mem_containers.mp (owner?_mem howner).1).1
    rw [howner, List.inj_on_of_nodup_map hnd ho (mem_containers.mp hc).1 hplace]
  · intro howner
    exact ⟨c, howner, rfl⟩

/-- At first a queue holds the members that belong to its group, in input order. -/
theorem queue_eq_filter (hnd : (items.map Data.Placed.place).Nodup) {g : Group}
    (hg : g ∈ groups budget items) :
    g.queue = (members budget items).filter (belongs items g.container) := by
  rw [groups, List.mem_append, List.mem_map] at hg
  rcases hg with ⟨c, hc, rfl⟩ | hg
  · apply List.filter_congr
    intro m hm
    simp [containerGroup, belongs, ownedBy_eq hnd hc, (mem_members.mp hm).2.1]
  · rw [eq_of_mem_unownedGroup hg]
    apply List.filter_congr
    intro m hm
    rw [Bool.eq_iff_iff, unowned_iff, belongs_iff]
    simp [(mem_members.mp hm).2.1]

/-! ## Groups between two passes -/

/-- A group as it stands when `sent` has gone out: its members are its container's
own, and its container is owed only if it has findings and is not among `sent`. -/
structure Group.Sound (budget : Nat) (items sent : List Item) (g : Group) : Prop where
  fits : g.Fits budget
  leader : ∀ c ∈ g.container, c ∈ containers items
  owned : ∀ m ∈ g.queue, m ∈ members budget items ∧ owner? (containers items) m = g.container
  owed : g.owed = true → ∀ c ∈ g.container, c.hasFindings = true ∧ c ∉ sent

theorem sound_of_mem_groups (hnd : (items.map Data.Placed.place).Nodup) {g : Group}
    (hg : g ∈ groups budget items) : g.Sound budget items [] := by
  refine ⟨fits_of_mem_groups hg, fun c hc => container_of_mem_groups hg hc, ?_, ?_⟩
  · intro m hm
    rw [queue_eq_filter hnd hg, List.mem_filter, belongs_iff] at hm
    exact ⟨hm.1, hm.2.2⟩
  · intro howed c hc
    rw [groups, List.mem_append, List.mem_map] at hg
    rcases hg with ⟨d, -, rfl⟩ | hg
    · obtain rfl : d = c := Option.some.inj hc
      rw [containerGroup, Bool.and_eq_true] at howed
      exact ⟨howed.1, List.not_mem_nil⟩
    · rw [eq_of_mem_unownedGroup hg] at howed
      exact absurd howed Bool.false_ne_true

namespace Step

variable {done : List Item} {g : Group} {v : Visit}

theorem mem_queue (h : Step budget done g v) {m : Item} (hm : m ∈ v.group.queue) :
    m ∈ g.queue := by
  cases h with
  | idle | nothing => exact hm
  | run queue =>
      rw [queue]
      exact List.mem_append_right _ hm
  | lone queue =>
      rw [queue]
      exact List.mem_cons_of_mem _ hm

theorem owed_before (h : Step budget done g v) (howed : v.group.owed = true) : g.owed = true := by
  cases h with
  | idle | nothing | lone => exact howed
  | run => exact absurd howed Bool.false_ne_true

/-- A leader that stays owed is not in what the visit adds. -/
theorem notMem_of_owed (h : Step budget done g v) (hg : g.Fits budget)
    (howed : v.group.owed = true) {c : Item} (hc : g.container = some c) : c ∉ v.blocks := by
  cases h with
  | idle | nothing => exact List.not_mem_nil
  | run => exact absurd howed Bool.false_ne_true
  | @lone m rest queue =>
      intro hm
      obtain rfl : c = m := List.mem_singleton.mp hm
      have hcontainer := hg.leader c hc
      have hmember := (hg.member c (by rw [queue]; exact List.mem_cons_self)).1
      rw [hcontainer] at hmember
      exact Bool.false_ne_true hmember.symm

/-- What is added of a queue and what is left of it make up the queue. -/
theorem filter_blocks (h : Step budget done g v) {p : Item → Bool}
    (hp : ∀ c ∈ g.container, p c = false) :
    v.blocks.filter p ++ v.group.queue.filter p = g.queue.filter p := by
  cases h with
  | idle | nothing => rfl
  | run queue =>
      have hlead : g.container.toList.filter p = [] := by
        rw [List.filter_eq_nil_iff]
        intro c hc
        simp [hp c (Option.mem_toList.mp hc)]
      simp only [Visit.blocks, queue, List.filter_append, hlead, List.nil_append]
  | lone queue =>
      simp only [Visit.blocks, queue]
      exact (List.filter_append ..).symm

end Step

namespace Swept

variable {done sent : List Item} {gs : List Group} {p : Pass}

theorem exists_before (h : Swept budget done gs p) :
    ∀ g' ∈ Pass.groups p, ∃ g ∈ gs, g'.container = g.container ∧
      (∀ m ∈ g'.queue, m ∈ g.queue) ∧ (g'.owed = true → g.owed = true) := by
  induction h with
  | nil => exact fun g' hg' => absurd hg' List.not_mem_nil
  | @cons done g gs v p step _ ih =>
      rw [Pass.groups, List.map_cons, List.forall_mem_cons]
      refine ⟨⟨g, List.mem_cons_self, step.container_eq, fun m hm => step.mem_queue hm,
        step.owed_before⟩, fun g' hg' => ?_⟩
      obtain ⟨g, hg, hbefore⟩ := ih g' hg'
      exact ⟨g, List.mem_cons_of_mem _ hg, hbefore⟩

/-- A leader that is owed after a pass is not in its batch: it could only have come
from its own group. -/
theorem notMem_of_owed (h : Swept budget done gs p) (hgs : ∀ g ∈ gs, g.Fits budget)
    (order : (gs.map Group.container).Pairwise Precedes) :
    ∀ g' ∈ Pass.groups p, g'.owed = true → ∀ c ∈ g'.container, c ∉ Pass.blocks p := by
  induction h with
  | nil => exact fun g' hg' => absurd hg' List.not_mem_nil
  | @cons done g gs v p step rest ih =>
      have hother := container_ne_of_precedes order
      rw [List.forall_mem_cons] at hgs
      rw [List.map_cons, List.pairwise_cons] at order
      rw [Pass.groups, List.map_cons, List.forall_mem_cons]
      constructor
      · intro howed c hc hm
        have hlead : g.container = some c := step.container_eq.symm.trans hc
        have hcontainer := hgs.1.leader c hlead
        rw [Pass.blocks, List.flatMap_cons, List.mem_append] at hm
        rcases hm with hm | hm
        · exact step.notMem_of_owed hgs.1 howed hlead hm
        · obtain ⟨⟨g', hg', hlead'⟩, -⟩ := rest.leader_of_mem hgs.2 hcontainer hm
          exact hother g' hg' (hlead'.trans hlead.symm)
      · intro g' hg' howed c hc hm
        obtain ⟨g₀, hg₀, hsame, -⟩ := rest.exists_before g' hg'
        have hlead : g₀.container = some c := hsame.symm.trans hc
        rw [Pass.blocks, List.flatMap_cons, List.mem_append] at hm
        rcases hm with hm | hm
        · have hcontainer := (hgs.2 g₀ hg₀).leader c hlead
          have hmine := (step.leader_of_mem hgs.1 hcontainer hm).1
          exact hother g₀ hg₀ (hlead.trans hmine.symm)
        · exact ih hgs.2 order.2 g' hg' howed c hc hm

theorem sound_groups (h : Swept budget done gs p)
    (hgs : ∀ g ∈ gs, g.Sound budget items sent)
    (order : (gs.map Group.container).Pairwise Precedes) :
    ∀ g' ∈ Pass.groups p, g'.Sound budget items (sent ++ Pass.blocks p) := by
  intro g' hg'
  have hfits : ∀ g ∈ gs, g.Fits budget := fun g hg => (hgs g hg).fits
  obtain ⟨g, hg, hsame, hqueue, howed⟩ := h.exists_before g' hg'
  have hsound := hgs g hg
  refine ⟨h.fits_groups hfits g' hg', ?_, ?_, ?_⟩
  · rw [hsame]
    exact hsound.leader
  · intro m hm
    rw [hsame]
    exact hsound.owned m (hqueue m hm)
  · intro howed' c hc
    have hbefore := hsound.owed (howed howed') c (hsame ▸ hc)
    refine ⟨hbefore.1, ?_⟩
    rw [List.mem_append, not_or]
    exact ⟨hbefore.2, h.notMem_of_owed hfits order g' hg' howed' c hc⟩

end Swept

/-! ## Segments -/

structure Segment where
  owner : Option Item
  blocks : List Item
  deriving Repr, DecidableEq

/-- The segments that batches are made of, where `earlier` went out before the
batch and `first` says that the segment opens it. -/
inductive Segment.Shape (budget : Nat) (items earlier : List Item) (first : Prop) : Segment → Prop
  | led {c : Item} {ms : List Item} (container : c ∈ containers items)
      (owned : ∀ m ∈ ms, m ∈ members budget items ∧ owner? (containers items) m = some c)
      (sends : ms ≠ [] ∨ c.hasFindings = true ∧ c ∉ earlier) :
      Shape budget items earlier first ⟨some c, c :: ms⟩
  | lone {c m : Item} (container : c ∈ containers items)
      (owned : m ∈ members budget items ∧ owner? (containers items) m = some c)
      (opens : first) (apart : budget < c.size + m.size) :
      Shape budget items earlier first ⟨some c, [m]⟩
  | unowned {ms : List Item} (sends : ms ≠ [])
      (unowned : ∀ m ∈ ms, m ∈ members budget items ∧ owner? (containers items) m = none) :
      Shape budget items earlier first ⟨none, ms⟩

theorem Segment.Shape.imp {earlier : List Item} {first first' : Prop} {s : Segment}
    (h : s.Shape budget items earlier first) (himp : first → first') :
    s.Shape budget items earlier first' := by
  cases h with
  | led container owned sends => exact .led container owned sends
  | lone container owned opens apart => exact .lone container owned (himp opens) apart
  | unowned sends unowned => exact .unowned sends unowned

def Visit.segment? (v : Visit) : Option Segment :=
  if v.blocks.isEmpty then none else some ⟨v.group.container, v.blocks⟩

def Pass.segments (p : Pass) : List Segment := p.filterMap Visit.segment?

theorem segments_cons (v : Visit) (p : Pass) :
    Pass.segments (v :: p) =
      if v.blocks = [] then Pass.segments p
      else ⟨v.group.container, v.blocks⟩ :: Pass.segments p := by
  by_cases hv : v.blocks = []
  · simp [Pass.segments, Visit.segment?, hv]
  · simp [Pass.segments, Visit.segment?, hv]

theorem flatMap_segments (p : Pass) : (Pass.segments p).flatMap Segment.blocks = Pass.blocks p := by
  induction p with
  | nil => rfl
  | cons v p ih =>
      rw [segments_cons, Pass.blocks, List.flatMap_cons]
      by_cases hv : v.blocks = []
      · rw [if_pos hv, ih, hv]
        rfl
      · rw [if_neg hv, List.flatMap_cons, ih]
        rfl

theorem Step.shape {done sent : List Item} {g : Group} {v : Visit} (h : Step budget done g v)
    (hg : g.Sound budget items sent) (hv : v.blocks ≠ []) :
    Segment.Shape budget items sent (done = []) ⟨v.group.container, v.blocks⟩ := by
  cases h with
  | idle | nothing => exact absurd rfl hv
  | @run ms rest queue sends =>
      have hms : ∀ m ∈ ms, m ∈ members budget items ∧
          owner? (containers items) m = g.container := by
        intro m hm
        apply hg.owned
        rw [queue]
        exact List.mem_append_left _ hm
      show Segment.Shape _ _ _ _ ⟨g.container, g.container.toList ++ ms⟩
      cases hc : g.container with
      | none =>
          have hnotOwed : ¬ g.owed = true := fun howed => (hg.fits.owed howed).1 hc
          rw [hc] at hms
          exact .unowned (sends.resolve_right hnotOwed) hms
      | some c =>
          rw [hc] at hms
          exact .led (hg.leader c hc) hms (sends.imp_right fun howed => hg.owed howed c hc)
  | @lone m rest queue first owed apart =>
      have hm : m ∈ g.queue := by
        rw [queue]
        exact List.mem_cons_self
      have howned := hg.owned m hm
      have hsize := (hg.fits.member m hm).2
      show Segment.Shape _ _ _ _ ⟨g.container, [m]⟩
      rw [Group.headerSize] at apart
      cases hc : g.container with
      | none =>
          -- Without a container to repeat, a member that fits alone is never too large.
          simp only [hc, Option.map_none, Option.getD_none] at apart
          omega
      | some c =>
          rw [hc] at howned apart
          exact .lone (hg.leader c hc) howned first apart

namespace Swept

variable {done sent : List Item} {gs : List Group} {p : Pass}

theorem owners_sublist (h : Swept budget done gs p) :
    ((Pass.segments p).map Segment.owner).Sublist (gs.map Group.container) := by
  induction h with
  | nil => exact List.Sublist.refl _
  | @cons done g gs v p step _ ih =>
      rw [segments_cons, List.map_cons]
      by_cases hv : v.blocks = []
      · rw [if_pos hv]
        exact ih.cons _
      · rw [if_neg hv, List.map_cons, step.container_eq]
        exact ih.cons_cons _

/-- A segment opens its batch if it is the first and nothing was there before. -/
theorem shape (h : Swept budget done gs p) (hgs : ∀ g ∈ gs, g.Sound budget items sent) :
    ∀ k (s : Segment), (Pass.segments p)[k]? = some s →
      s.Shape budget items sent (done = [] ∧ k = 0) := by
  induction h with
  | nil => exact fun k s hs => absurd hs (by simp [Pass.segments])
  | @cons done g gs v p step _ ih =>
      rw [List.forall_mem_cons] at hgs
      intro k s hs
      rw [segments_cons] at hs
      by_cases hv : v.blocks = []
      · rw [if_pos hv] at hs
        refine (ih hgs.2 k s hs).imp ?_
        rintro ⟨hdone, hk⟩
        exact ⟨(List.append_eq_nil_iff.mp hdone).1, hk⟩
      · rw [if_neg hv] at hs
        cases k with
        | zero =>
            obtain rfl := Option.some.inj hs
            exact (step.shape hgs.1 hv).imp fun hdone => ⟨hdone, rfl⟩
        | succ k =>
            refine (ih hgs.2 k s hs).imp ?_
            rintro ⟨hdone, -⟩
            exact absurd (List.append_eq_nil_iff.mp hdone).2 hv

end Swept

/-! ## Members in order -/

section Order

variable {sent : List Item} {gs : List Group} {o : Option Item}

theorem filter_queue_eq_nil {g : Group} (hg : g.Sound budget items sent) (hne : g.container ≠ o) :
    g.queue.filter (belongs items o) = [] := by
  rw [List.filter_eq_nil_iff]
  intro m hm
  simp [belongs, (hg.owned m hm).2, hne]

theorem filter_queue_eq_self {g : Group} (hg : g.Sound budget items sent) :
    g.queue.filter (belongs items g.container) = g.queue := by
  rw [List.filter_eq_self]
  intro m hm
  simp [belongs, (hg.owned m hm).2, (hg.fits.member m hm).1]

theorem filter_queues_eq_nil (hgs : ∀ g ∈ gs, g.Sound budget items sent)
    (hne : ∀ g ∈ gs, g.container ≠ o) : (gs.flatMap Group.queue).filter (belongs items o) = [] := by
  rw [List.filter_flatMap, List.flatMap_eq_nil_iff]
  exact fun g hg => filter_queue_eq_nil (hgs g hg) (hne g hg)

/-- Only the queue of a group holds the members that belong to it. -/
theorem filter_queues (hgs : ∀ g ∈ gs, g.Sound budget items sent)
    (order : (gs.map Group.container).Pairwise Precedes) {g : Group} (hg : g ∈ gs) :
    (gs.flatMap Group.queue).filter (belongs items g.container) = g.queue := by
  induction gs with
  | nil => exact absurd hg List.not_mem_nil
  | cons g' gs ih =>
      have hother := container_ne_of_precedes order
      rw [List.forall_mem_cons] at hgs
      rw [List.map_cons, List.pairwise_cons] at order
      rw [List.flatMap_cons, List.filter_append]
      rcases List.mem_cons.mp hg with rfl | hg
      · rw [filter_queue_eq_self hgs.1, filter_queues_eq_nil hgs.2 hother, List.append_nil]
      · rw [filter_queue_eq_nil hgs.1 (hother g hg).symm, ih hgs.2 order.2 hg, List.nil_append]

theorem Swept.filter_blocks {done : List Item} {p : Pass} (h : Swept budget done gs p)
    (hgs : ∀ g ∈ gs, g.Sound budget items sent)
    (order : (gs.map Group.container).Pairwise Precedes) :
    (Pass.blocks p).filter (belongs items o) ++
        ((Pass.groups p).flatMap Group.queue).filter (belongs items o) =
      (gs.flatMap Group.queue).filter (belongs items o) := by
  induction h with
  | nil => rfl
  | @cons done g gs v p step rest ih =>
      have hother := container_ne_of_precedes order
      rw [List.forall_mem_cons] at hgs
      rw [List.map_cons, List.pairwise_cons] at order
      have hstep := step.filter_blocks (p := belongs items o) fun c hc => by
        simp [belongs, hgs.1.fits.leader c hc]
      have hrest := ih hgs.2 order.2
      simp only [Pass.blocks, Pass.groups, List.map_cons, List.flatMap_cons,
        List.filter_append] at hrest ⊢
      by_cases hg : g.container = o
      · -- The members of `o` are in this queue, so the groups behind it add none of them.
        subst hg
        rw [filter_queues_eq_nil hgs.2 hother, List.append_eq_nil_iff] at hrest
        rw [hrest.1, hrest.2, filter_queues_eq_nil hgs.2 hother, List.append_nil, List.append_nil,
          List.append_nil, hstep]
      · rw [filter_queue_eq_nil hgs.1 hg, List.append_eq_nil_iff] at hstep
        rw [hstep.1, hstep.2, filter_queue_eq_nil hgs.1 hg, List.nil_append, List.nil_append,
          List.nil_append, hrest]

end Order

/-! ## Runs -/

namespace Filled

variable {sent : List Item} {gs : List Group} {ps : List Pass}

theorem shape (h : Filled budget gs ps) (hgs : ∀ g ∈ gs, g.Sound budget items sent)
    (order : (gs.map Group.container).Pairwise Precedes) {j : Nat} {p : Pass}
    (hp : ps[j]? = some p) :
    ((Pass.segments p).map Segment.owner).Pairwise Precedes ∧
      ∀ k (s : Segment), (Pass.segments p)[k]? = some s →
        s.Shape budget items (sent ++ (ps.take j).flatMap Pass.blocks) (k = 0) := by
  induction h generalizing sent j with
  | done => exact absurd hp (by simp)
  | @pass gs p' ps swept sends _ ih =>
      cases j with
      | zero =>
          obtain rfl : p' = p := Option.some.inj hp
          refine ⟨order.sublist swept.owners_sublist, fun k s hs => ?_⟩
          rw [List.take_zero, List.flatMap_nil, List.append_nil]
          exact (swept.shape hgs k s hs).imp And.right
      | succ j =>
          rw [← swept.container_groups] at order
          have hrest := ih (swept.sound_groups hgs (swept.container_groups ▸ order)) order hp
          rwa [List.append_assoc] at hrest

theorem filter_blocks (h : Filled budget gs ps) (hgs : ∀ g ∈ gs, g.Sound budget items sent)
    (order : (gs.map Group.container).Pairwise Precedes) (o : Option Item) :
    (ps.flatMap Pass.blocks).filter (belongs items o) =
      (gs.flatMap Group.queue).filter (belongs items o) := by
  induction h generalizing sent with
  | done quiet => rw [flatMap_queue_eq_nil quiet, List.flatMap_nil]
  | @pass gs p ps swept sends _ ih =>
      have hrest := ih (swept.sound_groups hgs order) (swept.container_groups ▸ order)
      rw [List.flatMap_cons, List.filter_append, hrest]
      exact swept.filter_blocks hgs order

end Filled

/-! ## The batches of a plan -/

/-- The queues hold every member that can be sent, those of one owner in input
order. -/
theorem filter_queues_groups (budget : Nat) (blocks : List Block) (o : Option Item) :
    ((groups budget (Data.Placed.list blocks)).flatMap Group.queue).filter
        (belongs (Data.Placed.list blocks) o) =
      (members budget (Data.Placed.list blocks)).filter (belongs (Data.Placed.list blocks) o) := by
  have hnd := Data.Placed.nodup_place_list blocks
  have hsound : ∀ g ∈ groups budget (Data.Placed.list blocks),
      g.Sound budget (Data.Placed.list blocks) [] := fun _ hg => sound_of_mem_groups hnd hg
  by_cases hgroup : ∃ g ∈ groups budget (Data.Placed.list blocks), g.container = o
  · obtain ⟨g, hg, rfl⟩ := hgroup
    rw [filter_queues hsound (precedes_leaders budget blocks) hg, ← queue_eq_filter hnd hg]
  · have hne : ∀ g ∈ groups budget (Data.Placed.list blocks), g.container ≠ o :=
      fun g hg heq => hgroup ⟨g, hg, heq⟩
    rw [filter_queues_eq_nil hsound hne, eq_comm, List.filter_eq_nil_iff]
    intro m hm hbelongs
    obtain ⟨g, hg, hmg⟩ := List.mem_flatMap.mp (mem_queues.mpr hm)
    exact hne g hg (((hsound g hg).owned m hmg).2.symm.trans (belongs_iff.mp hbelongs).2)

/-- Every batch is a sequence of segments in the order of the groups.  Over all
batches the members of one owner come as they do in the input. -/
theorem make_batches_segmented (blocks : List Block) {budget : Int} (hb : 0 < budget) :
    ∃ p, make blocks budget = .ok p ∧
      (∀ j batch, p.batches[j]? = some batch → ∃ segments : List Segment,
        batch = segments.flatMap Segment.blocks ∧
        (segments.map Segment.owner).Pairwise Precedes ∧
        ∀ k (s : Segment), segments[k]? = some s →
          s.Shape budget.toNat (Data.Placed.list blocks) (p.batches.take j).flatten (k = 0)) ∧
      ∀ o : Option Item,
        p.batches.flatten.filter (belongs (Data.Placed.list blocks) o) =
          (Data.Placed.list blocks).filter fun m =>
            belongs (Data.Placed.list blocks) o m && (Item.size m : Int) ≤ budget := by
  obtain ⟨p, hp, hfilled, -⟩ := make_eq_ok blocks hb
  have hsound : ∀ g ∈ groups budget.toNat (Data.Placed.list blocks),
      g.Sound budget.toNat (Data.Placed.list blocks) [] :=
    fun _ hg => sound_of_mem_groups (Data.Placed.nodup_place_list blocks) hg
  have horder := precedes_leaders budget.toNat blocks
  refine ⟨p, hp, fun j batch hbatch => ?_, fun o => ?_⟩
  · rw [batches, List.getElem?_map, Option.map_eq_some_iff] at hbatch
    obtain ⟨pass, hpass, rfl⟩ := hbatch
    obtain ⟨howners, hshape⟩ := hfilled.shape hsound horder hpass
    refine ⟨Pass.segments pass, (flatMap_segments pass).symm, howners, fun k s hs => ?_⟩
    have hs' := hshape k s hs
    rwa [List.nil_append, List.flatMap_def, List.map_take] at hs'
  · rw [flatten_batches, hfilled.filter_blocks hsound horder, filter_queues_groups, members,
      List.filter_filter]
    apply List.filter_congr
    intro m _
    have hsize : Item.size m ≤ budget.toNat ↔ (Item.size m : Int) ≤ budget := by omega
    rw [Bool.eq_iff_iff]
    simp only [Bool.and_eq_true, Bool.not_eq_true', decide_eq_true_eq, hsize]
    refine and_congr_right fun hbelongs => ?_
    simp [(belongs_iff.mp hbelongs).1]

section Crowded

def stallType : Block :=
  ⟨"stall", .type, ⟨31, 39, by decide, by decide⟩, some "class Shop".toList,
    [⟨31, "Doc", "missing", by decide⟩], none⟩

def sellMember : Block :=
  ⟨"stall", .method, ⟨32, 33, by decide, by decide⟩, some "sell()".toList, [], none⟩

def bulkyMember : Block :=
  ⟨"stall", .method, ⟨34, 38, by decide, by decide⟩, some (List.replicate 15 'x'), [], none⟩

def counterType : Block :=
  ⟨"stall", .type, ⟨41, 42, by decide, by decide⟩, some "class Till".toList,
    [⟨41, "Doc", "missing", by decide⟩], none⟩

def looseMember : Block :=
  ⟨"stall", .method, ⟨45, 46, by decide, by decide⟩, some "x();".toList, [], none⟩

/-- Under a budget of 20 a class with a method leaves room for the loose method but
not for the second class, and the bulky method never fits beside its class. -/
def crowdedBlocks : List Block := [stallType, sellMember, bulkyMember, counterType, looseMember]

end Crowded

theorem make_batches_segmented_crowdedBlocks :
    (0 : Int) < 20 ∧ ∃ p, make crowdedBlocks 20 = .ok p ∧
      p.batches = [[⟨0, stallType⟩, ⟨1, sellMember⟩, ⟨4, looseMember⟩], [⟨2, bulkyMember⟩],
        [⟨3, counterType⟩]] ∧
      (∃ segments : List Segment,
        [⟨0, stallType⟩, ⟨1, sellMember⟩, ⟨4, looseMember⟩] = segments.flatMap Segment.blocks ∧
        (segments.map Segment.owner).Pairwise Precedes ∧
        ∀ k (s : Segment), segments[k]? = some s →
          s.Shape 20 (Data.Placed.list crowdedBlocks) [] (k = 0)) ∧
      p.batches.flatten.filter (belongs (Data.Placed.list crowdedBlocks) (some ⟨0, stallType⟩)) =
        [⟨1, sellMember⟩, ⟨2, bulkyMember⟩] := by
  have hb : (0 : Int) < 20 := by decide
  obtain ⟨p, hp, hsegmented, hordered⟩ := make_batches_segmented crowdedBlocks hb
  have hmap : (make crowdedBlocks 20).map batches = .ok [[⟨0, stallType⟩, ⟨1, sellMember⟩,
      ⟨4, looseMember⟩], [⟨2, bulkyMember⟩], [⟨3, counterType⟩]] := rfl
  rw [hp] at hmap
  have hbatches := Except.ok.inj hmap
  refine ⟨hb, p, hp, hbatches, ?_, hordered _⟩
  exact hsegmented 0 _ (by rw [hbatches]; rfl)

end Plan
end Refit

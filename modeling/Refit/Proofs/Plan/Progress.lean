/-
Every pass over pending groups sends something and retires some of the work.

`later` follows the groups from pass to pass without a bound on their number, so
that the passes of a plan can be compared with those that would be made if
nothing but the groups ended them.  The work that is left bounds how many there
are, and a pass that retires none of it is never made.
-/
import Refit.Proofs.Plan.Conservation

namespace Refit
namespace Plan

/-! ## What a visit retires -/

/-- The visit takes members off the queue and sends them, or it sends a leader
that was owed and is so no longer. -/
def Retires (g : Group) (v : Visit) : Prop :=
  (∃ sent, sent ≠ [] ∧ g.queue = sent ++ v.group.queue ∧ sent <:+ v.blocks) ∨
    ∃ c, g.container = some c ∧ g.owed = true ∧ v.group.owed = false ∧ c ∈ v.blocks

theorem Step.retires {budget : Nat} {done : List Item} {g : Group} {v : Visit}
    (h : Step budget done g v) (hg : g.Fits budget) (hv : v.blocks ≠ []) : Retires g v := by
  cases h with
  | idle | nothing => exact absurd rfl hv
  | @run ms rest queue sends =>
      by_cases hms : ms = []
      · have howed : g.owed = true := sends.resolve_left fun hne => hne hms
        obtain ⟨c, hc⟩ := Option.ne_none_iff_exists'.mp (hg.owed howed).1
        refine .inr ⟨c, hc, howed, rfl, List.mem_append_left ms ?_⟩
        show c ∈ g.container.toList
        simp [hc]
      · exact .inl ⟨ms, hms, queue, List.suffix_append _ _⟩
  | @lone m rest queue => exact .inl ⟨[m], List.cons_ne_nil _ _, queue, List.suffix_rfl⟩

theorem Swept.exists_retires {budget : Nat} {done : List Item} {gs : List Group} {p : Pass}
    (h : Swept budget done gs p) (hgs : ∀ g ∈ gs, g.Fits budget) (hp : Pass.blocks p ≠ []) :
    ∃ e ∈ gs.zip p, Retires e.1 e.2 := by
  induction h with
  | nil => exact absurd rfl hp
  | @cons done g gs v p step rest ih =>
      rw [List.forall_mem_cons] at hgs
      rw [List.zip_cons_cons]
      by_cases hv : v.blocks = []
      · rw [Pass.blocks, List.flatMap_cons, hv, List.nil_append] at hp
        obtain ⟨e, he, hretires⟩ := ih hgs.2 hp
        exact ⟨e, List.mem_cons_of_mem _ he, hretires⟩
      · exact ⟨(g, v), List.mem_cons_self, step.retires hgs.1 hv⟩

/-! ## The work that is left -/

theorem work_eq (gs : List Group) :
    work gs = (gs.flatMap Group.queue).length + gs.countP Group.owed := by
  induction gs with
  | nil => rfl
  | cons g gs ih =>
      rw [work_cons, work_singleton, ih, List.flatMap_cons, List.length_append, List.countP_cons]
      omega

theorem pending_iff_work_pos {gs : List Group} : gs.any Group.pending = true ↔ 0 < work gs := by
  refine ⟨work_pos, fun hpos => ?_⟩
  by_contra hquiet
  rw [Bool.not_eq_true] at hquiet
  have howed : gs.countP Group.owed = 0 := by
    rw [List.countP_eq_zero]
    intro g hg h
    apply List.any_eq_false.mp hquiet g hg
    rw [Group.pending, h, Bool.or_true]
  rw [work_eq, flatMap_queue_eq_nil hquiet, howed] at hpos
  exact Nat.lt_irrefl 0 hpos

theorem length_queues_groups {items : List Item}
    (hnd : (items.map Data.Placed.place).Nodup) (budget : Nat) :
    ((groups budget items).flatMap Group.queue).length =
      items.countP fun i => !i.isContainer && i.size ≤ budget := by
  have hmembers : (members budget items).Nodup := (List.Nodup.of_map _ hnd).filter _
  have hperm : ((groups budget items).flatMap Group.queue).Perm (members budget items) :=
    (List.perm_ext_iff_of_nodup (nodup_queues hnd) hmembers).mpr fun _ => mem_queues
  rw [hperm.length_eq, members, List.countP_eq_length_filter]

theorem countP_owed_groups (budget : Nat) (items : List Item) :
    (groups budget items).countP Group.owed =
      items.countP fun i => i.isContainer && i.hasFindings && i.size ≤ budget := by
  have hlast : (unownedGroup budget items).countP Group.owed = 0 := by
    rw [List.countP_eq_zero]
    intro g hg
    rw [eq_of_mem_unownedGroup hg]
    exact Bool.false_ne_true
  rw [groups, List.countP_append, hlast, List.countP_map, containers, List.countP_filter]
  apply List.countP_congr
  intro i _
  simp only [Function.comp_apply, containerGroup, Bool.and_eq_true, decide_eq_true_eq]
  rw [and_comm, ← and_assoc]

/-- At first the work is to send every member and every container with findings,
so far as they fit. -/
theorem work_groups (budget : Nat) (blocks : List Block) :
    work (groups budget (Data.Placed.list blocks)) =
      (blocks.countP fun b => !b.isContainer && b.size ≤ budget) +
        blocks.countP fun b => b.isContainer && b.hasFindings && b.size ≤ budget := by
  have hmap : ∀ f : Block → Bool,
      blocks.countP f = (Data.Placed.list blocks).countP (f ∘ Data.Placed.item) := by
    intro f
    rw [← List.countP_map, Data.Placed.map_item_list]
  rw [work_eq, length_queues_groups (Data.Placed.nodup_place_list blocks), countP_owed_groups,
    hmap, hmap]
  rfl

/-! ## Pass after pass -/

def nextPass (budget : Nat) (gs : List Group) : Pass := sweep budget 0 true gs

/-- The groups after `k` passes, whether or not there is something left to send. -/
def later (budget : Nat) (gs : List Group) : Nat → List Group
  | 0 => gs
  | k + 1 => Pass.groups (nextPass budget (later budget gs k))

section Later

variable {budget : Nat} {gs : List Group}

theorem swept_nextPass (budget : Nat) (gs : List Group) :
    Swept budget [] gs (nextPass budget gs) := swept_sweep budget [] gs

theorem later_succ (budget : Nat) (gs : List Group) (k : Nat) :
    later budget gs (k + 1) = later budget (Pass.groups (nextPass budget gs)) k := by
  induction k with
  | zero => rfl
  | succ k ih => rw [later, ih, later]

theorem fits_later (hgs : ∀ g ∈ gs, g.Fits budget) (k : Nat) :
    ∀ g ∈ later budget gs k, g.Fits budget := by
  induction k with
  | zero => exact hgs
  | succ k ih => exact (swept_nextPass budget _).fits_groups ih

theorem work_later_le (budget : Nat) (gs : List Group) (k : Nat) :
    work (later budget gs k) ≤ work gs := by
  induction k with
  | zero => exact Nat.le_refl _
  | succ k ih => exact Nat.le_trans (swept_nextPass budget _).work_le ih

/-- A pass over pending groups makes progress. -/
theorem nextPass_progress (hgs : ∀ g ∈ gs, g.Fits budget) (hp : gs.any Group.pending = true) :
    Pass.blocks (nextPass budget gs) ≠ [] ∧
      ∃ e ∈ gs.zip (nextPass budget gs), Retires e.1 e.2 := by
  have hswept := swept_nextPass budget gs
  have hsends := hswept.blocks_ne_nil rfl hgs hp
  exact ⟨hsends, hswept.exists_retires hgs hsends⟩

end Later

namespace Filled

variable {budget : Nat} {gs : List Group} {ps : List Pass}

theorem eq_nextPasses (h : Filled budget gs ps) :
    ps = (List.range ps.length).map fun k => nextPass budget (later budget gs k) := by
  induction h with
  | done => rfl
  | @pass gs p ps swept sends _ ih =>
      obtain rfl : p = nextPass budget gs := swept.eq_sweep
      rw [List.length_cons, List.range_succ_eq_map, List.map_cons, List.map_map]
      simp only [Function.comp_def, Nat.succ_eq_add_one, later_succ]
      rw [← ih]
      rfl

/-- The passes go on exactly as long as a group is pending. -/
theorem pending_later_iff (h : Filled budget gs ps) (k : Nat) :
    (later budget gs k).any Group.pending = true ↔ k < ps.length := by
  induction h generalizing k with
  | @done gs quiet =>
      rw [pending_iff_work_pos]
      have hnone : ¬ 0 < work gs := by
        rw [← pending_iff_work_pos, quiet]
        exact Bool.false_ne_true
      have hle := work_later_le budget gs k
      simp only [List.length_nil]
      omega
  | @pass gs p ps swept sends _ ih =>
      obtain rfl : p = nextPass budget gs := swept.eq_sweep
      cases k with
      | zero =>
          have hless := swept.work_lt sends
          have hpending : gs.any Group.pending = true := pending_iff_work_pos.mpr (by omega)
          simpa [later] using hpending
      | succ k =>
          rw [later_succ, ih, List.length_cons]
          omega

theorem length_le_work (h : Filled budget gs ps) : ps.length ≤ work gs := by
  induction h with
  | done => exact Nat.zero_le _
  | pass swept sends _ ih =>
      have hless := swept.work_lt sends
      rw [List.length_cons]
      omega

end Filled

/-! ## The passes of a plan -/

def standing (blocks : List Block) (budget k : Nat) : List Group :=
  later budget (groups budget (Data.Placed.list blocks)) k

/-- The passes of a plan go on as long as a group is pending, and end there.  Each
sends a block and retires a queued member or an owed container, so none is made
in vain, and the blocks that can be sent bound their number. -/
theorem make_passes_progress (blocks : List Block) {budget : Int} (hb : 0 < budget) :
    ∃ p, make blocks budget = .ok p ∧
      p.run.stranded = none ∧
      p.run.passes = (List.range p.batches.length).map
        (fun k => nextPass budget.toNat (standing blocks budget.toNat k)) ∧
      (∀ k, (standing blocks budget.toNat k).any Group.pending = true ↔
        k < p.batches.length) ∧
      (∀ k, (standing blocks budget.toNat k).any Group.pending = true →
        Pass.blocks (nextPass budget.toNat (standing blocks budget.toNat k)) ≠ [] ∧
        ∃ e ∈ (standing blocks budget.toNat k).zip
            (nextPass budget.toNat (standing blocks budget.toNat k)),
          Retires e.1 e.2) ∧
      p.batches.length ≤
        (blocks.countP fun b => !b.isContainer && (b.size : Int) ≤ budget) +
          blocks.countP fun b => b.isContainer && b.hasFindings && (b.size : Int) ≤ budget := by
  have hgs : ∀ g ∈ groups budget.toNat (Data.Placed.list blocks), g.Fits budget.toNat :=
    fun g hg => fits_of_mem_groups hg
  obtain ⟨hfilled, hstranded⟩ := filled_fillAll hgs (Nat.le_refl _)
  refine ⟨_, if_neg (by omega), hstranded, ?_, ?_, fun k hp => ?_, ?_⟩
  · rw [batches, List.length_map]
    exact hfilled.eq_nextPasses
  · intro k
    rw [batches, List.length_map]
    exact hfilled.pending_later_iff k
  · exact nextPass_progress (fits_later hgs k) hp
  · have hsize : ∀ b : Block,
        decide ((b.size : Int) ≤ budget) = decide (b.size ≤ budget.toNat) := by
      intro b
      rw [decide_eq_decide]
      omega
    simp only [hsize]
    rw [batches, List.length_map, ← work_groups]
    exact hfilled.length_le_work

/-- Under a budget of 20 the second method is sent without its class, and the class
has to be repeated for the third. -/
def tightBlocks : List Block :=
  [⟨"shop", .type, ⟨21, 29, by decide, by decide⟩, some "class Shop".toList,
      [⟨21, "Doc", "missing", by decide⟩], none⟩,
    ⟨"shop", .method, ⟨22, 23, by decide, by decide⟩, some "sell()".toList, [], none⟩,
    ⟨"shop", .method, ⟨24, 25, by decide, by decide⟩, some (List.replicate 15 'x'), [], none⟩,
    ⟨"shop", .method, ⟨26, 28, by decide, by decide⟩, some "count()".toList, [], none⟩]

theorem make_passes_progress_tightBlocks :
    (0 : Int) < 20 ∧ ∃ p, make tightBlocks 20 = .ok p ∧ p.run.stranded = none ∧
      (∀ k, (standing tightBlocks 20 k).any Group.pending = true ↔ k < 3) ∧
      (Pass.blocks (nextPass 20 (standing tightBlocks 20 1)) ≠ [] ∧
        ∃ e ∈ (standing tightBlocks 20 1).zip (nextPass 20 (standing tightBlocks 20 1)),
          Retires e.1 e.2) ∧
      p.batches.length ≤ 4 := by
  have hb : (0 : Int) < 20 := by decide
  obtain ⟨p, hp, hstranded, -, hpending, hprogress, hbound⟩ := make_passes_progress tightBlocks hb
  have hmap : (make tightBlocks 20).map (fun p => p.batches.length) = .ok 3 := rfl
  rw [hp] at hmap
  have hlength : p.batches.length = 3 := Except.ok.inj hmap
  rw [hlength] at hpending
  exact ⟨hb, p, hp, hstranded, hpending, hprogress 1 (by decide), hbound⟩

end Plan
end Refit

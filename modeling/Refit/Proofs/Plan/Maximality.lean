/-
Packing leaves no room that the next member of a group could take.

`Step` already says of each exit of a visit what did not fit there.  Here it is
put in terms of the batch alone: what the batch holds when a group's turn comes,
what it holds after it, and what the group still has to send.  The one segment
that may stop early is a member without its container, which is sent alone
however much room it leaves.
-/
import Refit.Proofs.Plan.Progress
import Refit.Proofs.Plan.Segments

namespace Refit
namespace Plan

/-- Nothing more of a group fits, where the batch holds `done` at its turn. -/
structure Maximal (budget : Nat) (done : List Item) (g : Group) (v : Visit) : Prop where
  /-- A segment that opens with the container, if the group has one, ends where
  the next member of the queue does not fit. -/
  full : v.blocks ≠ [] → g.container.toList <+: v.blocks →
    ∀ m ∈ v.group.queue.head?, budget < totalSize (done ++ v.blocks) + m.size
  shut : g.pending = true → v.blocks = [] →
    budget < totalSize done + g.headerSize + (g.queue.head?.map Item.size).getD 0
  owed : g.owed = true → v.blocks = [] → budget < totalSize done + g.headerSize

/-- A lone member does not open with the container it belongs to, and a member
that belongs to none is never sent as one. -/
theorem Group.Fits.not_prefix_lone {budget : Nat} {g : Group} (hg : g.Fits budget) {m : Item}
    {rest : List Item} (queue : g.queue = m :: rest) (apart : budget < g.headerSize + m.size) :
    ¬ g.container.toList <+: [m] := by
  obtain ⟨hmember, hsize⟩ := hg.member m (by rw [queue]; exact List.mem_cons_self)
  intro hlead
  cases hc : g.container with
  | none =>
      have hheader : g.headerSize = 0 := by rw [Group.headerSize, hc]; rfl
      omega
  | some c =>
      rw [hc] at hlead
      have hmem : c ∈ [m] := hlead.subset (by simp)
      rw [← List.mem_singleton.mp hmem, hg.leader c hc] at hmember
      exact Bool.false_ne_true hmember.symm

namespace Step

variable {budget : Nat} {done : List Item} {g : Group} {v : Visit}

/-- A group that adds nothing had nothing to send, or nothing of it fits. -/
theorem over_of_blocks_eq_nil (h : Step budget done g v) (hg : g.Fits budget)
    (hv : v.blocks = []) (hp : g.pending = true) :
    (g.owed = true → budget < totalSize done + g.headerSize) ∧
      ∀ m ∈ g.queue.head?, budget < totalSize done + g.headerSize + m.size := by
  cases h with
  | idle quiet =>
      rw [hp] at quiet
      exact absurd quiet.symm Bool.false_ne_true
  | run queue sends =>
      obtain ⟨hlead, hms⟩ := List.append_eq_nil_iff.mp hv
      have howed : g.owed = true := sends.resolve_left fun hne => hne hms
      exact absurd (Option.toList_eq_nil_iff.mp hlead) (hg.owed howed).1
  | lone => exact absurd hv (List.cons_ne_nil _ _)
  | nothing pending later owed apart => exact ⟨owed, apart⟩

theorem maximal (h : Step budget done g v) (hg : g.Fits budget) : Maximal budget done g v := by
  refine ⟨fun hv hlead => ?_, fun hp hv => ?_, fun howed hv => ?_⟩
  · cases h with
    | idle | nothing => exact absurd rfl hv
    | @run ms rest queue sends fits full =>
        intro m hm
        have hover := full m hm
        have hsize : totalSize g.container.toList = g.headerSize := totalSize_toList g.container
        simp only [Visit.blocks, totalSize_append]
        omega
    | lone queue first owed apart => exact absurd hlead (hg.not_prefix_lone queue apart)
  · obtain ⟨howed, happart⟩ := h.over_of_blocks_eq_nil hg hv hp
    cases hq : g.queue with
    | nil =>
        -- With an empty queue the group is pending for its container only.
        have hover := howed (by simpa [Group.pending, hq] using hp)
        show budget < totalSize done + g.headerSize + 0
        omega
    | cons m rest => exact happart m (by rw [hq]; rfl)
  · have hp : g.pending = true := by rw [Group.pending, howed, Bool.or_true]
    exact (h.over_of_blocks_eq_nil hg hv hp).1 howed

end Step

theorem Swept.maximal {budget : Nat} {done : List Item} {gs : List Group} {p : Pass}
    (h : Swept budget done gs p) (hgs : ∀ g ∈ gs, g.Fits budget) {k : Nat} {g : Group} {v : Visit}
    (hg : gs[k]? = some g) (hv : p[k]? = some v) :
    Maximal budget (done ++ Pass.blocks (p.take k)) g v := by
  induction h generalizing k with
  | nil => exact absurd hg (by simp)
  | @cons done g' gs v' p step rest ih =>
      rw [List.forall_mem_cons] at hgs
      cases k with
      | zero =>
          obtain rfl : g' = g := Option.some.inj hg
          obtain rfl : v' = v := Option.some.inj hv
          rw [List.take_zero, Pass.blocks, List.flatMap_nil, List.append_nil]
          exact step.maximal hgs.1
      | succ k =>
          have hrest := ih hgs.2 hg hv
          rwa [List.append_assoc] at hrest

/-- In every pass of a plan, and at the turn of every group in it, a segment ends
where the group's next member exceeds the budget, and a pending group is passed
over only where its container with its first member does so, or its container
alone if that is still owed. -/
theorem make_passes_maximal (blocks : List Block) {budget : Int} (hb : 0 < budget) :
    ∃ p, make blocks budget = .ok p ∧
      (∀ j, (standing blocks budget.toNat j).any Group.pending = true ↔
        j < p.run.passes.length) ∧
      ∀ j pass, p.run.passes[j]? = some pass →
        p.batches[j]? = some (Pass.blocks pass) ∧
        pass.length = (standing blocks budget.toNat j).length ∧
        Pass.groups pass = standing blocks budget.toNat (j + 1) ∧
        ∀ k g v, (standing blocks budget.toNat j)[k]? = some g → pass[k]? = some v →
          Maximal budget.toNat (Pass.blocks (pass.take k)) g v := by
  obtain ⟨p, hp, hfilled, -⟩ := make_eq_ok blocks hb
  refine ⟨p, hp, hfilled.pending_later_iff, fun j pass hpass => ?_⟩
  have hnext : pass = nextPass budget.toNat (standing blocks budget.toNat j) := by
    rw [hfilled.eq_nextPasses, List.getElem?_map] at hpass
    obtain ⟨i, hi, rfl⟩ := Option.map_eq_some_iff.mp hpass
    rw [← (List.getElem?_eq_some_iff.mp hi).2, List.getElem_range]
    rfl
  have hswept : Swept budget.toNat [] (standing blocks budget.toNat j) pass := by
    rw [hnext]
    exact swept_nextPass _ _
  have hgs : ∀ g ∈ standing blocks budget.toNat j, g.Fits budget.toNat :=
    fits_later (fun g hg => fits_of_mem_groups hg) j
  refine ⟨?_, ?_, ?_, fun k g v hg hv => hswept.maximal hgs hg hv⟩
  · rw [batches, List.getElem?_map, hpass]
    rfl
  · have hcontainers := congrArg List.length hswept.container_groups
    simpa [Pass.groups] using hcontainers
  · rw [hnext]
    rfl

/-- The first batch stops before the bulky method, and the second class, whose
turn comes when 16 characters are used, has to wait. -/
theorem make_passes_maximal_crowdedBlocks :
    (0 : Int) < 20 ∧ ∃ p, make crowdedBlocks 20 = .ok p ∧ p.run.passes.length = 3 ∧
      ∃ pass, p.run.passes[0]? = some pass ∧
        Pass.blocks (pass.take 1) = [⟨0, stallType⟩, ⟨1, sellMember⟩] ∧
        20 < totalSize [⟨0, stallType⟩, ⟨1, sellMember⟩] + Item.size ⟨2, bulkyMember⟩ ∧
        20 < totalSize [⟨0, stallType⟩, ⟨1, sellMember⟩] + Item.size ⟨3, counterType⟩ := by
  have hb : (0 : Int) < 20 := by decide
  obtain ⟨p, hp, -, hmaximal⟩ := make_passes_maximal crowdedBlocks hb
  have hmap : (make crowdedBlocks 20).map (fun p => p.run.passes.length) = .ok 3 := rfl
  have hfirst : (make crowdedBlocks 20).map (fun p => p.run.passes[0]?) =
      .ok (some (nextPass 20 (standing crowdedBlocks 20 0))) := rfl
  rw [hp] at hmap hfirst
  have hpass := Except.ok.inj hfirst
  obtain ⟨-, -, -, hvisits⟩ := hmaximal 0 _ hpass
  have hstall := (hvisits 0 _ _ rfl rfl).full (by decide) (by decide) ⟨2, bulkyMember⟩ rfl
  have hcounter := (hvisits 1 _ _ rfl rfl).owed rfl rfl
  exact ⟨hb, p, hp, Except.ok.inj hmap, _, hpass, rfl, hstall, hcounter⟩

end Plan
end Refit

/-
What one visit to a group can do.

A batch under construction is described by the blocks it holds, so that the
characters used and the question whether it is still empty are read off one
list.  `Step` lists the four outcomes of a visit with everything that is known
in each, and the facts about passes and runs are derived from it alone.
-/
import Refit.Plan

namespace Refit
namespace Plan

theorem totalSize_nil : totalSize [] = 0 := rfl

theorem totalSize_cons (i : Item) (items : List Item) :
    totalSize (i :: items) = i.size + totalSize items := rfl

theorem totalSize_append (a b : List Item) :
    totalSize (a ++ b) = totalSize a + totalSize b := by
  induction a with
  | nil => exact (Nat.zero_add _).symm
  | cons i a ih => rw [List.cons_append, totalSize_cons, totalSize_cons, ih, Nat.add_assoc]

theorem totalSize_toList (c : Option Item) :
    totalSize c.toList = (c.map Item.size).getD 0 := by
  cases c with
  | none => rfl
  | some c => exact Nat.add_zero c.size

/-! ## Runs of a queue -/

/-- What is counted on the way is the size of the run. -/
theorem takeRun_total (budget used total : Nat) (queue : List Item) :
    (takeRun budget used total queue).total =
      total + totalSize (takeRun budget used total queue).members := by
  induction queue generalizing total with
  | nil => rfl
  | cons m queue ih =>
      rw [takeRun]
      by_cases hm : used + total + m.size ≤ budget
      · rw [if_pos hm]
        simp only [ih, totalSize_cons, Nat.add_assoc]
      · rw [if_neg hm]
        rfl

theorem takeRun_fits {budget used total : Nat} (h : used + total ≤ budget) (queue : List Item) :
    used + total + totalSize (takeRun budget used total queue).members ≤ budget := by
  induction queue generalizing total with
  | nil => exact h
  | cons m queue ih =>
      rw [takeRun]
      by_cases hm : used + total + m.size ≤ budget
      · rw [if_pos hm]
        have hnext : used + (total + m.size) ≤ budget := by omega
        have hrest := ih hnext
        simp only [totalSize_cons]
        omega
      · rw [if_neg hm]
        exact h

/-- The first member that a run leaves behind does not fit on top of it. -/
theorem takeRun_full (budget used total : Nat) (queue : List Item) :
    ∀ m ∈ (takeRun budget used total queue).rest.head?,
      budget < used + total + totalSize (takeRun budget used total queue).members + m.size := by
  induction queue generalizing total with
  | nil =>
      intro m hm
      simp [takeRun] at hm
  | cons m queue ih =>
      rw [takeRun]
      by_cases hm : used + total + m.size ≤ budget
      · rw [if_pos hm]
        intro m' hm'
        have hrest := ih (total + m.size) m' hm'
        simp only [totalSize_cons]
        omega
      · rw [if_neg hm]
        intro m' hm'
        obtain rfl : m = m' := by simpa using hm'
        simp only [totalSize_nil]
        omega

/-- A run is empty only where not even the first member fits. -/
theorem takeRun_eq_nil {budget used total : Nat} {queue : List Item}
    (h : (takeRun budget used total queue).members = []) :
    ∀ m ∈ queue.head?, budget < used + total + m.size := by
  have happ := takeRun_append budget used total queue
  have hfull := takeRun_full budget used total queue
  rw [h, List.nil_append] at happ
  rw [h, happ, totalSize_nil, Nat.add_zero] at hfull
  exact hfull

theorem takeRun_of_over {budget used total : Nat} {queue : List Item}
    (h : ∀ m ∈ queue.head?, budget < used + total + m.size) :
    takeRun budget used total queue = ⟨[], queue, total⟩ := by
  cases queue with
  | nil => rfl
  | cons m queue =>
      have hm := h m rfl
      rw [takeRun, if_neg (by omega)]

/-- The run that fits and cannot be longer is the one that is taken. -/
theorem takeRun_of_full {budget used total : Nat} {ms rest : List Item}
    (fits : used + total + totalSize ms ≤ budget)
    (full : ∀ m ∈ rest.head?, budget < used + total + totalSize ms + m.size) :
    takeRun budget used total (ms ++ rest) = ⟨ms, rest, total + totalSize ms⟩ := by
  induction ms generalizing total with
  | nil => exact takeRun_of_over full
  | cons m ms ih =>
      simp only [totalSize_cons] at fits full
      have hfits : used + (total + m.size) + totalSize ms ≤ budget := by omega
      have hfull : ∀ m' ∈ rest.head?, budget < used + (total + m.size) + totalSize ms + m'.size := by
        intro m' hm'
        have hm := full m' hm'
        omega
      rw [List.cons_append, takeRun, if_pos (by omega), ih hfits hfull]
      simp only [totalSize_cons, Nat.add_assoc]

/-! ## The outcomes of a visit -/

/-- The visits that a group can get when the batch holds `done`. -/
inductive Step (budget : Nat) (done : List Item) (g : Group) : Visit → Prop
  | idle (quiet : g.pending = false) : Step budget done g ⟨.idle, g, 0⟩
  | run {ms rest : List Item} (queue : g.queue = ms ++ rest)
      (sends : ms ≠ [] ∨ g.owed = true)
      (fits : totalSize done + g.headerSize + totalSize ms ≤ budget)
      (full : ∀ m ∈ rest.head?,
        budget < totalSize done + g.headerSize + totalSize ms + m.size) :
      Step budget done g ⟨.run ms, ⟨g.container, rest, false⟩, g.headerSize + totalSize ms⟩
  | lone {m : Item} {rest : List Item} (queue : g.queue = m :: rest)
      (first : done = [])
      (owed : g.owed = true → budget < g.headerSize)
      (apart : budget < g.headerSize + m.size) :
      Step budget done g ⟨.lone m, ⟨g.container, rest, g.owed⟩, m.size⟩
  | nothing (pending : g.pending = true)
      (later : done = [] → g.queue = [])
      (owed : g.owed = true → budget < totalSize done + g.headerSize)
      (apart : ∀ m ∈ g.queue.head?,
        budget < totalSize done + g.headerSize + m.size) :
      Step budget done g ⟨.nothing, g, 0⟩

theorem step_visit (budget : Nat) (done : List Item) (g : Group) :
    Step budget done g (g.visit budget (totalSize done) done.isEmpty) := by
  unfold Group.visit
  by_cases hp : g.pending = true
  · simp only [hp, Bool.not_true, Bool.false_eq_true, if_false]
    have happ := takeRun_append budget (totalSize done) g.headerSize g.queue
    have hfull := takeRun_full budget (totalSize done) g.headerSize g.queue
    split
    · next h =>
      have hsome : (takeRun budget (totalSize done) g.headerSize g.queue).members ≠ [] ∨
          (g.owed = true ∧ totalSize done + g.headerSize ≤ budget) := by
        simpa using h
      rw [takeRun_total]
      refine .run happ.symm (hsome.imp_right And.left) ?_ hfull
      by_cases hle : totalSize done + g.headerSize ≤ budget
      · exact takeRun_fits hle g.queue
      · -- The container alone does not fit, and a member on top of it even less.
        have hnil : (takeRun budget (totalSize done) g.headerSize g.queue).members = [] := by
          cases g.queue with
          | nil => rfl
          | cons m queue => rw [takeRun, if_neg (by omega)]
        exact absurd hnil (hsome.resolve_right fun h => hle h.2)
    · next h =>
      have hnone : (takeRun budget (totalSize done) g.headerSize g.queue).members = [] ∧
          (g.owed = true → budget < totalSize done + g.headerSize) := by
        simpa using h
      obtain ⟨hrun, howed⟩ := hnone
      have happart := takeRun_eq_nil hrun
      split
      · next m rest hfirst hq =>
        have hdone : done = [] := List.isEmpty_iff.mp hfirst
        subst hdone
        rw [totalSize_nil, Nat.zero_add] at howed happart
        exact .lone hq rfl howed (happart m (by rw [hq]; rfl))
      · next hno =>
        refine .nothing hp ?_ howed happart
        intro hdone
        cases hq : g.queue with
        | nil => rfl
        | cons m rest => exact absurd hq (hno m rest (by rw [hdone]; rfl))
  · rw [Bool.not_eq_true] at hp
    rw [hp]
    exact .idle hp

theorem Group.visit_of_over {budget used : Nat} {g : Group} (first : Bool)
    (pending : g.pending = true) (owed : g.owed = true → budget < used + g.headerSize)
    (apart : ∀ m ∈ g.queue.head?, budget < used + g.headerSize + m.size) :
    g.visit budget used first = match first, g.queue with
      | true, m :: queue => ⟨.lone m, ⟨g.container, queue, g.owed⟩, m.size⟩
      | _, _ => ⟨.nothing, g, 0⟩ := by
  have hkept : ¬ (!List.isEmpty ([] : List Item) ||
      (g.owed && used + g.headerSize ≤ budget)) = true := by
    simpa using owed
  simp only [Group.visit, pending, Bool.not_true, Bool.false_eq_true, if_false,
    takeRun_of_over apart]
  exact if_neg hkept

/-- `Step` leaves no choice: the visit is determined by the group and the batch. -/
theorem Step.eq_visit {budget : Nat} {done : List Item} {g : Group} {v : Visit}
    (h : Step budget done g v) : v = g.visit budget (totalSize done) done.isEmpty := by
  cases h with
  | idle quiet => simp [Group.visit, quiet]
  | @run ms rest queue sends fits full =>
      have hpending : g.pending = true := by
        rcases sends with hms | howed
        · simp [Group.pending, queue, hms]
        · simp [Group.pending, howed]
      have hsends : (!ms.isEmpty || (g.owed && totalSize done + g.headerSize ≤ budget)) = true := by
        rcases sends with hms | howed
        · simp [hms]
        · have hheader : totalSize done + g.headerSize ≤ budget := by omega
          simp [howed, hheader]
      simp only [Group.visit, hpending, Bool.not_true, Bool.false_eq_true, if_false, queue,
        takeRun_of_full fits full]
      rw [if_pos hsends]
  | @lone m rest queue first owed apart =>
      subst first
      rw [Group.visit_of_over _ (by simp [Group.pending, queue]), queue]
      · rfl
      · simpa [totalSize_nil] using owed
      · simpa [totalSize_nil, queue] using apart
  | nothing pending later owed apart =>
      rw [Group.visit_of_over _ pending owed apart]
      cases done with
      | nil => rw [later rfl]; rfl
      | cons => rfl

/-! ## What a visit keeps -/

/-- The groups that a plan starts from and its visits leave: the leader is a
container, every waiting member can be sent alone, and so can an owed leader. -/
structure Group.Fits (budget : Nat) (g : Group) : Prop where
  leader : ∀ c ∈ g.container, c.isContainer = true
  member : ∀ m ∈ g.queue, m.isContainer = false ∧ m.size ≤ budget
  owed : g.owed = true → g.container ≠ none ∧ g.headerSize ≤ budget

theorem work_singleton (g : Group) :
    work [g] = g.queue.length + if g.owed then 1 else 0 := rfl

theorem work_cons (g : Group) (gs : List Group) : work (g :: gs) = work [g] + work gs := by
  rw [work_singleton, work, List.map_cons, List.foldr_cons, work]

theorem count_toList_of_ne {c : Option Item} {i : Item} (h : ∀ o ∈ c, o ≠ i) :
    c.toList.count i = 0 := by
  rw [List.count_eq_zero, Option.mem_toList]
  exact fun hi => h i hi rfl

namespace Step

variable {budget : Nat} {done : List Item} {g : Group} {v : Visit}

/-- The count of a visit is the size of what it adds. -/
theorem cost_eq (h : Step budget done g v) : v.cost = totalSize v.blocks := by
  cases h with
  | idle | nothing => rfl
  | run =>
      show _ = totalSize (g.container.toList ++ _)
      rw [totalSize_append, totalSize_toList]
      rfl
  | @lone m => exact (Nat.add_zero m.size).symm

theorem container_eq (h : Step budget done g v) : v.group.container = g.container := by
  cases h <;> rfl

theorem fits_group (h : Step budget done g v) (hg : g.Fits budget) : v.group.Fits budget := by
  cases h with
  | idle | nothing => exact hg
  | run queue =>
      refine ⟨hg.leader, fun m hm => hg.member m ?_, fun h => absurd h Bool.false_ne_true⟩
      rw [queue]
      exact List.mem_append_right _ hm
  | lone queue =>
      refine ⟨hg.leader, fun m hm => hg.member m ?_, hg.owed⟩
      rw [queue]
      exact List.mem_cons_of_mem _ hm

/-- A visit keeps the batch within the budget.  A lone member needs no room
beside other blocks, since it opens the batch. -/
theorem totalSize_le (h : Step budget done g v) (hg : g.Fits budget)
    (hd : totalSize done ≤ budget) : totalSize (done ++ v.blocks) ≤ budget := by
  rw [totalSize_append]
  cases h with
  | idle | nothing => exact hd
  | run queue sends fits full =>
      have hsize : totalSize g.container.toList = g.headerSize := totalSize_toList g.container
      simp only [Visit.blocks, totalSize_append]
      omega
  | @lone m rest queue first =>
      subst first
      have hm : m.size ≤ budget := by
        refine (hg.member m ?_).2
        rw [queue]
        exact List.mem_cons_self
      simp only [Visit.blocks, totalSize_cons, totalSize_nil]
      omega

/-- A member is either added to the batch or left in the queue. -/
theorem count_member (h : Step budget done g v) (hg : g.Fits budget) {i : Item}
    (hi : i.isContainer = false) :
    v.blocks.count i + v.group.queue.count i = g.queue.count i := by
  cases h with
  | idle | nothing => exact Nat.zero_add _
  | run queue =>
      have hleader : g.container.toList.count i = 0 := by
        refine count_toList_of_ne fun c hc he => ?_
        rw [← he, hg.leader c hc] at hi
        exact Bool.false_ne_true hi.symm
      simp only [Visit.blocks, queue, List.count_append, hleader, Nat.zero_add]
  | lone queue =>
      simp only [Visit.blocks, queue, List.count_cons, List.count_nil, Nat.zero_add]
      exact Nat.add_comm _ _

/-- A container enters a batch as the leader of its group, and only if it fits. -/
theorem leader_of_mem (h : Step budget done g v) (hg : g.Fits budget) {c : Item}
    (hc : c.isContainer = true) (hm : c ∈ v.blocks) :
    g.container = some c ∧ c.size ≤ budget := by
  have notMember : c ∉ g.queue := by
    intro hq
    rw [(hg.member c hq).1] at hc
    exact Bool.false_ne_true hc
  cases h with
  | idle | nothing => simp [Visit.blocks] at hm
  | run queue sends fits full =>
      rw [queue] at notMember
      have hlead : g.container = some c := by
        rcases List.mem_append.mp hm with hm | hm
        · simpa using hm
        · exact absurd (List.mem_append_left _ hm) notMember
      refine ⟨hlead, ?_⟩
      have hsize : g.headerSize = c.size := by rw [Group.headerSize, hlead]; rfl
      omega
  | lone queue =>
      rw [queue] at notMember
      obtain rfl := List.mem_singleton.mp hm
      exact absurd List.mem_cons_self notMember

/-- The only container that a visit adds is the leader. -/
theorem containers_sublist (h : Step budget done g v) (hg : g.Fits budget) :
    (v.blocks.filter Item.isContainer).Sublist g.container.toList := by
  have noContainer : ∀ ms : List Item, (∀ m ∈ ms, m ∈ g.queue) →
      ms.filter Item.isContainer = [] := by
    intro ms hms
    rw [List.filter_eq_nil_iff]
    intro m hm
    simp [(hg.member m (hms m hm)).1]
  cases h with
  | idle | nothing => exact List.nil_sublist _
  | run queue =>
      have hms := noContainer _ fun m hm => by rw [queue]; exact List.mem_append_left _ hm
      simp only [Visit.blocks, List.filter_append, hms, List.append_nil]
      exact List.filter_sublist
  | @lone m rest queue =>
      have hm := noContainer [m] fun m' hm' => by
        rw [queue, List.mem_singleton.mp hm']
        exact List.mem_cons_self
      simp only [Visit.blocks, hm]
      exact List.nil_sublist _

/-- An owed leader stays owed until a visit adds it to the batch. -/
theorem owed_or_mem (h : Step budget done g v) (howed : g.owed = true) {c : Item}
    (hc : g.container = some c) : v.group.owed = true ∨ c ∈ v.blocks := by
  cases h with
  | idle | nothing | lone => exact .inl howed
  | run =>
      refine .inr (List.mem_append_left _ ?_)
      rw [hc]
      exact List.mem_singleton_self c

theorem work_le (h : Step budget done g v) : work [v.group] ≤ work [g] := by
  rw [work_singleton, work_singleton]
  cases h with
  | idle | nothing => exact Nat.le_refl _
  | run queue =>
      rw [queue, List.length_append]
      simp only [Bool.false_eq_true, if_false]
      omega
  | lone queue =>
      rw [queue, List.length_cons]
      simp only
      omega

theorem work_lt (h : Step budget done g v) (hv : v.blocks ≠ []) :
    work [v.group] < work [g] := by
  rw [work_singleton, work_singleton]
  cases h with
  | idle | nothing => exact absurd rfl hv
  | @run ms rest queue sends =>
      rw [queue, List.length_append]
      simp only [Bool.false_eq_true, if_false]
      rcases sends with hms | howed
      · have hpos : 0 < ms.length := List.length_pos_iff.mpr hms
        omega
      · rw [howed, if_pos rfl]
        omega
  | lone queue =>
      rw [queue, List.length_cons]
      simp only
      omega

/-- The first pending group that a pass comes to opens the batch. -/
theorem blocks_ne_nil (h : Step budget [] g v) (hg : g.Fits budget)
    (hp : g.pending = true) : v.blocks ≠ [] := by
  cases h with
  | idle quiet =>
      rw [hp] at quiet
      exact absurd quiet.symm Bool.false_ne_true
  | run queue sends =>
      intro hnil
      obtain ⟨hlead, hms⟩ := List.append_eq_nil_iff.mp hnil
      rcases sends with hne | howed
      · exact hne hms
      · exact (hg.owed howed).1 (Option.toList_eq_nil_iff.mp hlead)
  | lone => exact List.cons_ne_nil _ _
  | nothing pending later owed =>
      have howed : g.owed = true := by simpa [Group.pending, later rfl] using pending
      have hover := owed howed
      have hfits := (hg.owed howed).2
      rw [totalSize_nil] at hover
      omega

end Step

end Plan
end Refit

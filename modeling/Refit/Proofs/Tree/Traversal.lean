/-
The walk of a tree as a loop over a stack.

The loop has no bound of its own: it goes on until the stack is empty.  Each tree on the stack carries
the path of its root, so that a run lists the nodes themselves and not only their labels.  A run ends
because every turn takes one node off the trees on the stack, and it lists the nodes of these trees
one tree after the other, as the recursion over trees does.
-/
import Refit.Proofs.Decl.Partition
import Refit.Proofs.Tree.Paths

namespace Refit
namespace Tree

variable {α : Type}

theorem preorderAll_eq_flatMap (ts : List (Tree α)) : preorderAll ts = ts.flatMap preorder := by
  induction ts with
  | nil => rfl
  | cons t ts ih => rw [preorderAll, ih, List.flatMap_cons]

/-- The labels of a tree are that of its root and then those of its children, one after the other. -/
theorem preorder_eq (t : Tree α) : t.preorder = t.label :: t.children.flatMap preorder := by
  cases t with
  | node a ts => rw [preorder, preorderAll_eq_flatMap, label, children]

/-! ## The loop -/

/-- The trees still to be visited with the paths of their roots, the top of the stack first. -/
abbrev Stack (α : Type) := List (List Nat × Tree α)

def branches (path : List Nat) (ts : List (Tree α)) : Stack α :=
  ts.zipIdx.map fun e => (path ++ [e.2], e.1)

/-- A run of the loop to its end, with the nodes that it lists: the tree on top of the stack gives
way to its children. -/
inductive Visits : Stack α → List (List Nat × α) → Prop
  | done : Visits [] []
  | turn {path : List Nat} {a : α} {ts : List (Tree α)} {stack : Stack α}
      {out : List (List Nat × α)} (rest : Visits (branches path ts ++ stack) out) :
      Visits ((path, .node a ts) :: stack) ((path, a) :: out)

variable {stack : Stack α} {out out' : List (List Nat × α)} {t : Tree α}

theorem Visits.unique (h : Visits stack out) (h' : Visits stack out') : out = out' := by
  induction h generalizing out' with
  | done =>
      cases h' with
      | done => rfl
  | turn rest ih =>
      cases h' with
      | turn rest' => rw [ih rest']

def pending (stack : Stack α) : Nat := sizeAll (stack.map Prod.snd)

theorem map_snd_branches (path : List Nat) (ts : List (Tree α)) :
    (branches path ts).map Prod.snd = ts := by
  simp [branches, Function.comp_def]

theorem pending_turn (path : List Nat) (a : α) (ts : List (Tree α)) (stack : Stack α) :
    pending ((path, node a ts) :: stack) = pending (branches path ts ++ stack) + 1 := by
  rw [pending, pending, List.map_append, map_snd_branches, sizeAll_append, List.map_cons, sizeAll, size]
  omega

theorem exists_visits (stack : Stack α) : ∃ out, Visits stack out := by
  -- a turn leaves one node less, so the pending nodes bound the turns
  induction hn : pending stack generalizing stack with
  | zero =>
      cases stack with
      | nil => exact ⟨[], .done⟩
      | cons e stack =>
          obtain ⟨path, a, ts⟩ := e
          rw [pending_turn] at hn
          omega
  | succ n ih =>
      cases stack with
      | nil => exact ⟨[], .done⟩
      | cons e stack =>
          obtain ⟨path, a, ts⟩ := e
          rw [pending_turn] at hn
          obtain ⟨out, hout⟩ := ih (branches path ts ++ stack) (by omega)
          exact ⟨(path, a) :: out, .turn hout⟩

/-! ## What it lists -/

theorem Visits.map_snd (h : Visits stack out) :
    out.map Prod.snd = preorderAll (stack.map Prod.snd) := by
  induction h with
  | done => rfl
  | @turn path a ts stack out rest ih =>
      rw [List.map_cons, ih, List.map_append, map_snd_branches, preorderAll_append]
      rfl

def pathsOf (stack : Stack α) : List (List Nat) :=
  stack.flatMap fun e => e.2.paths.map (e.1 ++ ·)

theorem pathsOf_branches (path : List Nat) (ts : List (Tree α)) :
    pathsOf (branches path ts) = (pathsAll 0 ts).map (path ++ ·) := by
  -- the index of the first tree is carried along, as in `pathsAll`
  have hfrom : ∀ i, pathsOf ((ts.zipIdx i).map fun e => (path ++ [e.2], e.1)) =
      (pathsAll i ts).map (path ++ ·) := by
    induction ts with
    | nil => exact fun i => rfl
    | cons t ts ih =>
        intro i
        have hrest := ih (i + 1)
        simp only [pathsOf] at hrest ⊢
        rw [List.zipIdx_cons, List.map_cons, List.flatMap_cons, hrest, pathsAll, List.map_append,
          List.map_map]
        simp [Function.comp_def]
  exact hfrom 0

theorem Visits.map_fst (h : Visits stack out) : out.map Prod.fst = pathsOf stack := by
  induction h with
  | done => rfl
  | @turn path a ts stack out rest ih =>
      have hstack : ∀ s s' : Stack α, pathsOf (s ++ s') = pathsOf s ++ pathsOf s' :=
        fun _ _ => List.flatMap_append
      rw [List.map_cons, ih, hstack, pathsOf_branches]
      simp [pathsOf, paths]

theorem Visits.paths_eq (h : Visits [([], t)] out) : out.map Prod.fst = t.paths := by
  rw [h.map_fst]
  simp [pathsOf]

theorem Visits.walk_eq (h : Visits [([], t)] out) : out.map Prod.snd = t.walk := by
  rw [h.map_snd, walk_eq_preorder]
  simp [preorderAll]

/-- What is listed with a path is the label of the node there. -/
theorem Visits.mem_iff (h : Visits [([], t)] out) {path : List Nat} {a : α} :
    (path, a) ∈ out ↔ t.labelAt? path = some a := by
  have hlabel : ∀ {i : Nat} {e : List Nat × α}, out[i]? = some e →
      t.labelAt? e.1 = some e.2 := by
    intro i e hi
    have hpath : t.paths[i]? = some e.1 := by
      rw [← h.paths_eq, List.getElem?_map, hi]
      rfl
    rw [labelAt?_of_getElem?_paths hpath, ← h.walk_eq, List.getElem?_map, hi]
    rfl
  constructor
  · intro hmem
    obtain ⟨i, hi⟩ := List.mem_iff_getElem?.mp hmem
    exact hlabel hi
  · intro ha
    have hmem := mem_paths_of_labelAt? ha
    rw [← h.paths_eq] at hmem
    obtain ⟨e, he, rfl⟩ := List.mem_map.mp hmem
    obtain ⟨i, hi⟩ := List.mem_iff_getElem?.mp he
    rw [← Option.some.inj ((hlabel hi).symm.trans ha)]
    exact he

theorem not_lt_of_isPrefix {p q : List Nat} (h : q <+: p) : ¬p < q := by
  obtain ⟨r, rfl⟩ := h
  induction q with
  | nil => exact List.not_lt_nil _
  | cons k q ih =>
      rw [List.cons_append, List.cons_lt_cons_iff]
      rintro (hk | ⟨-, hq⟩)
      · omega
      · exact ih hq

/-- No node is listed behind one that is below it, and none is listed again. -/
theorem pairwise_not_isPrefix_paths (t : Tree α) : t.paths.Pairwise fun p q => ¬q <+: p :=
  (pairwise_paths t).imp fun hlt hprefix => not_lt_of_isPrefix hprefix hlt

end Tree

namespace DeclTree

/-- The places of the types lead to the nodes of that kind, in the order in which they are listed. -/
theorem getElem?_types {t : DeclTree} {out : List (List Nat × Decl)}
    (h : out.map Prod.snd = t.walk) :
    (types t).map (fun p => out[p.place]?) = (out.filter fun e => e.2.kind == .type).map some := by
  have hplaced : placed t = out.zipIdx.map fun e => ⟨e.2, e.1.2⟩ := by
    rw [placed, ← h, Data.Placed.list, List.zipIdx_map, List.map_map]
    rfl
  have hplace : ∀ e ∈ out.zipIdx.filter fun e => e.1.2.kind == .type, out[e.2]? = some e.1 :=
    fun e he => List.mem_zipIdx_iff_getElem?.mp (List.mem_filter.mp he).1
  have hlisted : (out.zipIdx.filter fun e => e.1.2.kind == .type).map Prod.fst =
      out.filter fun e => e.2.kind == .type := by
    conv_rhs => rw [← List.zipIdx_map_fst 0 out, List.filter_map]
    rfl
  rw [types, hplaced, List.filter_map, List.map_map, ← hlisted, List.map_map]
  exact List.map_congr_left hplace

/-- The loop over a stack ends on every tree, and in one way only.  What it lists is what the walk
lists, in the order of the recursion over trees.  Every node is listed once and before all nodes below
it, and the types are the nodes of that kind among those listed. -/
theorem walk_visits_nodes_in_preorder (t : DeclTree) :
    ∃ out : List (List Nat × Decl),
      (∀ out', Tree.Visits [([], t)] out' ↔ out' = out) ∧
      out.map Prod.snd = t.walk ∧ t.walk = t.preorder ∧
      (∀ u : DeclTree, u.preorder = u.label :: u.children.flatMap Tree.preorder) ∧
      (∀ path d, (path, d) ∈ out ↔ t.labelAt? path = some d) ∧
      (out.map Prod.fst).Nodup ∧ (out.map Prod.fst).Pairwise (fun p q => ¬q <+: p) ∧
      (types t).map (fun p => out[p.place]?) = (out.filter fun e => e.2.kind == .type).map some ∧
      (types t).map Data.Placed.item = t.preorder.filter fun d => d.kind == .type := by
  obtain ⟨out, hout⟩ := Tree.exists_visits [([], t)]
  have hpaths := hout.paths_eq
  have hwalk := Tree.walk_eq_preorder t
  refine ⟨out, fun out' => ⟨fun h => h.unique hout, fun h => h ▸ hout⟩, hout.walk_eq, hwalk,
    Tree.preorder_eq, fun path d => hout.mem_iff, ?_, ?_, getElem?_types hout.walk_eq, ?_⟩
  · rw [hpaths]
    refine (Tree.pairwise_paths t).imp fun {p q} hlt heq => ?_
    exact List.lt_irrefl p (heq ▸ hlt)
  · rw [hpaths]
    exact Tree.pairwise_not_isPrefix_paths t
  · rw [map_item_types, hwalk]

end DeclTree
end Refit

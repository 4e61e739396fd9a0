/-
Document order, and the places of nodes in a tree.

A node has a path from the root: the positions of the children that lead to it. Paths tell nodes
apart that carry the same label, and their lexicographic order is document order.
-/
import Refit.Tree

namespace Refit
namespace Tree

variable {α β : Type}

mutual

def preorder : Tree α → List α
  | .node a ts => a :: preorderAll ts

def preorderAll : List (Tree α) → List α
  | [] => []
  | t :: ts => preorder t ++ preorderAll ts

end

theorem preorderAll_append (ts us : List (Tree α)) :
    preorderAll (ts ++ us) = preorderAll ts ++ preorderAll us := by
  induction ts with
  | nil => rfl
  | cons t ts ih => simp only [List.cons_append, preorderAll, ih, List.append_assoc]

theorem sizeAll_append (ts us : List (Tree α)) :
    sizeAll (ts ++ us) = sizeAll ts + sizeAll us := by
  induction ts with
  | nil => simp [sizeAll]
  | cons t ts ih => simp only [List.cons_append, sizeAll, ih, Nat.add_assoc]

/-- A walk with fuel for every node on the stack lists the trees on it one after the other. -/
theorem walkFrom_eq_preorderAll (fuel : Nat) (stack : List (Tree α))
    (h : sizeAll stack ≤ fuel) : walkFrom fuel stack = preorderAll stack := by
  induction fuel generalizing stack with
  | zero =>
    match stack with
    | [] => rfl
    | .node a ts :: stack => simp [sizeAll, size] at h
  | succ fuel ih =>
    match stack with
    | [] => rfl
    | .node a ts :: stack =>
      have hrest : sizeAll (ts ++ stack) ≤ fuel := by
        rw [sizeAll_append]
        simp only [sizeAll, size] at h
        omega
      simp only [walkFrom, ih _ hrest, preorderAll_append, preorderAll, preorder,
        List.cons_append]

theorem walk_eq_preorder (t : Tree α) : t.walk = t.preorder := by
  rw [walk, walkFrom_eq_preorderAll _ _ (by simp [sizeAll])]
  simp [preorderAll]

mutual

def map (f : α → β) : Tree α → Tree β
  | .node a ts => .node (f a) (mapAll f ts)

def mapAll (f : α → β) : List (Tree α) → List (Tree β)
  | [] => []
  | t :: ts => map f t :: mapAll f ts

end

theorem mapAll_append (f : α → β) (ts us : List (Tree α)) :
    mapAll f (ts ++ us) = mapAll f ts ++ mapAll f us := by
  induction ts with
  | nil => rfl
  | cons t ts ih => simp only [List.cons_append, mapAll, ih]

mutual

theorem preorder_map (f : α → β) : (t : Tree α) → (t.map f).preorder = t.preorder.map f
  | .node a ts => by
    simp only [map, preorder, preorderAll_mapAll f ts, List.map_cons]

theorem preorderAll_mapAll (f : α → β) :
    (ts : List (Tree α)) → preorderAll (mapAll f ts) = (preorderAll ts).map f
  | [] => rfl
  | t :: ts => by
    simp only [mapAll, preorderAll, preorder_map f t, preorderAll_mapAll f ts, List.map_append]

end

mutual

/-- Every node but the root, after its parent, in document order. -/
def edges : Tree α → List (α × α)
  | .node a ts => edgesAll a ts

/-- The edges of trees that hang below a node, those from it included. -/
def edgesAll (parent : α) : List (Tree α) → List (α × α)
  | [] => []
  | t :: ts => (parent, t.label) :: (edges t ++ edgesAll parent ts)

end

theorem edgesAll_append (parent : α) (ts us : List (Tree α)) :
    edgesAll parent (ts ++ us) = edgesAll parent ts ++ edgesAll parent us := by
  induction ts with
  | nil => rfl
  | cons t ts ih => simp only [List.cons_append, edgesAll, ih, List.append_assoc]

mutual

theorem preorder_eq_label_cons :
    (t : Tree α) → t.preorder = t.label :: t.edges.map Prod.snd
  | .node a ts => by
    simp only [preorder, edges, preorderAll_eq_map_edgesAll a ts, label]

theorem preorderAll_eq_map_edgesAll (parent : α) :
    (ts : List (Tree α)) → preorderAll ts = (edgesAll parent ts).map Prod.snd
  | [] => rfl
  | t :: ts => by
    simp only [preorderAll, edgesAll, preorder_eq_label_cons t,
      preorderAll_eq_map_edgesAll parent ts, List.map_cons, List.map_append, List.cons_append]

end

def at? : Tree α → List Nat → Option (Tree α)
  | t, [] => some t
  | t, i :: path => t.children[i]?.bind (at? · path)

theorem at?_append (t : Tree α) (path rest : List Nat) :
    t.at? (path ++ rest) = (t.at? path).bind (at? · rest) := by
  induction path generalizing t with
  | nil => rfl
  | cons i path ih =>
    simp only [List.cons_append, at?, Option.bind_assoc, ih]

theorem at?_append_singleton {t u : Tree α} {path : List Nat} (h : t.at? path = some u)
    (i : Nat) : t.at? (path ++ [i]) = u.children[i]? := by
  induction path generalizing t with
  | nil =>
    simp only [at?, Option.some.injEq] at h
    subst h
    simp [at?]
  | cons j path ih =>
    simp only [at?] at h
    obtain ⟨c, hc, h⟩ := Option.bind_eq_some_iff.1 h
    simp only [List.cons_append, at?, hc, Option.bind_some]
    exact ih h

mutual

def paths : Tree α → List (List Nat)
  | .node _ ts => [] :: pathsAll 0 ts

/-- The paths into trees that stand side by side, the first of them at position `i`. -/
def pathsAll (i : Nat) : List (Tree α) → List (List Nat)
  | [] => []
  | t :: ts => (paths t).map (i :: ·) ++ pathsAll (i + 1) ts

end

mutual

theorem mem_paths_iff :
    (t : Tree α) → (path : List Nat) → (path ∈ t.paths ↔ (t.at? path).isSome)
  | .node a ts, [] => by simp [paths, at?]
  | .node a ts, k :: path => by
    have h := mem_pathsAll_iff 0 ts k path
    simp only [Nat.zero_le, Nat.sub_zero, true_and] at h
    simpa [paths, at?, children] using h

theorem mem_pathsAll_iff (i : Nat) :
    (ts : List (Tree α)) → (k : Nat) → (path : List Nat) →
      (k :: path ∈ pathsAll i ts ↔ i ≤ k ∧ (ts[k - i]?.bind (at? · path)).isSome)
  | [], k, path => by simp [pathsAll]
  | t :: ts, k, path => by
    have ih := mem_pathsAll_iff (i + 1) ts k path
    simp only [pathsAll, List.mem_append, List.mem_map, ih]
    rcases Nat.lt_trichotomy k i with hk | rfl | hk
    · constructor
      · rintro (⟨q, -, hq⟩ | ⟨hik, -⟩)
        · simp only [List.cons.injEq] at hq
          omega
        · omega
      · rintro ⟨hik, -⟩
        omega
    · have hik : ¬k + 1 ≤ k := by omega
      simp [mem_paths_iff t path, hik]
    · have hsub : k - i = (k - (i + 1)) + 1 := by omega
      have hik : i ≤ k := by omega
      have hik' : i + 1 ≤ k := by omega
      have hne : i ≠ k := by omega
      simp [hsub, hik, hik', hne]

end

theorem le_of_mem_pathsAll {i : Nat} {ts : List (Tree α)} {path : List Nat}
    (h : path ∈ pathsAll i ts) : ∃ k q, path = k :: q ∧ i ≤ k := by
  induction ts generalizing i with
  | nil => simp [pathsAll] at h
  | cons t ts ih =>
    simp only [pathsAll, List.mem_append, List.mem_map] at h
    obtain ⟨q, -, rfl⟩ | h := h
    · exact ⟨i, q, rfl, Nat.le_refl i⟩
    · obtain ⟨k, q, rfl, hk⟩ := ih h
      exact ⟨k, q, rfl, by omega⟩

mutual

/-- Document order is the lexicographic order of paths. -/
theorem pairwise_paths : (t : Tree α) → t.paths.Pairwise (· < ·)
  | .node a ts => by
    simp only [paths, List.pairwise_cons]
    refine ⟨fun path h => ?_, pairwise_pathsAll 0 ts⟩
    obtain ⟨k, q, rfl, -⟩ := le_of_mem_pathsAll h
    exact List.Lex.nil

theorem pairwise_pathsAll (i : Nat) :
    (ts : List (Tree α)) → (pathsAll i ts).Pairwise (· < ·)
  | [] => List.Pairwise.nil
  | t :: ts => by
    simp only [pathsAll, List.pairwise_append, List.pairwise_map]
    refine ⟨(pairwise_paths t).imp fun h => List.Lex.cons h, pairwise_pathsAll (i + 1) ts, ?_⟩
    intro path h path' h'
    obtain ⟨q, -, rfl⟩ := List.mem_map.1 h
    obtain ⟨k, q', rfl, hk⟩ := le_of_mem_pathsAll h'
    exact List.Lex.rel hk

end

/-! ## Labels along the paths -/

def labelAt? (t : Tree α) (path : List Nat) : Option α := (t.at? path).map label

-- The trees of a forest are the last children of a node, and the children before them are carried
-- along, so that the paths into the forest are paths from that node.

mutual

theorem map_labelAt?_paths : (t : Tree α) → t.paths.map t.labelAt? = t.preorder.map some
  | .node a ts => by
    simp only [paths, preorder, List.map_cons]
    exact congrArg _ (map_labelAt?_pathsAll a [] ts)

theorem map_labelAt?_pathsAll (a : α) (before : List (Tree α)) :
    (ts : List (Tree α)) →
      (pathsAll before.length ts).map (node a (before ++ ts)).labelAt? = (preorderAll ts).map some
  | [] => rfl
  | t :: ts => by
    have hfirst : (t.paths.map (before.length :: ·)).map (node a (before ++ t :: ts)).labelAt? =
        t.paths.map t.labelAt? := by
      simp [labelAt?, at?, children]
    have hrest := map_labelAt?_pathsAll a (before ++ [t]) ts
    rw [List.length_append, List.length_singleton, ← List.append_cons] at hrest
    rw [pathsAll, List.map_append, hfirst, hrest, map_labelAt?_paths t, preorderAll,
      List.map_append]

end

/-- The path that a walk has reached at a position has the label that is listed there. -/
theorem labelAt?_of_getElem?_paths {t : Tree α} {i : Nat} {path : List Nat}
    (h : t.paths[i]? = some path) : t.labelAt? path = t.walk[i]? := by
  have hmap := congrArg (·[i]?) (map_labelAt?_paths t)
  simp only [List.getElem?_map, h, Option.map_some] at hmap
  rw [walk_eq_preorder]
  cases hlabel : t.preorder[i]? with
  | none => simp [hlabel] at hmap
  | some a => simpa [hlabel] using hmap

theorem length_paths (t : Tree α) : t.paths.length = t.walk.length := by
  rw [walk_eq_preorder, ← List.length_map, map_labelAt?_paths, List.length_map]

theorem mem_paths_of_labelAt? {t : Tree α} {path : List Nat} {a : α}
    (h : t.labelAt? path = some a) : path ∈ t.paths := by
  obtain ⟨u, hu, -⟩ := Option.map_eq_some_iff.1 h
  rw [mem_paths_iff, hu]
  rfl

theorem mem_walk_of_labelAt? {t : Tree α} {path : List Nat} {a : α}
    (h : t.labelAt? path = some a) : a ∈ t.walk := by
  have hmem : some a ∈ t.paths.map t.labelAt? :=
    List.mem_map.2 ⟨path, mem_paths_of_labelAt? h, h⟩
  rw [map_labelAt?_paths, List.mem_map] at hmem
  obtain ⟨b, hb, heq⟩ := hmem
  rw [walk_eq_preorder, ← Option.some.inj heq]
  exact hb

end Tree
end Refit

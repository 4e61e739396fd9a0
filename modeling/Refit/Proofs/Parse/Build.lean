/-
The loop that builds the tree of declarations.

Its stack holds the parts still to be read, each with the path of its owner. What
the stack still has to give is `grown`: every part, from the top down, appends its
declarations to its owner. A turn of the loop leaves that as it is, whether the
part has a kind or not, so the loop ends with the tree that the recursion over the
parts describes.
-/
import Refit.Parse
import Refit.Proofs.Tree.Paths

namespace Refit

namespace Tree

variable {α : Type}

theorem appendAt_nil (path : List Nat) (t : Tree α) : t.appendAt [] path = t := by
  induction path generalizing t with
  | nil =>
      cases t with
      | node a ts => rw [appendAt, List.append_nil]
  | cons i path ih =>
      cases t with
      | node a ts =>
          have hid : appendAt (α := α) [] path = id := funext ih
          rw [appendAt, hid, List.modify_id]

theorem appendAt_appendAt (us vs : List (Tree α)) (path : List Nat) (t : Tree α) :
    (t.appendAt us path).appendAt vs path = t.appendAt (us ++ vs) path := by
  induction path generalizing t with
  | nil =>
      cases t with
      | node a ts => rw [appendAt, appendAt, appendAt, List.append_assoc]
  | cons i path ih =>
      cases t with
      | node a ts =>
          have hcomp : appendAt vs path ∘ appendAt us path = appendAt (us ++ vs) path := funext ih
          rw [appendAt, appendAt, appendAt, List.modify_modify_eq, hcomp]

theorem modify_append_singleton (f : Tree α → Tree α) (ts : List (Tree α)) (t : Tree α) :
    (ts ++ [t]).modify ts.length f = ts ++ [f t] := by
  induction ts with
  | nil => rfl
  | cons u ts ih => rw [List.cons_append, List.length_cons, List.modify_succ_cons, ih, List.cons_append]

/-- What is appended to the node that came last is part of it from the start. -/
theorem appendAt_new (a : α) (us : List (Tree α)) (path : List Nat) (t : Tree α) :
    (t.appendAt [.node a []] path).appendAt us (path ++ [t.childCount path]) =
      t.appendAt [.node a us] path := by
  induction path generalizing t with
  | nil =>
      cases t with
      | node b ts =>
          show Tree.node b ((ts ++ [Tree.node a []]).modify ts.length (appendAt us [])) = _
          rw [modify_append_singleton]
          rfl
  | cons i path ih =>
      cases t with
      | node b ts =>
          let count := (ts[i]?.map (childCount path)).getD 0
          have hchildren : (ts.modify i (appendAt [.node a []] path)).modify i
              (appendAt us (path ++ [count])) = ts.modify i (appendAt [.node a us] path) := by
            rw [List.modify_modify_eq]
            apply List.ext_getElem?
            intro j
            rw [List.getElem?_modify, List.getElem?_modify]
            by_cases hij : i = j
            · subst hij
              cases hchild : ts[i]? with
              | none => rfl
              | some u =>
                  have hcount : count = u.childCount path := by simp [count, hchild]
                  simp [hcount, ih u]
            · simp [hij]
          exact congrArg (Tree.node b) hchildren

end Tree

namespace Parse

mutual

def declarations (bytes : Bytes) (parent : Construct) : Tree Part → List DeclTree
  | .node p ts =>
    match Construct.kind? parent p.construct with
    | some kind => [.node (declare bytes kind (.node p ts)) (declarationsAll bytes p.construct ts)]
    | none => declarationsAll bytes p.construct ts

def declarationsAll (bytes : Bytes) (parent : Construct) : List (Tree Part) → List DeclTree
  | [] => []
  | t :: ts => declarations bytes parent t ++ declarationsAll bytes parent ts

end

section Loop

variable (bytes : Bytes)

theorem declarations_of_none {holder : Construct} {t : Tree Part}
    (h : Construct.kind? holder t.label.construct = none) :
    declarations bytes holder t = declarationsAll bytes t.label.construct t.children := by
  cases t with
  | node part ts =>
      rw [Tree.label] at h
      rw [declarations, h]
      rfl

theorem declarations_of_some {holder : Construct} {t : Tree Part} {kind : Kind}
    (h : Construct.kind? holder t.label.construct = some kind) :
    declarations bytes holder t =
      [.node (declare bytes kind t) (declarationsAll bytes t.label.construct t.children)] := by
  cases t with
  | node part ts =>
      rw [Tree.label] at h
      rw [declarations, h]
      rfl

/-- The tree with the declarations that a stack still has to give. -/
def grown (stack : List Pending) (tree : DeclTree) : DeclTree :=
  stack.foldl (fun tree p => tree.appendAt (declarations bytes p.holder p.part) p.owner) tree

def pendingSize (stack : List Pending) : Nat := Tree.sizeAll (stack.map Pending.part)

theorem map_part_pendingIn (t : Tree Part) (owner : List Nat) :
    (pendingIn t owner).map Pending.part = t.children := by
  rw [pendingIn, List.map_map]
  exact List.map_id _

theorem pendingSize_turn (p : Pending) (owner : List Nat) (stack : List Pending) :
    pendingSize (p :: stack) = pendingSize (pendingIn p.part owner ++ stack) + 1 := by
  have hsize : p.part.size = Tree.sizeAll p.part.children + 1 := by
    cases p.part
    rfl
  rw [pendingSize, pendingSize, List.map_append, map_part_pendingIn, Tree.sizeAll_append,
    List.map_cons, Tree.sizeAll, hsize]
  omega

/-- Parts with one owner give it their declarations one after the other. -/
theorem grown_pendingIn (t : Tree Part) (owner : List Nat) (stack : List Pending) (tree : DeclTree) :
    grown bytes (pendingIn t owner ++ stack) tree =
      grown bytes stack
        (tree.appendAt (declarationsAll bytes t.label.construct t.children) owner) := by
  have hforest : ∀ (ts : List (Tree Part)) (tree : DeclTree),
      grown bytes (ts.map fun c => ⟨t.label.construct, c, owner⟩) tree =
        tree.appendAt (declarationsAll bytes t.label.construct ts) owner := by
    intro ts
    induction ts with
    | nil => exact fun tree => (Tree.appendAt_nil owner tree).symm
    | cons c ts ih =>
        intro tree
        rw [declarationsAll, ← Tree.appendAt_appendAt, ← ih]
        rfl
  rw [grown, List.foldl_append]
  exact congrArg (grown bytes stack) (hforest t.children tree)

/-- The loop gives what its stack has to give. -/
theorem build_eq_grown (fuel : Nat) (stack : List Pending) (tree : DeclTree)
    (h : pendingSize stack ≤ fuel) : build bytes fuel stack tree = grown bytes stack tree := by
  induction fuel generalizing stack tree with
  | zero =>
      cases stack with
      | nil => rfl
      | cons p stack =>
          rw [pendingSize_turn p p.owner] at h
          omega
  | succ fuel ih =>
      cases stack with
      | nil => rfl
      | cons p stack =>
          have hturn : ∀ owner, pendingSize (pendingIn p.part owner ++ stack) ≤ fuel := by
            intro owner
            rw [pendingSize_turn p owner] at h
            omega
          show _ = grown bytes stack (tree.appendAt (declarations bytes p.holder p.part) p.owner)
          rw [build]
          split
          · next hkind =>
            rw [ih _ _ (hturn _), grown_pendingIn, declarations_of_none bytes hkind]
          · next kind hkind =>
            rw [ih _ _ (hturn _), grown_pendingIn, Tree.appendAt_new,
              declarations_of_some bytes hkind]

end Loop

/-- The loop ends with the declarations of the recursion below the file. -/
theorem tree_eq_declarations (p : Parse) (source : Text) (file : Option Text)
    (h : p.hasErrors = false) :
    p.tree source file = .ok (.node (fileDecl source)
      (declarationsAll (Text.Utf8.encode source) p.root.label.construct p.root.children)) := by
  have hsize : pendingSize (pendingIn p.root []) = Tree.sizeAll p.root.children := by
    rw [pendingSize, map_part_pendingIn]
  have hgrown := grown_pendingIn (Text.Utf8.encode source) p.root [] [] (.node (fileDecl source) [])
  rw [List.append_nil] at hgrown
  rw [tree, h, if_neg Bool.false_ne_true, build_eq_grown _ _ _ _ (Nat.le_of_eq hsize), hgrown]
  rfl

end Parse
end Refit

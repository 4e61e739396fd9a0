/-
The declarations of a parse are its parts that have a kind.

The parts are told apart by their paths in the parse. The tree of declarations is a skeleton of
such paths with a declaration made at each: its paths are those of the parts with a kind, and each
hangs below the nearest one around it.
-/
import Mathlib.Data.List.Induction
import Refit.Proofs.Parse.Build

namespace Refit
namespace Parse

/-! ## Parts with a kind -/

/-- The kinds that parts have, by the grammar's names for a part and for what holds it. -/
inductive KindOf (holder : Text) : Text → Kind → Prop
  | type {name : Text}
      (h : name ∈ ["class_declaration".toList, "interface_declaration".toList,
        "enum_declaration".toList, "record_declaration".toList,
        "annotation_type_declaration".toList]) :
      KindOf holder name .type
  | method {name : Text}
      (h : name ∈ ["method_declaration".toList, "constructor_declaration".toList,
        "compact_constructor_declaration".toList]) :
      KindOf holder name .method
  | lambda : KindOf holder "lambda_expression" .lambda
  | staticInitializer : KindOf holder "static_initializer" .initializer
  | initializer (h : holder ∈ ["class_body".toList, "enum_body_declarations".toList]) :
      KindOf holder "block" .initializer

theorem mem_names_of_ofName {name : Text} {c : Construct} (h : Construct.ofName name = c)
    (hc : c ≠ .other) : (name, c) ∈ Construct.names := by
  rw [Construct.ofName] at h
  cases hfind : Construct.names.find? fun e => e.1 == name with
  | none =>
      rw [hfind] at h
      exact absurd h.symm hc
  | some e =>
      rw [hfind] at h
      obtain rfl : e.2 = c := h
      have hkey := List.find?_some hfind
      obtain rfl : e.1 = name := eq_of_beq hkey
      exact List.mem_of_find?_eq_some hfind

theorem kindOf_of_kind? {holder name : Text} {kind : Kind}
    (h : Construct.kind? (.ofName holder) (.ofName name) = some kind) : KindOf holder name kind := by
  cases hname : Construct.ofName name with
  | typeDeclaration =>
      rw [hname] at h
      obtain rfl := Option.some.inj h
      exact .type (by simpa [Construct.names] using mem_names_of_ofName hname (by decide))
  | methodDeclaration =>
      rw [hname] at h
      obtain rfl := Option.some.inj h
      exact .method (by simpa [Construct.names] using mem_names_of_ofName hname (by decide))
  | lambda =>
      rw [hname] at h
      obtain rfl := Option.some.inj h
      obtain rfl : name = "lambda_expression".toList := by
        simpa [Construct.names] using mem_names_of_ofName hname (by decide)
      exact .lambda
  | staticInitializer =>
      rw [hname] at h
      obtain rfl := Option.some.inj h
      obtain rfl : name = "static_initializer".toList := by
        simpa [Construct.names] using mem_names_of_ofName hname (by decide)
      exact .staticInitializer
  | block =>
      rw [hname] at h
      obtain rfl : name = "block".toList := by
        simpa [Construct.names] using mem_names_of_ofName hname (by decide)
      cases hholder : Construct.ofName holder with
      | classBody =>
          rw [hholder] at h
          obtain rfl := Option.some.inj h
          have hmem : holder = "class_body".toList := by
            simpa [Construct.names] using mem_names_of_ofName hholder (by decide)
          exact .initializer (by simp [hmem])
      | enumMembers =>
          rw [hholder] at h
          obtain rfl := Option.some.inj h
          have hmem : holder = "enum_body_declarations".toList := by
            simpa [Construct.names] using mem_names_of_ofName hholder (by decide)
          exact .initializer (by simp [hmem])
      | _ =>
          rw [hholder] at h
          cases h
  | _ =>
      rw [hname] at h
      cases h

/-- The lookups of the grammar's names come to the kinds of parts. -/
theorem kind?_ofName_eq_some_iff {holder name : Text} {kind : Kind} :
    Construct.kind? (.ofName holder) (.ofName name) = some kind ↔ KindOf holder name kind := by
  refine ⟨kindOf_of_kind?, fun h => ?_⟩
  have hlookup : ∀ e ∈ Construct.names, Construct.ofName e.1 = e.2 := by decide
  cases h with
  | type h =>
      have htype : Construct.ofName name = .typeDeclaration :=
        hlookup (name, .typeDeclaration) (by simpa [Construct.names] using h)
      rw [htype]
      rfl
  | method h =>
      have hmethod : Construct.ofName name = .methodDeclaration :=
        hlookup (name, .methodDeclaration) (by simpa [Construct.names] using h)
      rw [hmethod]
      rfl
  | lambda => rfl
  | staticInitializer => rfl
  | initializer h =>
      have hbody : Construct.ofName holder = .classBody ∨ Construct.ofName holder = .enumMembers := by
        simp only [List.mem_cons, List.not_mem_nil, or_false] at h
        rcases h with rfl | rfl
        · exact .inl rfl
        · exact .inr rfl
      rcases hbody with hbody | hbody
      · rw [hbody]
        rfl
      · rw [hbody]
        rfl

/-- There is a part at a path, held by another, and the names of the two give it a kind. -/
def Declares (p : Parse) (path : List Nat) (kind : Kind) : Prop :=
  ∃ holder part, path ≠ [] ∧ p.root.at? path.dropLast = some holder ∧
    p.root.at? path = some part ∧ KindOf holder.label.type part.label.type kind

/-- The path `q` leads to the nearest part properly around `path` that has a kind, or to the root
where there is none. -/
structure NearestAround (p : Parse) (path q : List Nat) : Prop where
  isPrefix : q <+: path
  ne : q ≠ path
  declares : q = [] ∨ ∃ kind, p.Declares q kind
  nearest : ∀ r kind, r <+: path → r ≠ path → p.Declares r kind → r <+: q

/-- The kind that a part has under the part that holds it. Nothing holds the root. -/
def kindAt (p : Parse) (path : List Nat) : Option Kind :=
  if path = [] then none
  else do
    let holder ← p.root.at? path.dropLast
    let part ← p.root.at? path
    Construct.kind? holder.label.construct part.label.construct

def hasKind (p : Parse) (path : List Nat) : Bool := (p.kindAt path).isSome

def declared (p : Parse) : List (List Nat) := p.root.paths.filter p.hasKind

/-- The paths of the parts around a part, the nearest first. -/
def around (path : List Nat) : List (List Nat) := (List.range path.length).reverse.map path.take

/-- The nearest part around that has a kind, or the root. -/
def owner (p : Parse) (path : List Nat) : List Nat := ((around path).find? p.hasKind).getD []

/-- The declaration made at a part. Only the file is left for a part with no kind. -/
def declAt (p : Parse) (source : Text) (path : List Nat) : Decl :=
  match p.kindAt path, p.root.at? path with
  | some kind, some part => declare (Text.Utf8.encode source) kind part
  | _, _ => fileDecl source

theorem kindAt_eq_some_iff {p : Parse} {path : List Nat} {kind : Kind} :
    p.kindAt path = some kind ↔ p.Declares path kind := by
  rw [kindAt, Declares]
  split
  · next hnil => simp [hnil]
  · next hne =>
    constructor
    · intro h
      obtain ⟨holder, hholder, h⟩ := Option.bind_eq_some_iff.mp h
      obtain ⟨part, hpart, h⟩ := Option.bind_eq_some_iff.mp h
      exact ⟨holder, part, hne, hholder, hpart, kind?_ofName_eq_some_iff.mp h⟩
    · rintro ⟨holder, part, -, hholder, hpart, h⟩
      rw [hholder, hpart]
      exact kind?_ofName_eq_some_iff.mpr h

theorem hasKind_iff {p : Parse} {path : List Nat} :
    p.hasKind path = true ↔ ∃ kind, p.Declares path kind := by
  rw [hasKind, Option.isSome_iff_exists]
  simp only [kindAt_eq_some_iff]

theorem hasKind_nil (p : Parse) : p.hasKind [] = false := rfl

theorem declAt_nil (p : Parse) (source : Text) : p.declAt source [] = fileDecl source := rfl

theorem mem_declared_iff (p : Parse) (path : List Nat) :
    path ∈ p.declared ↔ p.hasKind path = true := by
  rw [declared, List.mem_filter, Tree.mem_paths_iff]
  constructor
  · exact And.right
  · intro h
    obtain ⟨_, _, _, _, _, hpart, _⟩ := hasKind_iff.mp h
    exact ⟨by rw [hpart]; rfl, h⟩

theorem declAt_of_declares {p : Parse} {path : List Nat} {kind : Kind} (h : p.Declares path kind)
    (source : Text) :
    ∃ part, p.root.at? path = some part ∧
      p.declAt source path = declare (Text.Utf8.encode source) kind part := by
  have hkind := kindAt_eq_some_iff.mpr h
  obtain ⟨_, part, _, _, hpart, _⟩ := h
  exact ⟨part, hpart, by rw [declAt, hkind, hpart]⟩

theorem pairwise_declared (p : Parse) : p.declared.Pairwise (· < ·) :=
  (Tree.pairwise_paths p.root).filter _

theorem around_append_singleton (path : List Nat) (i : Nat) :
    around (path ++ [i]) = path :: around path := by
  have htake : ∀ n ∈ (List.range path.length).reverse, (path ++ [i]).take n = path.take n := by
    intro n hn
    have hlt : n < path.length := by simpa using hn
    exact List.take_append_of_le_length (Nat.le_of_lt hlt)
  simp only [around, List.length_append, List.length_singleton, List.range_succ,
    List.reverse_append, List.reverse_singleton, List.singleton_append, List.map_cons,
    List.take_left']
  rw [List.map_congr_left htake]

/-- The owner of the parts in a part: the part itself if it has a kind, and else its own owner. -/
theorem owner_append_singleton (p : Parse) (path : List Nat) (i : Nat) :
    p.owner (path ++ [i]) = if p.hasKind path then path else p.owner path := by
  rw [owner, around_append_singleton, List.find?_cons]
  cases h : p.hasKind path <;> simp [owner]

theorem nearestAround_owner (p : Parse) {path : List Nat} (hne : path ≠ []) :
    p.NearestAround path (p.owner path) := by
  induction path using List.reverseRecOn with
  | nil => exact absurd rfl hne
  | append_singleton path i ih =>
      have hlonger : ∀ q, q <+: path → q <+: path ++ [i] ∧ q ≠ path ++ [i] := by
        intro q hq
        refine ⟨hq.trans (List.prefix_append path [i]), fun heq => ?_⟩
        have hle := hq.length_le
        rw [heq, List.length_append, List.length_singleton] at hle
        omega
      have hproper : ∀ r, r <+: path ++ [i] → r ≠ path ++ [i] → r <+: path := by
        intro r hr hrne
        exact (List.prefix_concat_iff.mp hr).resolve_left hrne
      rw [owner_append_singleton]
      by_cases hkind : p.hasKind path = true
      · rw [if_pos hkind]
        refine ⟨(hlonger path (List.prefix_refl path)).1, (hlonger path (List.prefix_refl path)).2,
          .inr (hasKind_iff.mp hkind), fun r _ hr hrne _ => hproper r hr hrne⟩
      · rw [if_neg hkind]
        by_cases hnil : path = []
        · subst hnil
          refine ⟨List.nil_prefix, List.cons_ne_nil _ _ ∘ Eq.symm, .inl rfl, ?_⟩
          exact fun r _ hr hrne _ => hproper r hr hrne
        · have hpath := ih hnil
          have hq := hlonger _ hpath.isPrefix
          refine ⟨hq.1, hq.2, hpath.declares, fun r kind hr hrne hdeclares => ?_⟩
          -- the part itself has no kind, so what has one is around it
          refine hpath.nearest r kind (hproper r hr hrne) (fun heq => hkind ?_) hdeclares
          exact hasKind_iff.mpr ⟨kind, heq ▸ hdeclares⟩

theorem kindAt_append_singleton {p : Parse} {path : List Nat} {t c : Tree Part} {i : Nat}
    (ht : p.root.at? path = some t) (hc : t.children[i]? = some c) :
    p.kindAt (path ++ [i]) = Construct.kind? t.label.construct c.label.construct := by
  have hpart : p.root.at? (path ++ [i]) = some c := by rw [Tree.at?_append_singleton ht, hc]
  simp [kindAt, ht, hpart]

mutual

/-- The paths of the declarations in a part, as trees. -/
def skeletonOf (parent : Construct) (path : List Nat) : Tree Part → List (Tree (List Nat))
  | .node part ts =>
    match Construct.kind? parent part.construct with
    | some _ => [.node path (skeletonAll part.construct path 0 ts)]
    | none => skeletonAll part.construct path 0 ts

def skeletonAll (parent : Construct) (path : List Nat) (i : Nat) :
    List (Tree Part) → List (Tree (List Nat))
  | [] => []
  | t :: ts => skeletonOf parent (path ++ [i]) t ++ skeletonAll parent path (i + 1) ts

end

def skeleton (p : Parse) : Tree (List Nat) :=
  .node [] (skeletonAll p.root.label.construct [] 0 p.root.children)

/-- A part of a parse: where it is, and the construct of the part that holds it. -/
structure Found (p : Parse) (path : List Nat) (parent : Construct) (t : Tree Part) : Prop where
  at? : p.root.at? path = some t
  kindAt : p.kindAt path = Construct.kind? parent t.label.construct

theorem Found.of_children {p : Parse} {path : List Nat} {part : Part} {before ts : List (Tree Part)}
    {t : Tree Part} (h : p.root.at? path = some (.node part (before ++ t :: ts))) :
    Found p (path ++ [before.length]) part.construct t := by
  have hc : (Tree.node part (before ++ t :: ts)).children[before.length]? = some t := by
    simp [Tree.children]
  exact ⟨(Tree.at?_append_singleton h _).trans hc, kindAt_append_singleton h hc⟩

-- A forest is the children of one part from some position on, so that the paths of its trees and
-- what holds them are known. The children before them are carried along.

mutual

theorem declarations_eq_mapAll {p : Parse} {path : List Nat} {parent : Construct}
    (source : Text) : (t : Tree Part) → Found p path parent t →
      declarations (Text.Utf8.encode source) parent t =
        Tree.mapAll (p.declAt source) (skeletonOf parent path t)
  | .node part ts, h => by
    have ih := declarationsAll_eq_mapAll source [] ts h.at?
    have hkind := h.kindAt
    simp only [Tree.label] at hkind
    cases hk : Construct.kind? parent part.construct with
    | none => simpa [declarations, skeletonOf, hk] using ih
    | some kind =>
      have hdecl : p.declAt source path =
          declare (Text.Utf8.encode source) kind (.node part ts) := by
        rw [declAt, hkind, hk, h.at?]
      simpa [declarations, skeletonOf, hk, Tree.mapAll, Tree.map, hdecl] using ih

theorem declarationsAll_eq_mapAll {p : Parse} {path : List Nat} {part : Part}
    (source : Text) (before : List (Tree Part)) : (ts : List (Tree Part)) →
      p.root.at? path = some (.node part (before ++ ts)) →
      declarationsAll (Text.Utf8.encode source) part.construct ts =
        Tree.mapAll (p.declAt source) (skeletonAll part.construct path before.length ts)
  | [], _ => rfl
  | t :: ts, h => by
    have hrest : p.root.at? path = some (.node part ((before ++ [t]) ++ ts)) := by
      rw [h, List.append_cons]
    have ih := declarationsAll_eq_mapAll source (before ++ [t]) ts hrest
    rw [List.length_append, List.length_singleton] at ih
    rw [declarationsAll, skeletonAll, Tree.mapAll_append, ih,
      declarations_eq_mapAll source t (Found.of_children h)]

end

mutual

theorem edgesAll_skeletonOf {p : Parse} {path : List Nat} {parent : Construct} :
    (t : Tree Part) → Found p path parent t →
      Tree.edgesAll (p.owner path) (skeletonOf parent path t) =
        ((t.paths.map (path ++ ·)).filter p.hasKind).map fun k => (p.owner k, k)
  | .node part ts, h => by
    have ih := edgesAll_skeletonAll [] ts h.at?
    have hkind := h.kindAt
    simp only [Tree.label] at hkind
    cases hk : Construct.kind? parent part.construct with
    | none =>
      have hfalse : p.hasKind path = false := by simp [hasKind, hkind, hk]
      simpa [skeletonOf, hk, Tree.paths, hfalse] using ih
    | some kind =>
      have htrue : p.hasKind path = true := by simp [hasKind, hkind, hk]
      simpa [skeletonOf, hk, Tree.paths, htrue, Tree.edgesAll, Tree.edges, Tree.label] using ih

theorem edgesAll_skeletonAll {p : Parse} {path : List Nat} {part : Part}
    (before : List (Tree Part)) : (ts : List (Tree Part)) →
      p.root.at? path = some (.node part (before ++ ts)) →
      Tree.edgesAll (if p.hasKind path then path else p.owner path)
          (skeletonAll part.construct path before.length ts) =
        (((Tree.pathsAll before.length ts).map (path ++ ·)).filter p.hasKind).map
          fun k => (p.owner k, k)
  | [], _ => rfl
  | t :: ts, h => by
    have hrest : p.root.at? path = some (.node part ((before ++ [t]) ++ ts)) := by
      rw [h, List.append_cons]
    have ih := edgesAll_skeletonAll (before ++ [t]) ts hrest
    have ht := edgesAll_skeletonOf t (Found.of_children h)
    rw [List.length_append, List.length_singleton] at ih
    rw [owner_append_singleton] at ht
    have hpaths : (t.paths.map (before.length :: ·)).map (path ++ ·) =
        t.paths.map (path ++ [before.length] ++ ·) := by simp
    rw [skeletonAll, Tree.edgesAll_append, ht, ih, Tree.pathsAll, List.map_append, hpaths,
      List.filter_append, List.map_append]

end

theorem edges_skeleton (p : Parse) :
    p.skeleton.edges = p.declared.map fun path => (p.owner path, path) := by
  match hroot : p.root with
  | .node part ts =>
    have hat : p.root.at? [] = some (.node part ([] ++ ts)) := by rw [hroot]; rfl
    have h := edgesAll_skeletonAll [] ts hat
    simpa [skeleton, declared, hroot, Tree.edges, Tree.paths, Tree.label, Tree.children,
      hasKind_nil, owner, around] using h

theorem tree_eq_map_skeleton (p : Parse) (source : Text) (file : Option Text)
    (h : p.hasErrors = false) :
    p.tree source file = .ok (p.skeleton.map (p.declAt source)) := by
  rw [tree_eq_declarations p source file h]
  match hroot : p.root with
  | .node part ts =>
    have hat : p.root.at? [] = some (.node part ([] ++ ts)) := by rw [hroot]; rfl
    have hall := declarationsAll_eq_mapAll source [] ts hat
    simpa [skeleton, hroot, Tree.map, Tree.label, Tree.children, declAt_nil] using hall

theorem walk_map_skeleton (p : Parse) (source : Text) :
    (p.skeleton.map (p.declAt source)).walk =
      fileDecl source :: p.declared.map (p.declAt source) := by
  have hsnd : (p.declared.map fun path => (p.owner path, path)).map Prod.snd = p.declared := by
    rw [List.map_map]
    exact List.map_id p.declared
  rw [Tree.walk_eq_preorder, Tree.preorder_map, Tree.preorder_eq_label_cons, edges_skeleton, hsnd]
  rfl

/-- The declarations of a tree in document order: the file, and those of the parts with a kind. -/
theorem exists_tree_walk (p : Parse) (source : Text) (file : Option Text)
    (h : p.hasErrors = false) :
    ∃ t : DeclTree, p.tree source file = .ok t ∧
      t.walk = fileDecl source :: p.declared.map (p.declAt source) :=
  ⟨_, tree_eq_map_skeleton p source file h, walk_map_skeleton p source⟩

/-- A parse without errors gives a tree. Its nodes are the file and, in document order, the parts
with a kind, each once; and each hangs below the nearest one around it, or below the file. -/
theorem tree_nodes_are_declared_parts (p : Parse) (source : Text) (file : Option Text)
    (h : p.hasErrors = false) :
    ∃ (t : DeclTree) (nodes : Tree (List Nat)), p.tree source file = .ok t ∧
      t = nodes.map (p.declAt source) ∧
      nodes.label = [] ∧
      nodes.edges = p.declared.map (fun path => (p.owner path, path)) ∧
      t.walk = fileDecl source :: p.declared.map (p.declAt source) ∧
      (∀ path, path ∈ p.declared ↔ ∃ kind, p.Declares path kind) ∧
      (∀ path kind, p.Declares path kind → ∃ part, p.root.at? path = some part ∧
        p.declAt source path = declare (Text.Utf8.encode source) kind part) ∧
      (∀ path ∈ p.declared, p.NearestAround path (p.owner path)) ∧
      p.declared.Pairwise (· < ·) := by
  have hne : ∀ path ∈ p.declared, path ≠ [] := by
    intro path hpath
    obtain ⟨_, _, _, hpath, _⟩ := hasKind_iff.mp ((mem_declared_iff p path).mp hpath)
    exact hpath
  exact ⟨_, p.skeleton, tree_eq_map_skeleton p source file h, rfl, rfl, edges_skeleton p,
    walk_map_skeleton p source, fun path => (mem_declared_iff p path).trans hasKind_iff,
    fun path kind hdeclares => declAt_of_declares hdeclares source,
    fun path hpath => nearestAround_owner p (hne path hpath), pairwise_declared p⟩

section Sample

def sampleSource : Text :=
  "class Shop \x7b\n  \x7b stock = 9; \x7d\n  void sell() \x7b\n    each(x -> x);\n  \x7d\n\x7d"

def samplePart (type : Text) (bytes rows : Nat × Nat) (ts : List (Tree Part)) : Tree Part :=
  .node ⟨type, none, bytes.1, bytes.2, rows.1, rows.2⟩ ts

def linePart (type : Text) (field : Option Text) (start stop : Nat) (ts : List (Tree Part)) :
    Tree Part :=
  .node ⟨type, field, start, stop, 0, 0⟩ ts

/-- A class with an initializer block and a method, whose body holds a lambda. -/
def sampleParse : Parse where
  hasErrors := false
  root :=
    samplePart "program" (0, 69) (0, 5) [
      samplePart "class_declaration" (0, 69) (0, 5) [
        samplePart "class_body" (11, 69) (0, 5) [
          samplePart "block" (15, 29) (1, 1) [],
          samplePart "method_declaration" (32, 67) (2, 4) [
            samplePart "block" (44, 67) (2, 4) [
              samplePart "expression_statement" (50, 63) (3, 3) [
                samplePart "lambda_expression" (55, 61) (3, 3) []]]]]]]

end Sample

/-- The body of the method has no kind, and the lambda in it hangs below the method. -/
theorem tree_nodes_of_sampleParse :
    sampleParse.hasErrors = false ∧
      ∃ (t : DeclTree) (nodes : Tree (List Nat)), sampleParse.tree sampleSource none = .ok t ∧
        t = nodes.map (sampleParse.declAt sampleSource) ∧
        nodes.edges = [([], [0]), ([0], [0, 0, 0]), ([0], [0, 0, 1]),
          ([0, 0, 1], [0, 0, 1, 0, 0, 0])] ∧
        t.walk.map Decl.kind = [.unknown, .type, .initializer, .method, .lambda] := by
  obtain ⟨t, nodes, htree, hmap, -, hedges, hwalk, -⟩ :=
    tree_nodes_are_declared_parts sampleParse sampleSource none rfl
  refine ⟨rfl, t, nodes, htree, hmap, ?_, ?_⟩
  · rw [hedges]
    decide
  · rw [hwalk, List.map_cons, List.map_map]
    decide

end Parse
end Refit

/-
The smallest declaration around a line.

A search goes through a tree in document order and keeps the best declaration so far. Here its answer
is told by the nodes of the tree, wherever they stand: no node around the line has fewer lines or, with
equally many, a more specific kind, and of the nodes that are as good the first in document order is
taken. Nodes are told apart by their paths, since a tree may repeat a declaration.
-/
import Mathlib.Data.Prod.Lex
import Refit.Decl.Locate
import Refit.Proofs.Data.Least
import Refit.Proofs.Tree.Paths

namespace Refit

open Data (Placed)

namespace Decl

variable {line : Int} {a b d : Decl}

/-- The kinds that can be chosen for a line, the most specific first. -/
def specificKinds : List Kind := [.method, .lambda, .initializer, .type]

structure IsAround (line : Int) (d : Decl) : Prop where
  kind : d.kind ∈ specificKinds
  start_le : d.start ≤ line
  le_stop : line ≤ d.stop

/-- The number of lines and then the kind, both lower where a declaration is preferred. -/
def rank (d : Decl) : ℤ ×ₗ ℕ := toLex (d.stop - d.start, specificKinds.idxOf d.kind)

theorem encloses_iff : encloses line d = true ↔ IsAround line d := by
  have hkind : d.kind ≠ .unknown ↔ d.kind ∈ specificKinds := by
    cases d.kind <;> decide
  simp only [encloses, Bool.and_eq_true, bne_iff_ne, decide_eq_true_eq, hkind]
  exact ⟨fun h => ⟨h.1.1, h.1.2, h.2⟩, fun h => ⟨⟨h.kind, h.start_le⟩, h.le_stop⟩⟩

theorem priority_eq_idxOf (k : Kind) : priority k = specificKinds.idxOf k := by
  cases k <;> rfl

theorem smaller_iff : smaller a b = true ↔ a.rank < b.rank := by
  rw [rank, rank, Prod.Lex.toLex_lt_toLex]
  simp only [smaller, Bool.or_eq_true, Bool.and_eq_true, decide_eq_true_eq, beq_iff_eq,
    priority_eq_idxOf]

end Decl

namespace DeclTree

open Decl (IsAround)

variable {t : DeclTree} {path path' : List Nat} {line : Int} {d : Decl} {p p' : Placed Decl}

/-! ## Places and paths -/

/-- The declaration at a place of the walk is the node at a path. -/
structure NodeAt (t : DeclTree) (path : List Nat) (p : Placed Decl) : Prop where
  place : t.paths[p.place]? = some path
  label : t.labelAt? path = some p.item

theorem mem_placed_iff : p ∈ placed t ↔ ∃ path, NodeAt t path p := by
  rw [placed, Placed.mem_list_iff]
  constructor
  · intro h
    have hlt : p.place < t.paths.length := by
      rw [Tree.length_paths]
      exact (List.getElem?_eq_some_iff.mp h).1
    have hpath := List.getElem?_eq_getElem hlt
    exact ⟨_, hpath, (Tree.labelAt?_of_getElem?_paths hpath).trans h⟩
  · rintro ⟨path, hplace, hlabel⟩
    rw [← Tree.labelAt?_of_getElem?_paths hplace, hlabel]

theorem exists_nodeAt (h : t.labelAt? path = some d) : ∃ p, NodeAt t path p ∧ p.item = d := by
  obtain ⟨i, hi⟩ := List.mem_iff_getElem?.mp (Tree.mem_paths_of_labelAt? h)
  exact ⟨⟨i, d⟩, ⟨hi, h⟩, rfl⟩

namespace NodeAt

theorem mem_placed (h : NodeAt t path p) : p ∈ placed t := mem_placed_iff.mpr ⟨path, h⟩

theorem lt_of_place_lt (h : NodeAt t path p) (h' : NodeAt t path' p') (hlt : p.place < p'.place) :
    path < path' := by
  obtain ⟨hi, rfl⟩ := List.getElem?_eq_some_iff.mp h.place
  obtain ⟨hi', rfl⟩ := List.getElem?_eq_some_iff.mp h'.place
  exact List.pairwise_iff_getElem.mp (Tree.pairwise_paths t) _ _ hi hi' hlt

theorem path_eq (h : NodeAt t path p) (h' : NodeAt t path' p) : path = path' :=
  Option.some.inj (h.place.symm.trans h'.place)

theorem eq_of_path (h : NodeAt t path p) (h' : NodeAt t path p') : p = p' := by
  have hplace : p.place = p'.place := by
    rcases Nat.lt_trichotomy p.place p'.place with hlt | heq | hlt
    · exact absurd (h.lt_of_place_lt h' hlt) (List.lt_irrefl _)
    · exact heq
    · exact absurd (h'.lt_of_place_lt h hlt) (List.lt_irrefl _)
  have hitem : p.item = p'.item := Option.some.inj (h.label.symm.trans h'.label)
  cases p
  cases p'
  simp_all

/-- Document order is the order of the places. -/
theorem lt_iff (h : NodeAt t path p) (h' : NodeAt t path' p') :
    path < path' ↔ p.place < p'.place := by
  refine ⟨fun hlt => ?_, h.lt_of_place_lt h'⟩
  rcases Nat.lt_trichotomy p.place p'.place with hplace | heq | hplace
  · exact hplace
  · have hpath : path = path' := Option.some.inj (h.place.symm.trans (heq ▸ h'.place))
    exact absurd (hpath ▸ hlt) (List.lt_irrefl _)
  · exact absurd (h'.lt_of_place_lt h hplace) (List.lt_asymm hlt)

end NodeAt

/-! ## What a search finds -/

theorem locate_eq_none_iff : t.locate line = none ↔ ∀ p ∈ placed t, ¬IsAround line p.item := by
  rw [locate, Data.least?_eq_none_iff, List.filter_eq_nil_iff]
  simp only [Decl.encloses_iff]

theorem locate_eq_some_iff :
    t.locate line = some p ↔
      p ∈ placed t ∧ IsAround line p.item ∧
        ∀ q ∈ placed t, IsAround line q.item → q ≠ p →
          p.item.rank < q.item.rank ∨ p.item.rank = q.item.rank ∧ p.place < q.place := by
  have hlt : ∀ a b : Decl, Decl.smaller a b = true ↔ a.rank < b.rank := fun _ _ => Decl.smaller_iff
  rw [locate, placed, Data.least?_placed_eq_some_iff hlt (Decl.encloses line)]
  simp only [Decl.encloses_iff]

/-- A search finds nothing exactly where no node is around the line. What it finds otherwise is the
first in document order among the nodes around the line with the fewest lines and, of these, the most
specific kind. -/
theorem locate_finds_least_node (t : DeclTree) (line : Int) :
    (t.locate line = none ↔ ∀ path d, t.labelAt? path = some d → ¬IsAround line d) ∧
      ∀ p, t.locate line = some p ↔
        ∃ path, NodeAt t path p ∧ IsAround line p.item ∧
          ∀ path' d, t.labelAt? path' = some d → IsAround line d →
            p.item.rank ≤ d.rank ∧ (p.item.rank = d.rank → path' ≠ path → path < path') := by
  refine ⟨?_, fun p => ?_⟩
  · rw [locate_eq_none_iff]
    constructor
    · intro h path d hd
      obtain ⟨p, hp, rfl⟩ := exists_nodeAt hd
      exact h p hp.mem_placed
    · intro h p hp
      obtain ⟨path, hpath⟩ := mem_placed_iff.mp hp
      exact h path p.item hpath.label
  · rw [locate_eq_some_iff]
    constructor
    · rintro ⟨hmem, haround, hleast⟩
      obtain ⟨path, hpath⟩ := mem_placed_iff.mp hmem
      refine ⟨path, hpath, haround, fun path' d hd hd' => ?_⟩
      obtain ⟨q, hq, rfl⟩ := exists_nodeAt hd
      by_cases hqp : q = p
      · subst hqp
        exact ⟨le_refl _, fun _ hne => absurd (hq.path_eq hpath) hne⟩
      · rcases hleast q hq.mem_placed hd' hqp with hlt | ⟨heq, hplace⟩
        · exact ⟨le_of_lt hlt, fun heq => absurd heq (ne_of_lt hlt)⟩
        · exact ⟨le_of_eq heq, fun _ _ => (hpath.lt_iff hq).mpr hplace⟩
    · rintro ⟨path, hpath, haround, hleast⟩
      refine ⟨hpath.mem_placed, haround, fun q hq hq' hqp => ?_⟩
      obtain ⟨path', hpath'⟩ := mem_placed_iff.mp hq
      obtain ⟨hle, hfirst⟩ := hleast path' q.item hpath'.label hq'
      have hne : path' ≠ path := by
        rintro rfl
        exact hqp (hpath'.eq_of_path hpath)
      refine (lt_or_eq_of_le hle).imp_right fun heq => ⟨heq, ?_⟩
      exact (hpath.lt_iff hpath').mp (hfirst heq hne)

def outerLambda : Decl := ⟨.lambda, 5, 7, "x -> y -> x", none, none⟩

/-- A method with more lines than the class that holds it, two lambdas on the same lines, one inside
the other, and a third that only crosses them. -/
def tangledTree : DeclTree :=
  .node ⟨.unknown, 1, 9, "", none, none⟩
    [.node ⟨.type, 4, 6, "", some "Till".toList, none⟩
      [.node ⟨.method, 2, 8, "sell()", some "sell".toList, none⟩ [],
       .node outerLambda [.node ⟨.lambda, 5, 7, "y -> x", none, none⟩ []]],
     .node ⟨.lambda, 3, 5, "z -> z", none, none⟩ []]

theorem locate_finds_least_node_tangledTree :
    tangledTree.locate 5 = some ⟨3, outerLambda⟩ ∧ NodeAt tangledTree [0, 1] ⟨3, outerLambda⟩ ∧
      (∀ path d, tangledTree.labelAt? path = some d → IsAround 5 d →
        outerLambda.rank ≤ d.rank ∧ (outerLambda.rank = d.rank → path ≠ [0, 1] → [0, 1] < path)) ∧
      ∀ path d, tangledTree.labelAt? path = some d → ¬IsAround 10 d := by
  have hfound : tangledTree.locate 5 = some ⟨3, outerLambda⟩ := by decide
  have hnode : NodeAt tangledTree [0, 1] ⟨3, outerLambda⟩ := ⟨by decide, by decide⟩
  obtain ⟨path, hpath, -, hleast⟩ := ((locate_finds_least_node tangledTree 5).2 _).mp hfound
  obtain rfl := hpath.path_eq hnode
  exact ⟨hfound, hnode, hleast, (locate_finds_least_node tangledTree 10).1.mp (by decide)⟩

end DeclTree
end Refit

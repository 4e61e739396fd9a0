/-
Findings that share a block are in one declaration.

A grouping tells the blocks of findings apart by their lines alone, though a tree may hold several
declarations on the same lines. Two searches that end on the same lines still end at the same node: each
answer is around the line of the other search, so neither is smaller and neither comes first. A block
therefore shows the very declaration that all of its findings are located at.
-/
import Refit.Proofs.Decl.Partition
import Refit.Proofs.Decl.Smallest

namespace Refit

open Data (Pairs Placed)

theorem Decl.span?_eq_some_iff {d : Decl} {s : Span} :
    d.span? = some s ↔ (s.start : Int) = d.start ∧ (s.stop : Int) = d.stop := by
  rw [← Span.of_eq_ok_iff, span?, span]
  cases Span.of d.start d.stop <;> simp [Except.toOption]

namespace DeclTree

variable {t : DeclTree} {findings : List Finding} {p q : Placed Decl} {s : Span}

theorem eq_of_locate_of_same_lines {line line' : Int} (h : t.locate line = some p)
    (h' : t.locate line' = some q) (hstart : p.item.start = q.item.start)
    (hstop : p.item.stop = q.item.stop) : p = q := by
  obtain ⟨hp, haround, hleast⟩ := locate_eq_some_iff.mp h
  obtain ⟨hq, haround', hleast'⟩ := locate_eq_some_iff.mp h'
  have hacross : Decl.IsAround line q.item :=
    ⟨haround'.kind, hstart ▸ haround.start_le, hstop ▸ haround.le_stop⟩
  have hacross' : Decl.IsAround line' p.item :=
    ⟨haround.kind, hstart ▸ haround'.start_le, hstop ▸ haround'.le_stop⟩
  by_contra hne
  rcases hleast q hq hacross (Ne.symm hne) with hlt | ⟨heq, hplace⟩
  · rcases hleast' p hp hacross' hne with hlt' | ⟨heq', -⟩
    · exact lt_asymm hlt hlt'
    · exact ne_of_gt hlt heq'
  · rcases hleast' p hp hacross' hne with hlt' | ⟨-, hplace'⟩
    · exact ne_of_gt hlt' heq
    · exact Nat.lt_asymm hplace hplace'

/-- Where one search ends on some lines, the findings located on these lines are those located at the
node that it found. -/
theorem located_eq_filter {f : Finding} (hp : t.locate f.line = some p) (hs : p.item.span? = some s) :
    t.located findings s = findings.filter fun g => t.locate g.line = some p := by
  refine List.filter_congr fun g _ => ?_
  rw [decide_eq_decide, spanAt, Option.bind_eq_some_iff]
  constructor
  · rintro ⟨q, hq, hqs⟩
    obtain ⟨hstart, hstop⟩ := Decl.span?_eq_some_iff.mp hs
    obtain ⟨hstart', hstop'⟩ := Decl.span?_eq_some_iff.mp hqs
    rw [hq, eq_of_locate_of_same_lines hq hp (hstart'.symm.trans hstart) (hstop'.symm.trans hstop)]
  · exact fun hg => ⟨p, hg, hs⟩

end DeclTree

namespace Decl

variable {t : DeclTree} {findings : List Finding} {file : Text}

/-! ## When a grouping has a result -/

theorem lines_of_span_eq_ok {d : Decl} {s : Span} (h : d.span = .ok s) :
    1 ≤ d.start ∧ d.start ≤ d.stop := by
  obtain ⟨hstart, hstop⟩ := Span.of_eq_ok_iff.mp h
  have hpos := s.start_pos
  have hle := s.start_le_stop
  omega

theorem located_of_outcome_flag {blocks blocks' : Pairs Span Block}
    (h : (flag t file findings blocks).outcome = .ok blocks') :
    ∀ f ∈ findings, ∀ p, t.locate f.line = some p →
      1 ≤ p.item.start ∧ p.item.start ≤ p.item.stop := by
  induction findings generalizing blocks with
  | nil => exact fun f hf => absurd hf List.not_mem_nil
  | cons f fs ih =>
      rw [flag] at h
      rw [List.forall_mem_cons]
      cases hp : t.locate f.line with
      | none =>
          rw [hp] at h
          exact ⟨fun p hsome => absurd hsome.symm (Option.some_ne_none p), ih h⟩
      | some p =>
          simp only [hp, Logged.outcome_bind, Logged.ofExcept] at h
          cases hspan : p.item.span with
          | error fault =>
              rw [hspan] at h
              exact absurd h (by simp [bind, Except.bind])
          | ok s =>
              rw [hspan] at h
              refine ⟨fun q hq => ?_, ih h⟩
              obtain rfl := Option.some.inj hq
              exact lines_of_span_eq_ok hspan

theorem lines_of_contexts_eq_ok {flagged blocks blocks' : Pairs Span Block} {types : List Decl}
    (h : contexts file flagged types blocks = .ok blocks') :
    ∀ d ∈ types, 1 ≤ d.start ∧ d.start ≤ d.stop := by
  induction types generalizing blocks with
  | nil => exact fun d hd => absurd hd List.not_mem_nil
  | cons d ds ih =>
      rw [contexts] at h
      rw [List.forall_mem_cons]
      cases hspan : d.span with
      | error fault =>
          rw [hspan] at h
          exact absurd h (by simp [bind, Except.bind])
      | ok s =>
          simp only [hspan, bind, Except.bind] at h
          refine ⟨lines_of_span_eq_ok hspan, ?_⟩
          split at h
          · exact ih h
          · exact ih h

theorem groupable_of_outcome {blocks : Pairs Span Block}
    (h : (group t findings file).outcome = .ok blocks) : t.Groupable findings := by
  rw [group, Logged.outcome_bind] at h
  cases hflag : (flag t file findings []).outcome with
  | error fault =>
      rw [hflag] at h
      exact absurd h (by simp [bind, Except.bind])
  | ok flagged =>
      simp only [hflag, bind, Except.bind, Logged.ofExcept] at h
      cases hcontexts : contexts file flagged (t.types.map Placed.item) [] with
      | error fault =>
          rw [hcontexts] at h
          exact absurd h (by simp)
      | ok context =>
          refine ⟨located_of_outcome_flag hflag, fun d hd hkind => ?_⟩
          refine lines_of_contexts_eq_ok hcontexts d ?_
          rw [DeclTree.map_item_types, List.mem_filter]
          exact ⟨hd, beq_iff_eq.mpr hkind⟩

theorem outcome_group_iff :
    (∃ blocks, (group t findings file).outcome = .ok blocks) ↔ t.Groupable findings := by
  constructor
  · rintro ⟨blocks, h⟩
    exact groupable_of_outcome h
  · intro h
    obtain ⟨context, flagged, hgroup, -⟩ := exists_grouped_of_groupable h file
    exact ⟨_, hgroup⟩

/-! ## The declaration of a block -/

/-- A block with findings shows one node of the tree and carries the findings located at it. -/
structure Shows (t : DeclTree) (findings : List Finding) (p : Placed Decl) (b : Block) : Prop where
  kind : b.kind = p.item.kind
  name : b.name = p.item.name
  text : b.text = some (p.item.summarize .full)
  start : (b.span.start : Int) = p.item.start
  stop : (b.span.stop : Int) = p.item.stop
  findings : b.findings = findings.filter fun f => t.locate f.line = some p

theorem Flagged.exists_shows {s : Span} {b : Block} (h : Flagged t findings file s b) :
    ∃ p ∈ DeclTree.placed t, Shows t findings p b := by
  obtain ⟨f, p, hhead, hp, rfl⟩ := h
  have hf := (List.mem_filter.mp (List.mem_of_mem_head? hhead)).2
  rw [decide_eq_true_eq, DeclTree.spanAt, hp] at hf
  obtain ⟨hstart, hstop⟩ := span?_eq_some_iff.mp hf
  exact ⟨p, (DeclTree.locate_eq_some_iff.mp hp).1, rfl, rfl, rfl, hstart, hstop,
    DeclTree.located_eq_filter hp hf⟩

/-- Searches that end on the same lines end at the same node. So the findings of a block are those
located at one node, whose kind, name and text the block carries; and there are blocks whenever the
declarations that the grouping looks at have proper lines. -/
theorem merged_findings_share_node (t : DeclTree) :
    (∀ line line' p q, t.locate line = some p → t.locate line' = some q →
      p.item.start = q.item.start → p.item.stop = q.item.stop →
        p = q ∧ ∃ path, t.NodeAt path p) ∧
      ∀ findings file,
        ((∃ blocks, (group t findings file).outcome = .ok blocks) ↔ t.Groupable findings) ∧
        ∀ blocks, (group t findings file).outcome = .ok blocks →
          ∀ b ∈ blocks.values, b.findings ≠ [] →
            ∃ p path, t.NodeAt path p ∧ Shows t findings p b := by
  refine ⟨fun line line' p q hp hq hstart hstop => ?_, fun findings file => ⟨outcome_group_iff, ?_⟩⟩
  · have hnode := DeclTree.mem_placed_iff.mp (DeclTree.locate_eq_some_iff.mp hp).1
    exact ⟨DeclTree.eq_of_locate_of_same_lines hp hq hstart hstop, hnode⟩
  · intro blocks h b hb hne
    obtain ⟨context, flagged, hgroup, hgrouped⟩ :=
      exists_grouped_of_groupable (groupable_of_outcome h) file
    obtain rfl := Except.ok.inj (hgroup.symm.trans h)
    obtain ⟨⟨s, b⟩, he, rfl⟩ := List.mem_map.mp hb
    rcases List.mem_append.mp he with he | he
    · obtain ⟨_, _, rfl⟩ := hgrouped.context_entry s b he
      exact absurd rfl hne
    · obtain ⟨p, hp, hshows⟩ := (hgrouped.flagged_entry s b he).exists_shows
      obtain ⟨path, hpath⟩ := DeclTree.mem_placed_iff.mp hp
      exact ⟨p, path, hpath, hshows⟩

/-- Two methods and a lambda on the same lines. -/
def stackedTree : DeclTree :=
  .node ⟨.unknown, 1, 9, "", none, none⟩
    [.node ⟨.type, 1, 6, "", some "Shop".toList, none⟩
      [.node ⟨.lambda, 2, 4, "x -> x", none, none⟩ [],
       .node ⟨.method, 2, 4, "sell()", some "sell".toList, none⟩ [],
       .node ⟨.method, 2, 4, "buy()", some "buy".toList, none⟩ []]]

def stackedFindings : List Finding :=
  [⟨2, "Doc", "missing", by decide⟩, ⟨6, "Size", "large", by decide⟩,
   ⟨4, "Name", "short", by decide⟩]

/-- Searches from the first and the last of these lines end at the same method, and the block of the
two findings shows it. -/
theorem merged_findings_share_node_stackedTree :
    (∃ p q, stackedTree.locate 2 = some p ∧ stackedTree.locate 4 = some q ∧
      p.item.start = q.item.start ∧ p.item.stop = q.item.stop ∧ p = q ∧
        ∃ path, stackedTree.NodeAt path p) ∧
      ∃ blocks, (group stackedTree stackedFindings "Shop").outcome = .ok blocks ∧
        ∃ b ∈ blocks.values, b.findings.map Finding.line = [2, 4] ∧
          ∃ p path, stackedTree.NodeAt path p ∧ Shows stackedTree stackedFindings p b := by
  obtain ⟨hsame, hgroup⟩ := merged_findings_share_node stackedTree
  constructor
  · exact ⟨_, _, rfl, rfl, rfl, rfl, hsame 2 4 _ _ rfl rfl rfl rfl⟩
  · obtain ⟨-, hshows⟩ := hgroup stackedFindings "Shop"
    refine ⟨_, rfl, _, List.mem_cons_self, rfl, ?_⟩
    exact hshows _ rfl _ List.mem_cons_self (List.cons_ne_nil _ _)

end Decl
end Refit

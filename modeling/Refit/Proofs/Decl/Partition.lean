/-
The blocks of a file partition its findings.

Both parts of the grouping are loops that extend an ordered mapping, so each is
followed by an invariant over the findings, or the types, that have been seen:
which keys there are, in which order, and what stands under each of them.
`FlagInv` and `ContextInv` say so, and `exists_grouped` puts the two together.
-/
import Refit.Decl.Group
import Refit.Proofs.Data.Gather

namespace Refit

/-! ## Where findings are located -/

/-- The lines of a declaration, where its line numbers make a span. -/
def Decl.span? (d : Decl) : Option Span := d.span.toOption

theorem Decl.span_eq_ok {d : Decl} (h : 1 ≤ d.start ∧ d.start ≤ d.stop) :
    ∃ s, d.span = .ok s ∧ d.span? = some s := by
  have hspan : d.span = .ok ⟨d.start.toNat, d.stop.toNat, _, _⟩ := dif_pos h
  exact ⟨_, hspan, by rw [Decl.span?, hspan]; rfl⟩

namespace DeclTree

/-- Every declaration of a tree begins at a line and ends no earlier. -/
def Spanned (t : DeclTree) : Prop := ∀ d ∈ t.walk, 1 ≤ d.start ∧ d.start ≤ d.stop

/-- The same of the declarations that a grouping looks at: those that findings are located at, and
the types. -/
structure Groupable (t : DeclTree) (findings : List Finding) : Prop where
  located : ∀ f ∈ findings, ∀ p, t.locate f.line = some p →
    1 ≤ p.item.start ∧ p.item.start ≤ p.item.stop
  types : ∀ d ∈ t.walk, d.kind = .type → 1 ≤ d.start ∧ d.start ≤ d.stop

/-- The span of the declaration that a finding is located at. -/
def spanAt (t : DeclTree) (f : Finding) : Option Span :=
  (t.locate f.line).bind fun p => p.item.span?

def located (t : DeclTree) (findings : List Finding) (s : Span) : List Finding :=
  findings.filter fun f => t.spanAt f = some s

theorem map_item_types (t : DeclTree) :
    (types t).map Data.Placed.item = t.walk.filter fun d => d.kind == .type := by
  rw [types, ← Data.Placed.map_item_list t.walk, List.filter_map]
  rfl

theorem mem_walk_of_mem_placed {t : DeclTree} {p : Data.Placed Decl} (h : p ∈ placed t) :
    p.item ∈ t.walk := by
  rw [← Data.Placed.map_item_list t.walk]
  exact List.mem_map_of_mem h

theorem mem_walk_of_locate {t : DeclTree} {line : Int} {p : Data.Placed Decl}
    (h : t.locate line = some p) : p.item ∈ t.walk :=
  mem_walk_of_mem_placed (List.mem_filter.mp (Data.mem_of_least? h)).1

theorem Spanned.groupable {t : DeclTree} (ht : t.Spanned) (findings : List Finding) :
    Groupable t findings :=
  ⟨fun _ _ _ hp => ht _ (mem_walk_of_locate hp), fun d hd _ => ht d hd⟩

theorem Spanned.span_eq_ok {t : DeclTree} (ht : t.Spanned) {d : Decl} (hd : d ∈ t.walk) :
    ∃ s, d.span = .ok s ∧ d.span? = some s :=
  Decl.span_eq_ok (ht d hd)

end DeclTree

namespace Decl

open Data (Pairs)

/-! ## Blocks with findings -/

/-- The block of the findings located at a span: it shows the declaration of the
first of them in full. -/
def Flagged (t : DeclTree) (findings : List Finding) (file : Text) (s : Span) (b : Block) : Prop :=
  ∃ f p, (t.located findings s).head? = some f ∧ t.locate f.line = some p ∧
    b = ⟨file, p.item.kind, s, some (p.item.summarize .full), t.located findings s, p.item.name⟩

/-- The blocks when the findings in `seen` have been added. -/
structure FlagInv (t : DeclTree) (file : Text) (seen : List Finding) (blocks : Pairs Span Block) :
    Prop where
  keys : blocks.keys = (seen.filterMap t.spanAt).eraseDups
  entry : ∀ s b, blocks.get? s = some b → Flagged t seen file s b

section Flag

variable {t : DeclTree} {file : Text} {seen : List Finding} {f : Finding}
  {blocks : Pairs Span Block}

theorem located_concat (t : DeclTree) (seen : List Finding) (f : Finding) (s : Span) :
    t.located (seen ++ [f]) s =
      if t.spanAt f = some s then t.located seen s ++ [f] else t.located seen s := by
  rw [DeclTree.located, DeclTree.located, List.filter_append]
  by_cases h : t.spanAt f = some s
  · simp [h]
  · simp [h]

theorem located_eq_nil {s : Span} (h : s ∉ seen.filterMap t.spanAt) : t.located seen s = [] := by
  rw [DeclTree.located, List.filter_eq_nil_iff]
  intro f hf hs
  exact h (List.mem_filterMap.mpr ⟨f, hf, of_decide_eq_true hs⟩)

theorem FlagInv.mem_keys (h : FlagInv t file seen blocks) {s : Span} :
    s ∈ blocks.keys ↔ s ∈ seen.filterMap t.spanAt := by
  rw [h.keys, List.mem_eraseDups]

theorem FlagInv.skip (h : FlagInv t file seen blocks) (hf : t.spanAt f = none) :
    FlagInv t file (seen ++ [f]) blocks := by
  have hlocated : ∀ s, t.located (seen ++ [f]) s = t.located seen s := fun s => by
    rw [located_concat, hf, if_neg (Option.some_ne_none s).symm]
  constructor
  · rw [h.keys, List.filterMap_append, List.filterMap_cons_none hf, List.filterMap_nil,
      List.append_nil]
  · intro s b hb
    rw [Flagged, hlocated]
    exact h.entry s b hb

theorem FlagInv.add (h : FlagInv t file seen blocks) {p : Data.Placed Decl} {s : Span}
    (hp : t.locate f.line = some p) (hs : t.spanAt f = some s) :
    FlagInv t file (seen ++ [f]) (addFinding file f p.item s blocks) := by
  constructor
  · rw [addFinding, Pairs.keys_alter, List.filterMap_append, List.filterMap_cons_some hs,
      List.filterMap_nil, eraseDups_concat, ← h.keys]
    simp only [h.mem_keys]
  · intro s' b hb
    by_cases hne : s = s'
    · subst hne
      rw [addFinding, Pairs.get?_alter] at hb
      obtain rfl := Option.some.inj hb
      rw [Flagged, located_concat, if_pos hs]
      cases hget : blocks.get? s with
      | some b =>
          -- The findings seen at this span are not none, so the first of them stays.
          obtain ⟨f', p', hhead, hlocate, rfl⟩ := h.entry s b hget
          exact ⟨f', p', by rw [List.head?_append, hhead]; rfl, hlocate, rfl⟩
      | none =>
          have hnil : t.located seen s = [] := by
            refine located_eq_nil fun hmem => ?_
            exact Pairs.get?_eq_none_iff.mp hget (h.mem_keys.mpr hmem)
          rw [hnil]
          exact ⟨f, p, rfl, hp, rfl⟩
    · rw [addFinding, Pairs.get?_alter_of_ne _ _ hne] at hb
      rw [Flagged, located_concat, hs, if_neg fun heq => hne (Option.some.inj heq)]
      exact h.entry s' b hb

theorem outcome_flag {findings : List Finding}
    (hspans : ∀ f ∈ findings, ∀ p, t.locate f.line = some p →
      1 ≤ p.item.start ∧ p.item.start ≤ p.item.stop)
    (h : FlagInv t file seen blocks) :
    ∃ blocks', (flag t file findings blocks).outcome = .ok blocks' ∧
      FlagInv t file (seen ++ findings) blocks' := by
  induction findings generalizing seen blocks with
  | nil =>
      rw [List.append_nil]
      exact ⟨blocks, rfl, h⟩
  | cons f fs ih =>
      rw [List.forall_mem_cons] at hspans
      rw [List.append_cons, flag]
      cases hp : t.locate f.line with
      | none => exact ih hspans.2 (h.skip (by rw [DeclTree.spanAt, hp]; rfl))
      | some p =>
          obtain ⟨s, hspan, hspan?⟩ := span_eq_ok (hspans.1 p hp)
          have hs : t.spanAt f = some s := by
            rw [DeclTree.spanAt, hp]
            exact hspan?
          simp only [hspan]
          exact ih hspans.2 (h.add hp hs)

end Flag

/-! ## Types as context -/

/-- The block of the first type at a span, as context for what stands inside. -/
def Context (types : List Decl) (file : Text) (s : Span) (b : Block) : Prop :=
  ∃ d, types.find? (fun d => d.span? = some s) = some d ∧
    b = ⟨file, .type, s, some (d.summarize .minimal), [], d.name⟩

/-- The blocks when the types in `seen` have been gone through. -/
structure ContextInv (flagged : Pairs Span Block) (file : Text) (seen : List Decl)
    (blocks : Pairs Span Block) : Prop where
  keys : blocks.keys = (seen.filterMap span?).eraseDups.filter fun s => s ∉ flagged.keys
  entry : ∀ s b, blocks.get? s = some b → Context seen file s b

section Contexts

variable {flagged blocks : Pairs Span Block} {file : Text} {seen : List Decl} {d : Decl}
  {s : Span}

theorem ContextInv.mem_keys (h : ContextInv flagged file seen blocks) :
    s ∈ blocks.keys ↔ s ∈ seen.filterMap span? ∧ s ∉ flagged.keys := by
  rw [h.keys, List.mem_filter, List.mem_eraseDups, decide_eq_true_eq]

theorem filterMap_span?_concat (seen : List Decl) (hs : d.span? = some s) :
    (seen ++ [d]).filterMap span? = seen.filterMap span? ++ [s] := by
  rw [List.filterMap_append, List.filterMap_cons_some hs, List.filterMap_nil]

/-- What stands under a span does not change once a type with it has been seen. -/
theorem Context.concat {b : Block} (h : Context seen file s b) (d : Decl) :
    Context (seen ++ [d]) file s b := by
  obtain ⟨first, hfind, hb⟩ := h
  exact ⟨first, by rw [List.find?_append, hfind]; rfl, hb⟩

theorem ContextInv.skip (h : ContextInv flagged file seen blocks) (hs : d.span? = some s)
    (hskip : s ∈ flagged.keys ∨ s ∈ blocks.keys) :
    ContextInv flagged file (seen ++ [d]) blocks := by
  constructor
  · rw [h.keys, filterMap_span?_concat seen hs, eraseDups_concat]
    split
    · rfl
    · next hnew =>
      have hflagged : s ∈ flagged.keys :=
        hskip.resolve_right fun hmem => hnew (h.mem_keys.mp hmem).1
      rw [List.filter_append, List.filter_cons_of_neg (by simpa using hflagged), List.filter_nil,
        List.append_nil]
  · exact fun s' b hb => (h.entry s' b hb).concat d

theorem ContextInv.add (h : ContextInv flagged file seen blocks) (hs : d.span? = some s)
    (hkind : d.kind = .type) (hflagged : s ∉ flagged.keys) (hblocks : s ∉ blocks.keys) :
    ContextInv flagged file (seen ++ [d]) (blocks ++ [(s, d.block file .minimal [] s)]) := by
  have hnew : s ∉ seen.filterMap span? := fun hmem => hblocks (h.mem_keys.mpr ⟨hmem, hflagged⟩)
  constructor
  · rw [filterMap_span?_concat seen hs, eraseDups_concat, if_neg hnew, List.filter_append, ← h.keys,
      List.filter_cons_of_pos (by simpa using hflagged), List.filter_nil, Pairs.keys, Pairs.keys,
      List.map_append]
    rfl
  · intro s' b hb
    rw [Pairs.get?_append, Option.or_eq_some_iff] at hb
    rcases hb with hb | ⟨-, hb⟩
    · exact (h.entry s' b hb).concat d
    · obtain ⟨rfl, rfl⟩ : s' = s ∧ b = d.block file .minimal [] s := by
        simpa using Pairs.mem_of_get? hb
      refine ⟨d, ?_, by rw [block, hkind]⟩
      have hnone : seen.find? (fun d => d.span? = some s') = none := by
        rw [List.find?_eq_none]
        intro d' hd' hspan
        exact hnew (List.mem_filterMap.mpr ⟨d', hd', of_decide_eq_true hspan⟩)
      rw [List.find?_append, hnone]
      simp [hs]

theorem contexts_eq_ok {types : List Decl} (htypes : ∀ d ∈ types, d.kind = .type)
    (hspans : ∀ d ∈ types, ∃ s, d.span = .ok s ∧ d.span? = some s)
    (h : ContextInv flagged file seen blocks) :
    ∃ blocks', contexts file flagged types blocks = .ok blocks' ∧
      ContextInv flagged file (seen ++ types) blocks' := by
  induction types generalizing seen blocks with
  | nil =>
      rw [List.append_nil]
      exact ⟨blocks, rfl, h⟩
  | cons d ds ih =>
      rw [List.forall_mem_cons] at htypes hspans
      obtain ⟨s, hspan, hs⟩ := hspans.1
      rw [List.append_cons, contexts, hspan]
      by_cases hskip : s ∈ flagged.keys ∨ s ∈ blocks.keys
      · have hbool : (flagged.hasKey s || blocks.hasKey s) = true := by
          rw [Bool.or_eq_true, Pairs.hasKey_iff, Pairs.hasKey_iff]
          exact hskip
        obtain ⟨blocks', hrest⟩ := ih htypes.2 hspans.2 (h.skip hs hskip)
        exact ⟨blocks', by simpa [bind, Except.bind, hbool] using hrest.1, hrest.2⟩
      · have hbool : (flagged.hasKey s || blocks.hasKey s) = false := by
          rw [← Bool.not_eq_true, Bool.or_eq_true, Pairs.hasKey_iff, Pairs.hasKey_iff]
          exact hskip
        rw [not_or] at hskip
        obtain ⟨blocks', hrest⟩ := ih htypes.2 hspans.2 (h.add hs htypes.1 hskip.1 hskip.2)
        exact ⟨blocks', by simpa [bind, Except.bind, hbool] using hrest.1, hrest.2⟩

end Contexts

/-! ## The blocks of a file -/

structure Grouped (t : DeclTree) (findings : List Finding) (file : Text)
    (context flagged : Pairs Span Block) : Prop where
  flagged_keys : flagged.keys = (findings.filterMap t.spanAt).eraseDups
  flagged_entry : ∀ s b, (s, b) ∈ flagged → Flagged t findings file s b
  context_keys : context.keys =
    ((t.walk.filter fun d => d.kind == .type).filterMap span?).eraseDups.filter fun s =>
      s ∉ findings.filterMap t.spanAt
  context_entry : ∀ s b, (s, b) ∈ context →
    Context (t.walk.filter fun d => d.kind == .type) file s b

theorem exists_grouped_of_groupable {t : DeclTree} {findings : List Finding}
    (ht : t.Groupable findings) (file : Text) :
    ∃ context flagged, (group t findings file).outcome = .ok (context ++ flagged) ∧
      Grouped t findings file context flagged := by
  have hempty : FlagInv t file [] [] := ⟨rfl, fun s b hb => absurd hb.symm (Option.some_ne_none b)⟩
  obtain ⟨flagged, hflag, hinv⟩ := outcome_flag ht.located hempty
  rw [List.nil_append] at hinv
  have hstart : ContextInv flagged file [] [] :=
    ⟨rfl, fun s b hb => absurd hb.symm (Option.some_ne_none b)⟩
  have htypes : ∀ d ∈ t.walk.filter (fun d => d.kind == .type), d.kind = .type := by
    intro d hd
    exact beq_iff_eq.mp (List.mem_filter.mp hd).2
  have hspans : ∀ d ∈ t.walk.filter (fun d => d.kind == .type),
      ∃ s, d.span = .ok s ∧ d.span? = some s := fun d hd =>
    span_eq_ok (ht.types d (List.mem_filter.mp hd).1 (htypes d hd))
  obtain ⟨context, hcontexts, hcontext⟩ := contexts_eq_ok htypes hspans hstart
  rw [List.nil_append] at hcontext
  have hflagged : flagged.keys.Nodup := by
    rw [hinv.keys]
    exact nodup_eraseDups _
  have hkeys : context.keys.Nodup := by
    rw [hcontext.keys]
    exact (nodup_eraseDups _).filter _
  refine ⟨context, flagged, ?_, hinv.keys, ?_, ?_, ?_⟩
  · rw [← DeclTree.map_item_types] at hcontexts
    rw [group, Logged.outcome_bind, hflag]
    refine (Logged.outcome_bind _ _).trans ?_
    exact congrArg (· >>= fun c => Except.ok (c ++ flagged)) hcontexts
  · exact fun s b hb => hinv.entry s b (Pairs.get?_of_mem hflagged hb)
  · rw [hcontext.keys]
    simp only [hinv.mem_keys]
  · exact fun s b hb => hcontext.entry s b (Pairs.get?_of_mem hkeys hb)

theorem exists_grouped {t : DeclTree} (ht : t.Spanned) (findings : List Finding) (file : Text) :
    ∃ context flagged, (group t findings file).outcome = .ok (context ++ flagged) ∧
      Grouped t findings file context flagged :=
  exists_grouped_of_groupable (ht.groupable findings) file

namespace Grouped

variable {t : DeclTree} {findings : List Finding} {file : Text} {context flagged : Pairs Span Block}

theorem nodup_keys (h : Grouped t findings file context flagged) :
    (context ++ flagged).keys.Nodup := by
  rw [Pairs.keys, List.map_append, ← Pairs.keys, ← Pairs.keys, h.context_keys, h.flagged_keys]
  refine List.nodup_append.mpr ⟨(nodup_eraseDups _).filter _, nodup_eraseDups _, ?_⟩
  rintro s hs _ hs' rfl
  have hnot : s ∉ findings.filterMap t.spanAt := of_decide_eq_true (List.mem_filter.mp hs).2
  exact hnot (List.mem_eraseDups.mp hs')

theorem span_eq (h : Grouped t findings file context flagged) {s : Span} {b : Block}
    (hb : (s, b) ∈ context ++ flagged) : b.span = s := by
  rcases List.mem_append.mp hb with hb | hb
  · obtain ⟨_, _, rfl⟩ := h.context_entry s b hb
    rfl
  · obtain ⟨_, _, _, _, rfl⟩ := h.flagged_entry s b hb
    rfl

/-- A block holds the findings located at its span, and none where it is context. -/
theorem mem_findings_iff (h : Grouped t findings file context flagged) {s : Span} {b : Block}
    (hb : (s, b) ∈ context ++ flagged) {f : Finding} (hf : f ∈ findings) :
    f ∈ b.findings ↔ t.spanAt f = some s := by
  rcases List.mem_append.mp hb with hb | hb
  · have hkey : s ∈ context.keys := List.mem_map.mpr ⟨(s, b), hb, rfl⟩
    rw [h.context_keys, List.mem_filter, decide_eq_true_eq, List.mem_filterMap] at hkey
    obtain ⟨_, _, rfl⟩ := h.context_entry s b hb
    refine iff_of_false List.not_mem_nil fun hs => ?_
    exact hkey.2 ⟨f, hf, hs⟩
  · obtain ⟨_, _, _, _, rfl⟩ := h.flagged_entry s b hb
    rw [DeclTree.located, List.mem_filter, decide_eq_true_eq]
    exact and_iff_right hf

theorem map_span_values (h : Grouped t findings file context flagged) :
    (context ++ flagged).values.map Block.span = (context ++ flagged).keys := by
  rw [Pairs.values, List.map_map]
  exact List.map_congr_left fun e he => h.span_eq he

theorem isSome_text (h : Grouped t findings file context flagged) {b : Block}
    (hb : b ∈ (context ++ flagged).values) : b.text.isSome = true := by
  obtain ⟨⟨s, _⟩, hs, rfl⟩ := List.mem_map.mp hb
  rcases List.mem_append.mp hs with hs | hs
  · obtain ⟨_, _, rfl⟩ := h.context_entry s _ hs
    rfl
  · obtain ⟨_, _, _, _, rfl⟩ := h.flagged_entry s _ hs
    rfl

theorem nodup_values (h : Grouped t findings file context flagged) :
    (context ++ flagged).values.Nodup := by
  have hnd := h.nodup_keys
  rw [← h.map_span_values] at hnd
  exact List.Nodup.of_map _ hnd

theorem mem_of_mem_findings (h : Grouped t findings file context flagged) {s : Span} {b : Block}
    (hb : (s, b) ∈ context ++ flagged) {f : Finding} (hf : f ∈ b.findings) : f ∈ findings := by
  rcases List.mem_append.mp hb with hb | hb
  · obtain ⟨_, _, rfl⟩ := h.context_entry s b hb
    exact absurd hf List.not_mem_nil
  · obtain ⟨_, _, _, _, rfl⟩ := h.flagged_entry s b hb
    exact (List.mem_filter.mp hf).1

/-- No two blocks carry the same finding. -/
theorem eq_of_mem_findings (h : Grouped t findings file context flagged) {b b' : Block}
    (hb : b ∈ (context ++ flagged).values) (hb' : b' ∈ (context ++ flagged).values) {f : Finding}
    (hf : f ∈ b.findings) (hf' : f ∈ b'.findings) : b' = b := by
  have hnd := h.nodup_keys
  rw [← h.map_span_values] at hnd
  obtain ⟨⟨s, b⟩, he, rfl⟩ := List.mem_map.mp hb
  obtain ⟨⟨s', b'⟩, he', rfl⟩ := List.mem_map.mp hb'
  have hfinding := h.mem_of_mem_findings he hf
  have hspan := (h.mem_findings_iff he hfinding).mp hf
  have hspan' := (h.mem_findings_iff he' hfinding).mp hf'
  refine List.inj_on_of_nodup_map hnd hb' hb ?_
  rw [h.span_eq he, h.span_eq he']
  exact Option.some.inj (hspan'.symm.trans hspan)

/-- A block besides types is there for its findings. -/
theorem findings_ne_nil (h : Grouped t findings file context flagged) {b : Block}
    (hb : b ∈ (context ++ flagged).values) (hmember : b.isContainer = false) : b.findings ≠ [] := by
  obtain ⟨⟨s, b⟩, he, rfl⟩ := List.mem_map.mp hb
  rcases List.mem_append.mp he with he | he
  · obtain ⟨_, _, rfl⟩ := h.context_entry s b he
    exact absurd hmember.symm Bool.false_ne_true
  · obtain ⟨f, _, hhead, _, rfl⟩ := h.flagged_entry s b he
    exact List.ne_nil_of_mem (List.mem_of_mem_head? hhead)

end Grouped

/-- The blocks of a file partition its findings: context first, then the blocks of
the spans that findings are located at. -/
theorem group_partitions_findings {t : DeclTree}
    (ht : ∀ d ∈ t.walk, 1 ≤ d.start ∧ d.start ≤ d.stop) (findings : List Finding) (file : Text) :
    ∃ context flagged, (group t findings file).outcome = .ok (context ++ flagged) ∧
      (context ++ flagged).keys.Nodup ∧
      (∀ e ∈ context ++ flagged, e.2.span = e.1) ∧
      (context.keys = ((t.walk.filter fun d => d.kind == .type).filterMap span?).eraseDups.filter
          fun s => s ∉ findings.filterMap t.spanAt) ∧
      (∀ e ∈ context, ∃ d,
        (t.walk.filter fun d => d.kind == .type).find? (fun d => d.span? = some e.1) = some d ∧
          e.2 = ⟨file, .type, e.1, some (d.summarize .minimal), [], d.name⟩) ∧
      flagged.keys = (findings.filterMap t.spanAt).eraseDups ∧
      (∀ e ∈ flagged, ∃ f p, (t.located findings e.1).head? = some f ∧
        t.locate f.line = some p ∧
          e.2 = ⟨file, p.item.kind, e.1, some (p.item.summarize .full),
            t.located findings e.1, p.item.name⟩) ∧
      ∀ f ∈ findings, t.locate f.line = none → ∀ e ∈ context ++ flagged, f ∉ e.2.findings := by
  obtain ⟨context, flagged, hgroup, h⟩ := exists_grouped ht findings file
  refine ⟨context, flagged, hgroup, h.nodup_keys, fun e he => h.span_eq he, h.context_keys,
    fun e he => h.context_entry e.1 e.2 he, h.flagged_keys,
    fun e he => h.flagged_entry e.1 e.2 he, fun f hf hnone e he hmem => ?_⟩
  rw [h.mem_findings_iff he hf, DeclTree.spanAt, hnone] at hmem
  exact Option.some_ne_none e.1 hmem.symm

/-- A class with a method and a class inside it, and a lambda on the lines of the
method. -/
def shopTree : DeclTree :=
  .node ⟨.unknown, 1, 9, "", none, none⟩
    [.node ⟨.type, 1, 9, "", some "Shop".toList, none⟩
      [.node ⟨.method, 2, 4, "sell()", some "sell".toList, none⟩
        [.node ⟨.lambda, 2, 4, "x -> x", none, none⟩ []],
       .node ⟨.type, 5, 8, "", some "Cart".toList, none⟩ []]]

/-- Two findings in the method, one outside the file, and one between them in the
outer class. -/
def shopFindings : List Finding :=
  [⟨3, "Doc", "missing", Nat.succ_pos _⟩, ⟨9, "Size", "large", Nat.succ_pos _⟩,
   ⟨20, "Doc", "missing", Nat.succ_pos _⟩, ⟨4, "Name", "short", Nat.succ_pos _⟩]

theorem group_partitions_shopFindings :
    (∀ d ∈ shopTree.walk, 1 ≤ d.start ∧ d.start ≤ d.stop) ∧
      ∃ context flagged, (group shopTree shopFindings "Shop").outcome = .ok (context ++ flagged) ∧
        context.keys = [⟨5, 8, by decide, by decide⟩] ∧
        flagged.keys = [⟨2, 4, by decide, by decide⟩, ⟨1, 9, by decide, by decide⟩] := by
  have hspans : ∀ d ∈ shopTree.walk, 1 ≤ d.start ∧ d.start ≤ d.stop := by decide
  obtain ⟨context, flagged, hgroup, -, -, hcontext, -, hflagged, -⟩ :=
    group_partitions_findings hspans shopFindings "Shop"
  exact ⟨hspans, context, flagged, hgroup, hcontext.trans (by decide), hflagged.trans (by decide)⟩

end Decl
end Refit

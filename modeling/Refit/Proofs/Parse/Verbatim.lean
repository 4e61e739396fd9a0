/-
The text of a declaration is the source as it stands.

Positions in a parse count bytes and a source is made of characters.  Where the positions fall between
characters, what is cut out of the encoding is an encoding too, so that reading it gives back the very
characters that were there, with none replaced.  From the parts of the parse the text goes through the
declarations to the blocks without a change.
-/
import Refit.Proofs.Decl.Merging
import Refit.Proofs.Parse.Skeleton
import Refit.Proofs.Text.Utf8

namespace Refit
namespace Parse

open Text (Utf8.encode Utf8.Boundary Utf8.Between)

/-- The bytes that the declaration at a place in document order is made from: all of them for the
file, which comes first, and those of its part for any other. -/
def rangeAt (p : Parse) (source : Text) : Nat → Option (Nat × Nat)
  | 0 => some (0, (Utf8.encode source).length)
  | k + 1 => (p.declared[k]?.bind p.root.labelAt?).map fun part => (part.startByte, part.stopByte)

theorem exists_declare_of_mem_declared {p : Parse} {path : List Nat} (h : path ∈ p.declared)
    (source : Text) :
    ∃ kind t, p.root.at? path = some t ∧
      p.declAt source path = declare (Utf8.encode source) kind t := by
  rw [mem_declared_iff, hasKind_iff] at h
  obtain ⟨kind, hdeclares⟩ := h
  exact ⟨kind, declAt_of_declares hdeclares source⟩

theorem between_whole (source : Text) :
    Utf8.Between source 0 (Utf8.encode source).length source :=
  ⟨[], [], by simp, rfl, rfl⟩

/-- A part whose ends fall between characters has the text that stands there. -/
theorem between_partText {source : Text} {part : Part} (hstart : Utf8.Boundary source part.startByte)
    (hstop : Utf8.Boundary source part.stopByte) (h : part.startByte ≤ part.stopByte) :
    Utf8.Between source part.startByte part.stopByte (partText (Utf8.encode source) part) := by
  obtain ⟨s, hs⟩ := Text.Utf8.exists_between hstart hstop h
  rw [partText, textBetween, hs.decodeReplacing_slice]
  exact hs

theorem between_walk {p : Parse} {source : Text} {t : DeclTree}
    (hparts : ∀ part ∈ p.root.walk, Utf8.Boundary source part.startByte ∧
      Utf8.Boundary source part.stopByte ∧ part.startByte ≤ part.stopByte)
    (hwalk : t.walk = fileDecl source :: p.declared.map (p.declAt source)) {n : Nat} {d : Decl}
    (hd : t.walk[n]? = some d) :
    ∃ range, p.rangeAt source n = some range ∧ Utf8.Between source range.1 range.2 d.text := by
  rw [hwalk] at hd
  cases n with
  | zero =>
      obtain rfl : fileDecl source = d := by simpa using hd
      exact ⟨_, rfl, between_whole source⟩
  | succ k =>
      rw [List.getElem?_cons_succ, List.getElem?_map, Option.map_eq_some_iff] at hd
      obtain ⟨path, hpath, rfl⟩ := hd
      obtain ⟨kind, part, hat, hdecl⟩ :=
        exists_declare_of_mem_declared (List.mem_of_getElem? hpath) source
      have hlabel : p.root.labelAt? path = some part.label := by rw [Tree.labelAt?, hat]; rfl
      obtain ⟨hstart, hstop, hle⟩ := hparts _ (Tree.mem_walk_of_labelAt? hlabel)
      refine ⟨(part.label.startByte, part.label.stopByte), ?_, ?_⟩
      · simp [rangeAt, hpath, hlabel]
      · rw [hdecl]
        exact between_partText hstart hstop hle

/-- The block of a member shows the text of the declaration that its findings are located at. -/
theorem text_of_member_block {t : DeclTree} {findings : List Finding} {file : Text}
    {blocks : Data.Pairs Span Block} (h : (Decl.group t findings file).outcome = .ok blocks)
    {b : Block} (hb : b ∈ blocks.values) (hkind : b.kind ≠ .type) :
    ∃ f q, b.findings.head? = some f ∧ t.locate f.line = some q ∧
      b.kind = q.item.kind ∧ b.text = some q.item.text := by
  obtain ⟨context, flagged, hgroup, hgrouped⟩ :=
    Decl.exists_grouped_of_groupable (Decl.groupable_of_outcome h) file
  obtain rfl : context ++ flagged = blocks := Except.ok.inj (hgroup.symm.trans h)
  obtain ⟨⟨s, b⟩, he, rfl⟩ := List.mem_map.mp hb
  rcases List.mem_append.mp he with he | he
  · -- A block that is only context is that of a type.
    obtain ⟨_, _, rfl⟩ := hgrouped.context_entry s b he
    exact absurd rfl hkind
  · obtain ⟨f, q, hhead, hlocate, rfl⟩ := hgrouped.flagged_entry s b he
    refine ⟨f, q, hhead, hlocate, rfl, ?_⟩
    rw [Decl.summarize, if_neg hkind]

/-- Where the parts of a parse begin and end between characters, every declaration has the text that
stands in the source at its bytes, and so has every block of a method, a lambda or an initializer. -/
theorem texts_stand_in_source (p : Parse) (hp : p.hasErrors = false) (source : Text)
    (hparts : ∀ part ∈ p.root.walk, Utf8.Boundary source part.startByte ∧
      Utf8.Boundary source part.stopByte ∧ part.startByte ≤ part.stopByte)
    (file : Option Text) :
    ∃ t : DeclTree, p.tree source file = .ok t ∧
      (∀ n d, t.walk[n]? = some d → ∃ range, p.rangeAt source n = some range ∧
        Utf8.Between source range.1 range.2 d.text) ∧
      ∀ findings name blocks, (Decl.group t findings name).outcome = .ok blocks →
        ∀ b ∈ blocks.values, b.kind = .method ∨ b.kind = .lambda ∨ b.kind = .initializer →
          ∃ f q range text, b.findings.head? = some f ∧ t.locate f.line = some q ∧
            b.kind = q.item.kind ∧ p.rangeAt source q.place = some range ∧
            b.text = some text ∧ Utf8.Between source range.1 range.2 text := by
  obtain ⟨t, htree, hwalk⟩ := exists_tree_walk p source file hp
  refine ⟨t, htree, fun n d hd => between_walk hparts hwalk hd, ?_⟩
  intro findings name blocks hblocks b hb hkinds
  have hkind : b.kind ≠ .type := by
    intro hkind
    simp [hkind] at hkinds
  obtain ⟨f, q, hhead, hlocate, hqkind, htext⟩ := text_of_member_block hblocks hb hkind
  have hq : t.walk[q.place]? = some q.item := by
    obtain ⟨hplaced, -⟩ := DeclTree.locate_eq_some_iff.mp hlocate
    exact Data.Placed.mem_list_iff.mp hplaced
  obtain ⟨range, hrange, hbetween⟩ := between_walk hparts hwalk hq
  exact ⟨f, q, range, q.item.text, hhead, hlocate, hqkind, hrange, htext, hbetween⟩

section Notes

def notesSource : Text := "class Ä\x7bint f()\x7breturn\"€😀\";\x7d\x7d"

/-- Characters of two to four bytes stand before the method and in it. -/
def notesParse : Parse :=
  ⟨false, linePart "program" none 0 35 [
    linePart "class_declaration" none 0 35 [
      linePart "identifier" (some "name".toList) 6 8 [],
      linePart "class_body" (some "body".toList) 8 35 [
        linePart "method_declaration" none 9 34 [
          linePart "identifier" (some "name".toList) 13 14 [],
          linePart "block" (some "body".toList) 16 34 []]]]]⟩

def notesMethod : Text := "int f()\x7breturn\"€😀\";\x7d"

def notesFinding : Finding := ⟨1, "Doc", "missing", Nat.succ_pos _⟩

def notesBlock (span : Span) : Block :=
  ⟨"A", .method, span, some notesMethod, [notesFinding], some "f".toList⟩

theorem texts_stand_in_notesSource :
    (∀ part ∈ notesParse.root.walk, Utf8.Boundary notesSource part.startByte ∧
        Utf8.Boundary notesSource part.stopByte ∧ part.startByte ≤ part.stopByte) ∧
      (∃ t span, notesParse.tree notesSource none = .ok t ∧
        (Decl.group t [notesFinding] "A").outcome = .ok [(span, notesBlock span)]) ∧
      Utf8.Between notesSource 9 34 notesMethod := by
  have hparts : ∀ part ∈ notesParse.root.walk, Utf8.Boundary notesSource part.startByte ∧
      Utf8.Boundary notesSource part.stopByte ∧ part.startByte ≤ part.stopByte := by decide
  obtain ⟨t, htree, -, hblocks⟩ := texts_stand_in_source notesParse rfl notesSource hparts none
  let span : Span := ⟨1, 1, by decide, by decide⟩
  have hgroup : (notesParse.tree notesSource none).map (fun t =>
      (Decl.group t [notesFinding] "A").outcome) = .ok (.ok [(span, notesBlock span)]) := by
    decide +kernel
  have hplace : (notesParse.tree notesSource none).map (fun t =>
      (t.locate 1).map Data.Placed.place) = .ok (some 2) := by decide +kernel
  simp only [htree, Except.map, Except.ok.injEq] at hgroup hplace
  obtain ⟨f, q, range, text, hhead, hlocate, -, hrange, htext, hbetween⟩ :=
    hblocks _ _ _ hgroup (notesBlock span) (List.mem_singleton_self _) (.inl rfl)
  obtain rfl := Option.some.inj hhead
  have hq : q.place = 2 := by
    have hline : t.locate 1 = some q := hlocate
    rw [hline] at hplace
    exact Option.some.inj hplace
  obtain rfl : (9, 34) = range := by
    rw [hq] at hrange
    exact Option.some.inj hrange
  obtain rfl := Option.some.inj htext
  exact ⟨hparts, ⟨t, span, htree, hgroup⟩, hbetween⟩

end Notes

end Parse
end Refit

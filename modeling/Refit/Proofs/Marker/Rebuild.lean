/-
Marking a file and resolving its markers, from end to end.

Where no two marked blocks share a line, the result is the file with the lines of
each marked block replaced by one text and every other line kept.  `rebuilt` says
which: line by line, from the blocks alone, without marks or positions.
-/
import Mathlib.Data.List.Pairwise
import Refit.Proofs.Marker.Layout

namespace Refit
namespace Marker

open Text

/-! ## Files whose marked blocks share no line -/

def Apart (a b : Block) : Prop := a.span.stop < b.span.start ∨ b.span.stop < a.span.start

instance (a b : Block) : Decidable (Apart a b) := inferInstanceAs (Decidable (_ ∨ _))

instance : Std.Symm Apart where
  symm _ _ h := Or.symm h

def blockLines (lines : List Text) (b : Block) : List Text :=
  (lines.take b.span.stop).drop (b.span.start - 1)

/-- The reading of a file with marks that share no line, behind its first `k`
lines. -/
def spacedPieces (lines : List Text) : Nat → List (Block × Text) → List Piece
  | k, [] => (lines.drop k).map .line
  | k, m :: ms =>
    ((lines.take (m.1.span.start - 1)).drop k).map .line ++
      .pair m.2 ((blockLines lines m.1).map .line) :: spacedPieces lines m.1.span.stop ms

theorem parses_spacedPieces {lines : List Text} {ms : List (Block × Text)} {k : Nat}
    (hstop : ∀ m ∈ ms, m.1.span.stop ≤ lines.length)
    (hspaced : ms.Pairwise fun a b => a.1.span.stop < b.1.span.start)
    (hk : ∀ m ∈ ms, k < m.1.span.start) :
    Parses ((sheet lines ms).drop k) (spacedPieces lines k ms) := by
  induction ms generalizing k with
  | nil =>
      rw [sheet, spacedPieces, ← List.map_drop]
      simpa using parses_lines (lines.drop k) .nil
  | cons m ms ih =>
      rw [List.forall_mem_cons] at hstop hk
      rw [List.pairwise_cons] at hspaced
      have hspan := m.1.span.start_le_stop
      have habove : ∀ m' ∈ ms, m.1.span.start - 1 < m'.1.span.start := by
        intro m' hm'
        have := hspaced.1 m' hm'
        omega
      have hlines := take_sheet hstop.2 habove
      have hinside := take_sheet hstop.2 hspaced.1
      rw [drop_sheet_cons hstop.1 hk.1, hlines, hinside, spacedPieces, ← List.map_drop,
        ← List.map_drop]
      refine parses_lines _ (.pair (fun hmem => ?_) (ih hstop.2 hspaced.2 hspaced.1))
      obtain ⟨_, _, hrow⟩ := List.mem_map.mp hmem
      exact absurd hrow Row.noConfusion

/-! ## What the file becomes -/

section Rebuilt

variable (map : Data.Pairs Text Text) (lines : List Text) (marked : List Block)

/-- The id of a marked block.  Its number counts the marked blocks from the
bottom. -/
def markerId (b : Block) : Text :=
  idOf b ((marked.filter fun o => b.span.stop < o.span.start).length + 1)

def markerPair (b : Block) : Pair :=
  ⟨markerId marked b, "\n" ++ ofFileLines (blockLines lines b) ++ "\n"⟩

def markerName (b : Block) : Text := pairName (markerPair lines marked b)

/-- What takes the place of a marked block: the implementation of its name at the
highest block of that name, a notice at the others and where there is none. -/
def replacedBy (b : Block) : Text :=
  let id := markerId marked b
  let name := markerName lines marked b
  match map.get? name with
  | none => removalNotice name id "no matching refactored implementation was found"
  | some body =>
    if marked.any fun o => o.span.stop < b.span.start && markerName lines marked o == name then
      removalNotice name id "its refactored implementation was placed at an earlier marker"
    else startReplaced id ++ "\n" ++ body ++ "\n" ++ endReplaced id

/-- What becomes of a line with its number: the first line of a marked block
gives way to the replacement of the block, its other lines to nothing. -/
def rebuiltLine (e : Text × Nat) : List Text :=
  match marked.find? fun b => b.span.start == e.2 with
  | some b => [replacedBy map lines marked b]
  | none => if marked.any fun b => b.span.containsLine e.2 then [] else [e.1]

def rebuilt : Text := ofFileLines ((lines.zipIdx 1).flatMap (rebuiltLine map lines marked))

end Rebuilt

/-! ### One line -/

section Line

variable {map : Data.Pairs Text Text} {lines : List Text} {marked : List Block} {b : Block}

theorem rebuiltLine_outside {n : Nat} (h : ∀ b ∈ marked, n < b.span.start ∨ b.span.stop < n)
    (l : Text) : rebuiltLine map lines marked (l, n) = [l] := by
  have hfind : marked.find? (fun b => b.span.start == n) = none := by
    rw [List.find?_eq_none]
    intro b hb hstart
    have := h b hb
    have hspan := b.span.start_le_stop
    rw [beq_iff_eq] at hstart
    omega
  have hany : ¬ (marked.any fun b => b.span.containsLine n) = true := by
    rw [List.any_eq_true]
    rintro ⟨b, hb, hline⟩
    have := h b hb
    rw [containsLine_iff] at hline
    omega
  rw [rebuiltLine, hfind]
  exact if_neg hany

theorem eq_of_shared_line (hapart : marked.Pairwise Apart) {b b' : Block} (hb : b ∈ marked)
    (hb' : b' ∈ marked) {n : Nat} (hn : b.span.start ≤ n ∧ n ≤ b.span.stop)
    (hn' : b'.span.start ≤ n ∧ n ≤ b'.span.stop) : b = b' := by
  by_contra hne
  have happ := hapart.forall hb hb' hne
  rw [Apart] at happ
  omega

theorem rebuiltLine_start (hapart : marked.Pairwise Apart) (hb : b ∈ marked) (l : Text) :
    rebuiltLine map lines marked (l, b.span.start) = [replacedBy map lines marked b] := by
  rw [rebuiltLine]
  cases hfind : marked.find? fun o => o.span.start == b.span.start with
  | none =>
      rw [List.find?_eq_none] at hfind
      exact absurd (beq_self_eq_true _) (hfind b hb)
  | some o =>
      have hstart := List.find?_some hfind
      have hspan := b.span.start_le_stop
      have hspan' := o.span.start_le_stop
      simp only [beq_iff_eq] at hstart
      rw [eq_of_shared_line hapart hb (List.mem_of_find?_eq_some hfind) ⟨Nat.le_refl _, hspan⟩
        ⟨by omega, by omega⟩]

theorem rebuiltLine_inside (hapart : marked.Pairwise Apart) (hb : b ∈ marked) {n : Nat}
    (hn : b.span.start < n ∧ n ≤ b.span.stop) (l : Text) :
    rebuiltLine map lines marked (l, n) = [] := by
  have hfind : marked.find? (fun o => o.span.start == n) = none := by
    rw [List.find?_eq_none]
    intro o ho hstart
    have hspan := o.span.start_le_stop
    rw [beq_iff_eq] at hstart
    have heq := eq_of_shared_line hapart hb ho ⟨by omega, hn.2⟩ ⟨by omega, by omega⟩
    subst heq
    omega
  rw [rebuiltLine, hfind]
  refine if_pos (List.any_eq_true.mpr ⟨b, hb, ?_⟩)
  exact containsLine_iff.mpr ⟨by omega, hn.2⟩

end Line

theorem written_lines (map : Data.Pairs Text Text) (used ls : List Text) (ps : List Piece) :
    written map used (ls.map .line ++ ps) = ls ++ written map used ps := by
  induction ls with
  | nil => rfl
  | cons l ls ih => rw [List.map_cons, List.cons_append, written, ih, List.cons_append]

theorem length_blockLines {lines : List Text} {b : Block} (h : b.span.stop ≤ lines.length) :
    (blockLines lines b).length = b.span.stop - (b.span.start - 1) := by
  rw [blockLines, List.length_drop, List.length_take, Nat.min_eq_left h]

/-! ### All lines -/

section Written

variable {map : Data.Pairs Text Text} {lines used : List Text} {marked above bs : List Block}
  {b : Block}

theorem enclosing_blockLines (hstop : b.span.stop ≤ lines.length) :
    enclosing (markerId marked b) ((blockLines lines b).map .line) =
      markerPair lines marked b := by
  have hne : blockLines lines b ≠ [] := by
    have hspan := b.span.start_le_stop
    have hpos := b.span.start_pos
    rw [← List.length_pos_iff, length_blockLines hstop]
    omega
  have hmap : ((blockLines lines b).map Row.line).map Row.text = blockLines lines b := by
    rw [List.map_map]
    exact List.map_id _
  rw [enclosing, hmap, ← cons_ofFileLines hne]
  rfl

/-- The number of a marked block, counted from the bottom, is one more than the
number of those below it. -/
theorem markerId_eq (hperm : (above ++ b :: bs).Perm marked)
    (hspaced : (above ++ b :: bs).Pairwise fun a c => a.span.stop < c.span.start) :
    markerId marked b = idOf b (bs.length + 1) := by
  rw [List.pairwise_append, List.pairwise_cons] at hspaced
  obtain ⟨-, ⟨hbelow, -⟩, habove⟩ := hspaced
  have hspan := b.span.start_le_stop
  have hnone : above.filter (fun o => b.span.stop < o.span.start) = [] := by
    rw [List.filter_eq_nil_iff]
    intro o ho hlt
    have := habove o ho b List.mem_cons_self
    have hspan' := o.span.start_le_stop
    rw [decide_eq_true_eq] at hlt
    omega
  have hall : bs.filter (fun o => b.span.stop < o.span.start) = bs := by
    rw [List.filter_eq_self]
    exact fun o ho => decide_eq_true (hbelow o ho)
  have hself : ¬ decide (b.span.stop < b.span.start) = true := by
    rw [decide_eq_true_eq]
    omega
  rw [markerId, ← (hperm.filter _).length_eq, List.filter_append, hnone,
    List.filter_cons, if_neg hself, hall, List.nil_append]

theorem mem_above_iff (hspaced : (above ++ b :: bs).Pairwise fun a c => a.span.stop < c.span.start)
    {o : Block} (ho : o ∈ above ++ b :: bs) : o.span.stop < b.span.start ↔ o ∈ above := by
  rw [List.pairwise_append, List.pairwise_cons] at hspaced
  obtain ⟨-, ⟨hbelow, -⟩, habove⟩ := hspaced
  constructor
  · intro hlt
    have hspan := b.span.start_le_stop
    have hspan' := o.span.start_le_stop
    rcases List.mem_append.mp ho with ho | ho
    · exact ho
    rcases List.mem_cons.mp ho with rfl | ho
    · omega
    · have := hbelow o ho
      omega
  · exact fun ho => habove o ho b List.mem_cons_self

/-- What a marked block is replaced by, when the names of those above it have
come up. -/
theorem replacement_eq_replacedBy (hperm : (above ++ b :: bs).Perm marked)
    (hspaced : (above ++ b :: bs).Pairwise fun a c => a.span.stop < c.span.start)
    (hused : Tracks map (above.map (markerName lines marked)) used) :
    replacement map used (markerPair lines marked b) = replacedBy map lines marked b := by
  have habove : (marked.any fun o => o.span.stop < b.span.start &&
        markerName lines marked o == markerName lines marked b) = true ↔
      markerName lines marked b ∈ above.map (markerName lines marked) := by
    simp only [List.any_eq_true, Bool.and_eq_true, decide_eq_true_eq, beq_iff_eq, List.mem_map]
    constructor
    · rintro ⟨o, ho, hlt, hname⟩
      refine ⟨o, ?_, hname⟩
      exact (mem_above_iff hspaced (hperm.mem_iff.mpr ho)).mp hlt
    · rintro ⟨o, ho, hname⟩
      have hmem := List.mem_append_left (b :: bs) ho
      exact ⟨o, hperm.mem_iff.mp hmem, (mem_above_iff hspaced hmem).mpr ho, hname⟩
  rw [replacement, ← markerName, hused.choose_eq, replacedBy]
  cases map.get? (markerName lines marked b) with
  | none => rfl
  | some body =>
      by_cases hseen : markerName lines marked b ∈ above.map (markerName lines marked)
      · simp only [if_pos hseen, if_pos (habove.mpr hseen)]
        rfl
      · simp only [if_neg hseen, if_neg (mt habove.mp hseen)]
        rfl

theorem flatMap_rebuiltLine_blockLines (hapart : marked.Pairwise Apart) (hb : b ∈ marked)
    (hstop : b.span.stop ≤ lines.length) :
    ((blockLines lines b).zipIdx b.span.start).flatMap (rebuiltLine map lines marked) =
      [replacedBy map lines marked b] := by
  have hlen := length_blockLines hstop
  have hspan := b.span.start_le_stop
  have hpos := b.span.start_pos
  cases hlines : blockLines lines b with
  | nil =>
      rw [hlines, List.length_nil] at hlen
      omega
  | cons l ls =>
      rw [hlines, List.length_cons] at hlen
      rw [List.zipIdx_cons, List.flatMap_cons, rebuiltLine_start hapart hb,
        flatMap_zipIdx_eq_nil, List.append_nil]
      exact fun i l hi hi' => rebuiltLine_inside hapart hb ⟨by omega, by omega⟩ l

/-- The blocks of `above` have been written, and `k` is the last of their lines. -/
theorem written_spacedPieces {k : Nat} (hapart : marked.Pairwise Apart)
    (hstop : ∀ b ∈ marked, b.span.stop ≤ lines.length) (hperm : (above ++ bs).Perm marked)
    (hspaced : (above ++ bs).Pairwise fun a c => a.span.stop < c.span.start)
    (habove : ∀ b ∈ above, b.span.stop ≤ k) (hbelow : ∀ b ∈ bs, k < b.span.start)
    (hused : Tracks map (above.map (markerName lines marked)) used) :
    written map used (spacedPieces lines k (numberedDown bs)) =
      ((lines.drop k).zipIdx (k + 1)).flatMap (rebuiltLine map lines marked) := by
  have hkeep : ∀ n l, (∀ c ∈ marked, n < c.span.start ∨ c.span.stop < n) →
      rebuiltLine map lines marked (l, n) = [l] := fun _ l h => rebuiltLine_outside h l
  induction bs generalizing above k used with
  | nil =>
      rw [List.append_nil] at hperm
      rw [flatMap_behind hkeep hperm habove, numberedDown, spacedPieces,
        ← List.append_nil ((lines.drop k).map _), written_lines, written, List.append_nil]
  | cons b bs ih =>
      have hb : b ∈ marked := hperm.mem_iff.mp (List.mem_append_right _ List.mem_cons_self)
      have hspan := b.span.start_le_stop
      have hpos := b.span.start_pos
      have hend := hstop b hb
      have hk : k < b.span.start := hbelow b List.mem_cons_self
      have hlater : ∀ c ∈ bs, b.span.stop < c.span.start := fun c hc =>
        (List.pairwise_cons.mp (List.pairwise_append.mp hspaced).2.1).1 c hc
      have hgap := flatMap_gap hkeep hperm habove
        (fun c hc => Nat.lt_of_le_of_lt hspan (hlater c hc)) lines
      have hnext := List.append_cons above b bs
      have hrest := @ih (placing map used (markerPair lines marked b)) (above ++ [b])
        b.span.stop (hnext ▸ hperm) (hnext ▸ hspaced) (stop_le_of_mem_above habove (by omega))
        hlater (by rw [List.map_append]; exact hused.placing _)
      rw [numberedDown, spacedPieces, ← markerId_eq hperm hspaced, written_lines, written,
        enclosing_blockLines hend, replacement_eq_replacedBy hperm hspaced hused, hrest,
        flatMap_zipIdx_drop _ (show k ≤ b.span.start - 1 by omega) (by omega) hend, hgap,
        Nat.sub_add_cancel hpos, ← blockLines, flatMap_rebuiltLine_blockLines hapart hb hend]
      rfl

end Written

/-- The marked blocks of a file share no line, from the top down. -/
theorem pairwise_topDown_of_apart {n : Nat} {blocks : List Block}
    (hapart : (markable n blocks).Pairwise Apart) :
    (topDown n blocks).Pairwise fun a b => a.span.stop < b.span.start := by
  have happ := hapart.perm (topDown_perm n blocks).symm fun h => Std.Symm.symm _ _ h
  refine ((pairwise_topDown n blocks).and happ).imp fun {a b} h => ?_
  have hspan := b.span.start_le_stop
  rcases h with ⟨⟨hstart, -⟩, hlt | hlt⟩
  · exact hlt
  · omega

theorem replaceMarked_mark_eq_rebuilt (map : Data.Pairs Text Text) {text : Text}
    {blocks : List Block} (htext : text ≠ []) (hstart : occurs startLead text = false)
    (hend : occurs endLead text = false)
    (hnames : ∀ b ∈ markable (fileLines text).length blocks, ∀ name ∈ b.name, Plain name)
    (hapart : (markable (fileLines text).length blocks).Pairwise Apart) :
    replaceMarked map (mark text blocks) =
      rebuilt map (fileLines text) (markable (fileLines text).length blocks) := by
  let marked := markable (fileLines text).length blocks
  have hspaced := pairwise_topDown_of_apart hapart
  have hparses := parses_spacedPieces (fun _ hm => stop_le_of_mem_marksDown hm)
    (pairwise_numberedDown hspaced) (fun m _ => m.1.span.start_pos)
  have hwritten := @written_spacedPieces map (fileLines text) [] marked [] _ 0 hapart
    (fun _ hb => stop_le_of_mem_markable hb) (topDown_perm _ blocks) hspaced
    (fun _ hb => absurd hb List.not_mem_nil) (fun b _ => b.span.start_pos) (fun _ => by simp)
  rw [replaceMarked_mark map htext hstart hend hnames hparses]
  exact congrArg ofFileLines hwritten

def shopText : Text :=
  "class Shop \x7b\n  int sell() \x7b\n    return 1;\n  \x7d\n  int buy() \x7b return 2; \x7d\n\x7d"

def shopMethods : List Block :=
  [flaggedBehind .method (some "sell".toList) 1 2, flaggedBehind .method (some "buy".toList) 4 0]

theorem replaceMarked_mark_shopMethods :
    replaceMarked [("sell".toList, "int sell() \x7b return 3; \x7d".toList)]
        (mark shopText shopMethods) =
      ("class Shop \x7b\n// <start-replaced:sell-2>\nint sell() \x7b return 3; \x7d\n" ++
        "// <end-replaced:sell-2>\n// <removed-method: buy from marker buy-1>\n" ++
        "// Original method was removed as no matching refactored implementation was found\n" ++
        "\x7d").toList := by
  have hmarked : markable (fileLines shopText).length shopMethods = shopMethods := by
    decide +kernel
  have hnames : ∀ b ∈ shopMethods, ∀ name ∈ b.name, Plain name := by decide
  have hapart : shopMethods.Pairwise Apart := by decide
  rw [replaceMarked_mark_eq_rebuilt _ (by decide) (by decide +kernel) (by decide +kernel)
    (hmarked ▸ hnames) (hmarked ▸ hapart), hmarked]
  decide +kernel

end Marker
end Refit

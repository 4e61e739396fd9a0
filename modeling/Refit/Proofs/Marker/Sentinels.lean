/-
The sentinel lines of a marked file.

Marking puts lines in and takes none out: without its sentinel lines the marked
file is the file as it was, and the sentinel lines are one pair for each marked
block, the start before the end.  That holds wherever the blocks overlap, since
an insertion moves rows down but never past one another.
-/
import Refit.Proofs.Marker.Layout

namespace Refit
namespace Marker

open Text

def isSentinel (line : Text) : Bool := startsWith startLead line || startsWith endLead line

def withoutSentinels (text : Text) : Text :=
  ofFileLines ((fileLines text).filter fun l => !isSentinel l)

/-! ## Rows and sentinels -/

def Row.isMark : Row → Bool
  | .line _ => false
  | .opening _ | .closing _ => true

theorem Row.isSentinel_text {r : Row} (h : ∀ l, r = .line l → isSentinel l = false) :
    isSentinel r.text = r.isMark := by
  cases r with
  | line l => exact h l rfl
  | opening id =>
      rw [Row.text, isSentinel, startFlagged_eq, startsWith_append, Bool.true_or]
      rfl
  | closing id =>
      rw [Row.text, isSentinel, endFlagged_eq, startsWith_append, Bool.or_true]
      rfl

section InsertLine

variable {α : Type} {x y : α} {xs : List α} {i j : Nat}

theorem insertLine_perm (i : Nat) (x : α) (xs : List α) : (insertLine i x xs).Perm (x :: xs) := by
  have h : (insertLine i x xs).Perm (x :: (xs.take i ++ xs.drop i)) := List.perm_middle
  rwa [List.take_append_drop] at h

theorem sublist_insertLine (i : Nat) (x : α) (xs : List α) :
    List.Sublist xs (insertLine i x xs) := by
  have h := (List.Sublist.refl (xs.take i)).append (List.sublist_cons_self x (xs.drop i))
  rwa [List.take_append_drop] at h

theorem filter_insertLine_of_neg {p : α → Bool} (hx : p x = false) (i : Nat) (xs : List α) :
    (insertLine i x xs).filter p = xs.filter p := by
  rw [insertLine, List.filter_append, List.filter_cons_of_neg (by simp [hx]), ← List.filter_append,
    List.take_append_drop]

/-- Of two rows put in, the one at the lower place is put in last and comes first. -/
theorem sublist_insertLine_insertLine (hij : i ≤ j) (hj : j ≤ xs.length) :
    List.Sublist [x, y] (insertLine i x (insertLine j y xs)) := by
  have hy : y ∈ (insertLine j y xs).drop i := by
    rw [drop_insertLine hij hj]
    exact mem_insertLine.mpr (.inl rfl)
  have hpair : List.Sublist [x, y] (x :: (insertLine j y xs).drop i) :=
    (List.singleton_sublist.mpr hy).cons_cons x
  exact hpair.trans (List.sublist_append_right _ _)

end InsertLine

/-! ## The sheet of some marks -/

section Sheet

variable {lines : List Text} {m : Block × Text} {ms : List (Block × Text)}

theorem filter_not_isMark_sheet (lines : List Text) (ms : List (Block × Text)) :
    (sheet lines ms).filter (fun r => !r.isMark) = lines.map .line := by
  induction ms with
  | nil =>
      rw [sheet, List.filter_eq_self]
      intro r hr
      obtain ⟨l, -, rfl⟩ := List.mem_map.mp hr
      rfl
  | cons m ms ih => rw [sheet, filter_insertLine_of_neg rfl, filter_insertLine_of_neg rfl, ih]

theorem filter_isMark_sheet (lines : List Text) (ms : List (Block × Text)) :
    ((sheet lines ms).filter Row.isMark).Perm
      (ms.flatMap fun m => [.opening m.2, .closing m.2]) := by
  induction ms with
  | nil =>
      have hnone : (lines.map Row.line).filter Row.isMark = [] := by
        rw [List.filter_eq_nil_iff]
        intro r hr
        obtain ⟨l, -, rfl⟩ := List.mem_map.mp hr
        exact Bool.false_ne_true
      rw [sheet, hnone, List.flatMap_nil]
  | cons m ms ih =>
      have hrows : (sheet lines (m :: ms)).Perm (.opening m.2 :: .closing m.2 :: sheet lines ms) :=
        (insertLine_perm _ _ _).trans ((insertLine_perm _ _ _).cons _)
      exact (hrows.filter Row.isMark).trans ((ih.cons _).cons _)

/-- Whatever is put in later, the start sentinel of a mark stays before its end. -/
theorem sublist_sheet (hstop : ∀ m ∈ ms, m.1.span.stop ≤ lines.length) (hm : m ∈ ms) :
    List.Sublist [.opening m.2, .closing m.2] (sheet lines ms) := by
  induction ms with
  | nil => exact absurd hm List.not_mem_nil
  | cons m' ms ih =>
      rw [List.forall_mem_cons] at hstop
      rw [sheet]
      rcases List.mem_cons.mp hm with rfl | hm
      · have hlen := length_sheet lines ms
        have hspan := m.1.span.start_le_stop
        exact sublist_insertLine_insertLine (by omega) (by omega)
      · exact ((ih hstop.2 hm).trans (sublist_insertLine _ _ _)).trans (sublist_insertLine _ _ _)

end Sheet

/-! ## The marked file -/

theorem newline_notMem_idOf {b : Block} (h : ∀ n ∈ b.name, '\n' ∉ n) (k : Nat) :
    '\n' ∉ idOf b k := by
  have hname : '\n' ∉ entityName b := by
    rcases entityName_recorded_or_identifier b with hrec | hid
    · exact h _ hrec
    · exact hid.plain.newline
  rw [idOf_eq]
  refine List.not_mem_append hname (List.not_mem_cons_of_ne_of_not_mem (by decide) ?_)
  exact (ofNat_plain k).newline

/-- The marked blocks of a text from the bottom up, each with its number. -/
def numberedBlocks (text : Text) (blocks : List Block) : List (Block × Nat) :=
  (bottomUp (markable (fileLines text).length blocks)).zipIdx 1

theorem marks_eq_map (text : Text) (blocks : List Block) :
    marks text blocks = (numberedBlocks text blocks).map fun e => (e.1, idOf e.1 e.2) := rfl

section Text

variable {text : Text} {blocks : List Block}

theorem mem_marksDown_iff {m : Block × Text} :
    m ∈ marksDown text blocks ↔ ∃ e ∈ numberedBlocks text blocks, (e.1, idOf e.1 e.2) = m := by
  rw [← reverse_marks, List.mem_reverse, marks_eq_map, List.mem_map]

theorem fileLines_mark (htext : text ≠ []) (hnames : ∀ b ∈ blocks, ∀ name ∈ b.name, '\n' ∉ name) :
    fileLines (mark text blocks) =
      (sheet (fileLines text) (marksDown text blocks)).map Row.text := by
  have hne := sheet_ne_nil (fileLines_ne_nil text) (marksDown text blocks)
  rw [mark_eq_sheet htext, fileLines_ofFileLines (mt List.map_eq_nil_iff.mp hne)]
  refine flatMap_fileLines_of_notMem fun l hl => ?_
  obtain ⟨r, hr, rfl⟩ := List.mem_map.mp hl
  rcases mem_sheet hr with ⟨l, hline, rfl⟩ | ⟨id, hid, hrow⟩
  · exact notMem_of_mem_fileLines hline
  · obtain ⟨m, hm, rfl⟩ := List.mem_map.mp hid
    obtain ⟨-, k, -, hk⟩ := exists_of_mem_numberedDown hm
    have hblock : m.1 ∈ blocks := mem_of_mem_markable (mem_markable_of_mem_marksDown hm)
    have hid : '\n' ∉ m.2 := by
      rw [hk]
      exact newline_notMem_idOf (hnames m.1 hblock) k
    rcases hrow with rfl | rfl
    · rw [Row.text, startFlagged_eq]
      exact List.not_mem_append newline_notMem_startLead (List.not_mem_append hid (by decide))
    · rw [Row.text, endFlagged_eq]
      exact List.not_mem_append newline_notMem_endLead (List.not_mem_append hid (by decide))

theorem isSentinel_text_of_mem_sheet (hfree : ∀ l ∈ fileLines text, isSentinel l = false) {r : Row}
    (h : r ∈ sheet (fileLines text) (marksDown text blocks)) : isSentinel r.text = r.isMark := by
  refine Row.isSentinel_text fun l hl => ?_
  rcases mem_sheet h with ⟨l', hmem, hrow⟩ | ⟨id, -, hrow | hrow⟩
  · rw [hl] at hrow
    rw [Row.line.inj hrow]
    exact hfree l' hmem
  · exact absurd (hl.symm.trans hrow) Row.noConfusion
  · exact absurd (hl.symm.trans hrow) Row.noConfusion

/-- The sentinel lines that mark a block as the `k`-th from the bottom. -/
def sentinelPair (e : Block × Nat) : List Text :=
  [startFlagged (idOf e.1 e.2), endFlagged (idOf e.1 e.2)]

theorem nodup_numberedBlocks_ids (text : Text) (blocks : List Block) :
    ((numberedBlocks text blocks).map fun e => idOf e.1 e.2).Nodup := by
  have hids : ((marksDown text blocks).map Prod.snd).Nodup := nodup_ids _
  rw [← reverse_marks, marks_eq_map, List.map_reverse, List.nodup_reverse, List.map_map] at hids
  exact hids

theorem withoutSentinels_mark (htext : text ≠ [])
    (hfree : ∀ l ∈ fileLines text, isSentinel l = false)
    (hnames : ∀ b ∈ blocks, ∀ name ∈ b.name, '\n' ∉ name) :
    withoutSentinels (mark text blocks) = text := by
  have hrows : ((sheet (fileLines text) (marksDown text blocks)).map Row.text).filter
      (fun l => !isSentinel l) = fileLines text := by
    rw [List.filter_map, List.filter_congr (q := fun r => !r.isMark), filter_not_isMark_sheet,
      List.map_map]
    · exact List.map_id _
    · intro r hr
      show (!isSentinel r.text) = !r.isMark
      rw [isSentinel_text_of_mem_sheet hfree hr]
  rw [withoutSentinels, fileLines_mark htext hnames, hrows, ofFileLines_fileLines]

theorem filter_isSentinel_mark (htext : text ≠ [])
    (hfree : ∀ l ∈ fileLines text, isSentinel l = false)
    (hnames : ∀ b ∈ blocks, ∀ name ∈ b.name, '\n' ∉ name) :
    ((fileLines (mark text blocks)).filter isSentinel).Perm
      ((numberedBlocks text blocks).flatMap sentinelPair) := by
  have hmarks : ((sheet (fileLines text) (marksDown text blocks)).map Row.text).filter isSentinel =
      ((sheet (fileLines text) (marksDown text blocks)).filter Row.isMark).map Row.text := by
    rw [List.filter_map, List.filter_congr (q := Row.isMark)]
    intro r hr
    exact isSentinel_text_of_mem_sheet hfree hr
  rw [fileLines_mark htext hnames, hmarks]
  refine ((filter_isMark_sheet _ _).map Row.text).trans ?_
  rw [← reverse_marks, marks_eq_map, List.map_flatMap]
  refine ((List.reverse_perm _).flatMap_right _).trans ?_
  rw [List.flatMap_map]
  rfl

end Text

/-- Marking only adds lines: a start sentinel and a later end sentinel for each
marked block, under an id that no other block has and that its name can be read
back from.  The blocks may overlap in any way. -/
theorem mark_adds_sentinel_pairs {text : Text} {blocks : List Block} (htext : text ≠ [])
    (hfree : ∀ l ∈ fileLines text, isSentinel l = false)
    (hnames : ∀ b ∈ blocks, ∀ name ∈ b.name, '\n' ∉ name) :
    let lines := fileLines (mark text blocks)
    let marked := numberedBlocks text blocks
    withoutSentinels (mark text blocks) = text ∧
      (marked.map Prod.fst).Perm (markable (fileLines text).length blocks) ∧
      marked.map Prod.snd = List.range' 1 (markable (fileLines text).length blocks).length ∧
      (lines.filter isSentinel).Perm (marked.flatMap sentinelPair) ∧
      (∀ e ∈ marked, List.Sublist (sentinelPair e) lines) ∧
      (marked.map fun e => idOf e.1 e.2).Nodup ∧
      ∀ e ∈ marked, cutLast? '-' (idOf e.1 e.2) = some (entityName e.1, '-' :: ofNat e.2) := by
  intro lines marked
  refine ⟨withoutSentinels_mark htext hfree hnames, ?_, ?_,
    filter_isSentinel_mark htext hfree hnames, fun e he => ?_,
    nodup_numberedBlocks_ids text blocks, fun e _ => cutLast?_idOf e.1 e.2⟩
  · have hfst : marked.map Prod.fst = bottomUp (markable (fileLines text).length blocks) :=
      List.zipIdx_map_fst _ _
    rw [hfst]
    exact List.mergeSort_perm _ _
  · have hsnd : marked.map Prod.snd = List.range' 1 (bottomUp (markable _ blocks)).length :=
      List.zipIdx_map_snd _ _
    rw [hsnd, bottomUp, List.length_mergeSort]
  · have hmem : (e.1, idOf e.1 e.2) ∈ marksDown text blocks := mem_marksDown_iff.mpr ⟨e, he, rfl⟩
    have hrows := sublist_sheet (fun _ hm => stop_le_of_mem_marksDown hm) hmem
    show List.Sublist (sentinelPair e) (fileLines (mark text blocks))
    rw [fileLines_mark htext hnames]
    exact hrows.map Row.text

def letterLines : Text := "a\nb\nc\nd\ne\nf"

/-- A method whose name looks like an id, and two lambdas that share a line. -/
def crossingBlocks : List Block :=
  [flaggedBehind .method (some "x-1".toList) 5 0, flaggedBehind .lambda none 2 2,
    flaggedBehind .lambda none 0 2]

theorem mark_adds_sentinel_pairs_crossingBlocks :
    letterLines ≠ [] ∧ (∀ l ∈ fileLines letterLines, isSentinel l = false) ∧
      (∀ b ∈ crossingBlocks, ∀ name ∈ b.name, '\n' ∉ name) ∧
      withoutSentinels (mark letterLines crossingBlocks) = letterLines ∧
      ((fileLines (mark letterLines crossingBlocks)).filter isSentinel).Perm
        [startFlagged "x-1-1", endFlagged "x-1-1", startFlagged "Lambda-2", endFlagged "Lambda-2",
          startFlagged "Lambda-3", endFlagged "Lambda-3"] ∧
      List.Sublist [startFlagged "Lambda-3", endFlagged "Lambda-3"]
        (fileLines (mark letterLines crossingBlocks)) := by
  have htext : letterLines ≠ [] := by decide
  have hfree : ∀ l ∈ fileLines letterLines, isSentinel l = false := by decide
  have hnames : ∀ b ∈ crossingBlocks, ∀ name ∈ b.name, '\n' ∉ name := by decide
  have hmarkable : markable (fileLines letterLines).length crossingBlocks = crossingBlocks := by
    decide +kernel
  have hsorted : bottomUp crossingBlocks = crossingBlocks :=
    List.mergeSort_of_pairwise (by decide)
  have hnumbered : numberedBlocks letterLines crossingBlocks = crossingBlocks.zipIdx 1 := by
    rw [numberedBlocks, hmarkable, hsorted]
  obtain ⟨hback, -, -, hadded, hpairs, -, -⟩ := mark_adds_sentinel_pairs htext hfree hnames
  rw [hnumbered] at hadded hpairs
  refine ⟨htext, hfree, hnames, hback, hadded, ?_⟩
  exact hpairs (flaggedBehind .lambda none 0 2, 3) (by decide)

end Marker
end Refit

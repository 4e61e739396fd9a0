/-
Where the sentinels of a marked file stand.

No marked block holds another, so from the top of the file down both the first
and the last lines of the marked blocks climb (`pairwise_topDown`).  Marking goes
from the bottom up; read from the top, the file is the sheet of its first mark
set around the sheet of the others (`mark_eq_sheet`), and `drop_sheet_cons` and
`drop_sheet_cons_of_lt` say what remains of it behind any row.
-/
import Refit.Proofs.Marker.Names

namespace Refit
namespace Marker

open Text

/-! ## Marked blocks -/

theorem mem_of_mem_firstOfSpan {b : Block} {blocks : List Block} (h : b ∈ firstOfSpan blocks) :
    b ∈ blocks := by
  induction blocks with
  | nil => exact h
  | cons c blocks ih =>
      rcases List.mem_cons.mp h with rfl | hmem
      · exact List.mem_cons_self
      · exact List.mem_cons_of_mem _ (ih (List.mem_of_mem_filter hmem))

theorem pairwise_firstOfSpan (blocks : List Block) :
    (firstOfSpan blocks).Pairwise fun a b => a.span ≠ b.span := by
  induction blocks with
  | nil => exact List.Pairwise.nil
  | cons b blocks ih =>
      refine List.Pairwise.cons (fun c hc => ?_) (ih.filter _)
      have hne : c.span ≠ b.span := of_decide_eq_true (List.mem_filter.mp hc).2
      exact hne.symm

theorem mem_flagged_of_markable {n : Nat} {blocks : List Block} {b : Block}
    (h : b ∈ markable n blocks) : b ∈ flagged n blocks :=
  List.mem_of_mem_filter (List.mem_of_mem_filter h)

theorem mem_of_mem_markable {n : Nat} {blocks : List Block} {b : Block}
    (h : b ∈ markable n blocks) : b ∈ blocks :=
  List.mem_of_mem_filter (mem_of_mem_firstOfSpan (mem_flagged_of_markable h))

theorem stop_le_of_mem_flagged {n : Nat} {blocks : List Block} {b : Block}
    (h : b ∈ flagged n blocks) : b.span.stop ≤ n := by
  have hkept := (List.mem_filter.mp (mem_of_mem_firstOfSpan h)).2
  rw [Bool.and_eq_true, decide_eq_true_eq] at hkept
  exact hkept.2

theorem stop_le_of_mem_markable {n : Nat} {blocks : List Block} {b : Block}
    (h : b ∈ markable n blocks) : b.span.stop ≤ n :=
  stop_le_of_mem_flagged (mem_flagged_of_markable h)

theorem pairwise_markable (n : Nat) (blocks : List Block) :
    (markable n blocks).Pairwise fun a b => a.span ≠ b.span :=
  ((pairwise_firstOfSpan _).filter _).filter _

/-- A marked member covers what it holds, and a type gives way to it. -/
theorem not_contains_of_mem_markable {n : Nat} {blocks : List Block} {a b : Block}
    (ha : a ∈ markable n blocks) (hb : b ∈ markable n blocks) (hne : a.span ≠ b.span) :
    a.span.contains b.span = false := by
  obtain ⟨hao, hea⟩ := List.mem_filter.mp ha
  have hbo : b ∈ uncovered (flagged n blocks) := List.mem_of_mem_filter hb
  have hcov := (List.mem_filter.mp hbo).2
  rw [Bool.not_eq_true', ← Bool.not_eq_true] at hea hcov
  rw [← Bool.not_eq_true]
  intro hc
  -- A type that holds `b` would not be marked, and in any other block `b` would not.
  cases hk : a.isContainer with
  | true =>
      refine hea ?_
      rw [isEnclosing, hk, Bool.true_and, List.any_eq_true]
      exact ⟨b, hbo, by rw [hc, Bool.and_true, bne_iff_ne]; exact hne.symm⟩
  | false =>
      refine hcov ?_
      rw [isCovered, List.any_eq_true]
      exact ⟨a, List.mem_of_mem_filter hao, by
        rw [hk, hc, Bool.and_true, Bool.not_false, Bool.and_true, bne_iff_ne]; exact hne⟩

/-- A flagged block of `n + 1` lines behind the first `k`. -/
def flaggedBehind (kind : Kind) (name : Option Text) (k n : Nat) : Block :=
  ⟨"Shop", kind, ⟨k + 1, k + 1 + n, Nat.succ_pos k, Nat.le_add_right _ n⟩, none,
    [⟨k + 1, "Doc", "missing", Nat.le_add_left 1 k⟩], name⟩

/-! ## From the top down -/

/-- Both ends of `b` lie below those of `a`. -/
def Above (a b : Block) : Prop := a.span.start < b.span.start ∧ a.span.stop < b.span.stop

theorem before_eq_true_iff {a b : Span} :
    a.before b = true ↔ a.start < b.start ∨ a.start = b.start ∧ a.stop < b.stop := by
  simp [Span.before]

theorem containsLine_iff {a : Span} {n : Nat} :
    a.containsLine n = true ↔ a.start ≤ n ∧ n ≤ a.stop := by
  simp [Span.containsLine]

theorem pairwise_bottomUp (blocks : List Block) :
    (bottomUp blocks).Pairwise fun a b => a.span.before b.span = false := by
  have hsorted : (bottomUp blocks).Pairwise fun a b => (!a.span.before b.span) = true := by
    refine List.pairwise_mergeSort (fun a b c => ?_) (fun a b => ?_) blocks
    · simp only [Bool.not_eq_true', ← Bool.not_eq_true, before_eq_true_iff]
      omega
    · simp only [Bool.or_eq_true, Bool.not_eq_true', ← Bool.not_eq_true, before_eq_true_iff]
      omega
  exact hsorted.imp fun h => (Bool.not_eq_true' _).mp h

def topDown (n : Nat) (blocks : List Block) : List Block := (bottomUp (markable n blocks)).reverse

theorem topDown_perm (n : Nat) (blocks : List Block) :
    (topDown n blocks).Perm (markable n blocks) :=
  (List.reverse_perm _).trans (List.mergeSort_perm _ _)

theorem pairwise_topDown (n : Nat) (blocks : List Block) :
    (topDown n blocks).Pairwise Above := by
  have hmem : ∀ b, b ∈ bottomUp (markable n blocks) → b ∈ markable n blocks := fun b hb =>
    (List.mergeSort_perm _ _).mem_iff.mp hb
  have hspans : (bottomUp (markable n blocks)).Pairwise fun a b => a.span ≠ b.span :=
    (pairwise_markable n blocks).perm (List.mergeSort_perm _ _).symm Ne.symm
  rw [topDown, List.pairwise_reverse]
  refine ((pairwise_bottomUp _).and hspans).imp_of_mem fun {a b} ha hb h => ?_
  have hab := not_contains_of_mem_markable (hmem a ha) (hmem b hb) h.2
  have hba := not_contains_of_mem_markable (hmem b hb) (hmem a ha) h.2.symm
  have hbefore := h.1
  rw [← Bool.not_eq_true, Span.contains_iff] at hab hba
  rw [← Bool.not_eq_true, before_eq_true_iff] at hbefore
  constructor
  · omega
  · omega

/-! ### Going down the marked blocks -/

section Down

variable {marked above bs : List Block} {b : Block} {k : Nat}

theorem stop_le_of_mem_above (habove : ∀ c ∈ above, c.span.stop ≤ k) (hb : k ≤ b.span.stop) :
    ∀ c ∈ above ++ [b], c.span.stop ≤ b.span.stop := by
  intro c hc
  rcases List.mem_append.mp hc with hc | hc
  · exact Nat.le_trans (habove c hc) hb
  · rw [List.mem_singleton.mp hc]

/-- A line behind the blocks above and before the next one lies in no block. -/
theorem outside_of_gap (hperm : (above ++ b :: bs).Perm marked)
    (habove : ∀ c ∈ above, c.span.stop ≤ k) (hbelow : ∀ c ∈ bs, b.span.start < c.span.start)
    {n : Nat} (hn : k < n) (hn' : n < b.span.start) :
    ∀ c ∈ marked, n < c.span.start ∨ c.span.stop < n := by
  intro c hc
  rcases List.mem_append.mp (hperm.mem_iff.mpr hc) with hc | hc
  · exact .inr (Nat.lt_of_le_of_lt (habove c hc) hn)
  rcases List.mem_cons.mp hc with rfl | hc
  · exact .inl hn'
  · exact .inl (Nat.lt_trans hn' (hbelow c hc))

/-- Where the lines outside all blocks are kept, those before the next block are. -/
theorem flatMap_gap {f : Text × Nat → List Text}
    (hf : ∀ n l, (∀ c ∈ marked, n < c.span.start ∨ c.span.stop < n) → f (l, n) = [l])
    (hperm : (above ++ b :: bs).Perm marked) (habove : ∀ c ∈ above, c.span.stop ≤ k)
    (hbelow : ∀ c ∈ bs, b.span.start < c.span.start) (lines : List Text) :
    (((lines.take (b.span.start - 1)).drop k).zipIdx (k + 1)).flatMap f =
      (lines.take (b.span.start - 1)).drop k := by
  refine flatMap_zipIdx_eq_self fun n l hn hn' => hf n l ?_
  rw [List.length_drop, List.length_take] at hn'
  exact outside_of_gap hperm habove hbelow (by omega) (by omega)

/-- Behind the last block all lines are. -/
theorem flatMap_behind {f : Text × Nat → List Text}
    (hf : ∀ n l, (∀ c ∈ marked, n < c.span.start ∨ c.span.stop < n) → f (l, n) = [l])
    (hperm : above.Perm marked) (habove : ∀ c ∈ above, c.span.stop ≤ k) (lines : List Text) :
    ((lines.drop k).zipIdx (k + 1)).flatMap f = lines.drop k := by
  refine flatMap_zipIdx_eq_self fun n l hn _ => hf n l fun c hc => .inr ?_
  have := habove c (hperm.mem_iff.mpr hc)
  omega

end Down

/-! ## Numbers -/

/-- Blocks from the top down with their ids, which count from the bottom. -/
def numberedDown : List Block → List (Block × Text)
  | [] => []
  | b :: bs => (b, idOf b (bs.length + 1)) :: numberedDown bs

theorem numbered_reverse (bs : List Block) : (numbered bs.reverse).reverse = numberedDown bs := by
  induction bs with
  | nil => rfl
  | cons b bs ih =>
      rw [numberedDown, ← ih, List.reverse_cons]
      simp [numbered, idOf, List.zipIdx_append, Nat.add_comm]

theorem map_fst_numberedDown (bs : List Block) : (numberedDown bs).map Prod.fst = bs := by
  induction bs with
  | nil => rfl
  | cons b bs ih => rw [numberedDown, List.map_cons, ih]

theorem pairwise_numberedDown {R : Block → Block → Prop} {bs : List Block} (h : bs.Pairwise R) :
    (numberedDown bs).Pairwise fun a b => R a.1 b.1 := by
  rw [← map_fst_numberedDown bs, List.pairwise_map] at h
  exact h

theorem exists_of_mem_numberedDown {bs : List Block} {m : Block × Text}
    (h : m ∈ numberedDown bs) : m.1 ∈ bs ∧ ∃ k ≤ bs.length, m.2 = idOf m.1 k := by
  induction bs with
  | nil => exact absurd h List.not_mem_nil
  | cons b bs ih =>
      rcases List.mem_cons.mp h with rfl | hm
      · exact ⟨List.mem_cons_self, bs.length + 1, Nat.le_refl _, rfl⟩
      · obtain ⟨hb, k, hk, hid⟩ := ih hm
        exact ⟨List.mem_cons_of_mem _ hb, k, Nat.le_succ_of_le hk, hid⟩

theorem nodup_ids (bs : List Block) : ((numberedDown bs).map Prod.snd).Nodup := by
  induction bs with
  | nil => exact List.nodup_nil
  | cons b bs ih =>
      rw [numberedDown, List.map_cons, List.nodup_cons]
      refine ⟨fun hmem => ?_, ih⟩
      obtain ⟨m, hm, hid⟩ := List.mem_map.mp hmem
      obtain ⟨-, k, hk, hk'⟩ := exists_of_mem_numberedDown hm
      have hnumber := eq_of_idOf_eq (hk' ▸ hid)
      omega

/-! ## Rows put in -/

section InsertLine

variable {α : Type} {x : α} {xs : List α} {i n : Nat}

theorem length_insertLine (i : Nat) (x : α) (xs : List α) :
    (insertLine i x xs).length = xs.length + 1 := by
  rw [insertLine, List.length_append, List.length_cons, ← Nat.add_assoc, ← List.length_append,
    List.take_append_drop]

theorem mem_insertLine {y : α} : y ∈ insertLine i x xs ↔ y = x ∨ y ∈ xs := by
  rw [insertLine, List.mem_append, List.mem_cons, or_left_comm, ← List.mem_append,
    List.take_append_drop]

theorem map_insertLine {β : Type} (f : α → β) (i : Nat) (x : α) (xs : List α) :
    (insertLine i x xs).map f = insertLine i (f x) (xs.map f) := by
  rw [insertLine, insertLine, List.map_append, List.map_cons, List.map_take, List.map_drop]

theorem insertLine_succ_cons (i : Nat) (x y : α) (xs : List α) :
    insertLine (i + 1) x (y :: xs) = y :: insertLine i x xs := rfl

theorem insertLine_append_left (hi : i ≤ xs.length) (ys : List α) :
    insertLine i x (xs ++ ys) = insertLine i x xs ++ ys := by
  rw [insertLine, insertLine, List.take_append_of_le_length hi, List.drop_append_of_le_length hi,
    List.append_assoc, List.cons_append]

theorem insertLine_append_right (i : Nat) (x : α) (xs ys : List α) :
    insertLine (xs.length + i) x (xs ++ ys) = xs ++ insertLine i x ys := by
  rw [insertLine, insertLine, List.take_length_add_append, List.drop_length_add_append,
    List.append_assoc]

theorem take_insertLine (hn : n ≤ i) (hi : i ≤ xs.length) :
    (insertLine i x xs).take n = xs.take n := by
  have hlen : n ≤ (xs.take i).length := by rw [List.length_take]; omega
  rw [insertLine, List.take_append_of_le_length hlen, List.take_take, Nat.min_eq_left hn]

theorem drop_insertLine (hn : n ≤ i) (hi : i ≤ xs.length) :
    (insertLine i x xs).drop n = insertLine (i - n) x (xs.drop n) := by
  have hlen : n ≤ (xs.take i).length := by rw [List.length_take]; omega
  rw [insertLine, insertLine, List.drop_append_of_le_length hlen, List.drop_take, List.drop_drop,
    Nat.add_sub_cancel' hn]

theorem drop_insertLine_of_lt (hn : i < n) (hi : i ≤ xs.length) :
    (insertLine i x xs).drop n = xs.drop (n - 1) := by
  have hlen : (xs.take i).length = i := by rw [List.length_take]; omega
  have hback : n - i = n - 1 - i + 1 := by omega
  rw [insertLine, List.drop_append, List.drop_eq_nil_of_le (by omega), List.nil_append, hlen, hback,
    List.drop_succ_cons, List.drop_drop]
  congr 1
  omega

end InsertLine

/-! ## The marked file -/

/-- The rows of a file with its marks, which are listed from the top down. -/
def sheet (lines : List Text) : List (Block × Text) → List Row
  | [] => lines.map .line
  | m :: ms =>
    insertLine (m.1.span.start - 1) (.opening m.2)
      (insertLine m.1.span.stop (.closing m.2) (sheet lines ms))

theorem map_text_sheet (lines : List Text) (ms : List (Block × Text)) :
    (sheet lines ms).map Row.text = ms.foldr (fun m rows => markBlock rows m) lines := by
  induction ms with
  | nil =>
      rw [sheet, List.map_map, List.foldr_nil]
      exact List.map_id lines
  | cons m ms ih => rw [sheet, map_insertLine, map_insertLine, ih, List.foldr_cons]; rfl

def marksDown (text : Text) (blocks : List Block) : List (Block × Text) :=
  numberedDown (topDown (fileLines text).length blocks)

theorem reverse_marks (text : Text) (blocks : List Block) :
    (marks text blocks).reverse = marksDown text blocks := by
  rw [marks, marksDown, ← numbered_reverse, topDown, List.reverse_reverse]

theorem mark_eq_sheet {text : Text} (htext : text ≠ []) (blocks : List Block) :
    mark text blocks =
      ofFileLines ((sheet (fileLines text) (marksDown text blocks)).map Row.text) := by
  rw [map_text_sheet, ← reverse_marks, List.foldr_reverse, mark]
  cases blocks with
  | nil =>
      have hnone : marks text [] = [] := by
        simp [marks, numbered, bottomUp, markable, uncovered, flagged, firstOfSpan]
      rw [List.isEmpty_nil, Bool.or_true, if_pos rfl, hnone, List.foldl_nil,
        ofFileLines_fileLines]
  | cons b bs =>
      have hempty : text.isEmpty = false := by
        rw [List.isEmpty_eq_false_iff]
        exact htext
      rw [hempty, List.isEmpty_cons, Bool.or_false]
      rfl

theorem length_sheet (lines : List Text) (ms : List (Block × Text)) :
    lines.length ≤ (sheet lines ms).length := by
  induction ms with
  | nil => rw [sheet, List.length_map]
  | cons m ms ih => rw [sheet, length_insertLine, length_insertLine]; omega

theorem sheet_ne_nil {lines : List Text} (h : lines ≠ []) (ms : List (Block × Text)) :
    sheet lines ms ≠ [] := by
  have hlen := length_sheet lines ms
  have hpos := List.length_pos_iff.mpr h
  rw [← List.length_pos_iff]
  omega

theorem mem_sheet {lines : List Text} {ms : List (Block × Text)} {r : Row}
    (h : r ∈ sheet lines ms) :
    (∃ l ∈ lines, r = .line l) ∨ ∃ id ∈ ms.map Prod.snd, r = .opening id ∨ r = .closing id := by
  induction ms with
  | nil =>
      obtain ⟨l, hl, rfl⟩ := List.mem_map.mp h
      exact .inl ⟨l, hl, rfl⟩
  | cons m ms ih =>
      rw [sheet, mem_insertLine, mem_insertLine] at h
      rcases h with rfl | rfl | h
      · exact .inr ⟨m.2, List.mem_cons_self, .inl rfl⟩
      · exact .inr ⟨m.2, List.mem_cons_self, .inr rfl⟩
      · rcases ih h with hline | ⟨id, hid, hr⟩
        · exact .inl hline
        · exact .inr ⟨id, List.mem_cons_of_mem _ hid, hr⟩

theorem opening_notMem_sheet {lines : List Text} {ms : List (Block × Text)} {id : Text}
    (h : id ∉ ms.map Prod.snd) : Row.opening id ∉ sheet lines ms := by
  intro hmem
  rcases mem_sheet hmem with ⟨_, _, hrow⟩ | ⟨id', hid', hrow | hrow⟩
  · exact Row.noConfusion hrow
  · exact h (Row.opening.inj hrow ▸ hid')
  · exact Row.noConfusion hrow

theorem closing_notMem_sheet {lines : List Text} {ms : List (Block × Text)} {id : Text}
    (h : id ∉ ms.map Prod.snd) : Row.closing id ∉ sheet lines ms := by
  intro hmem
  rcases mem_sheet hmem with ⟨_, _, hrow⟩ | ⟨id', hid', hrow | hrow⟩
  · exact Row.noConfusion hrow
  · exact Row.noConfusion hrow
  · exact h (Row.closing.inj hrow ▸ hid')

section Rows

variable {lines : List Text} {m : Block × Text} {ms : List (Block × Text)} {k : Nat}

/-- Above every mark the sheet has the lines of the file. -/
theorem take_sheet (hstop : ∀ m ∈ ms, m.1.span.stop ≤ lines.length)
    (hk : ∀ m ∈ ms, k < m.1.span.start) :
    (sheet lines ms).take k = (lines.take k).map Row.line := by
  induction ms with
  | nil => rw [sheet, List.map_take]
  | cons m ms ih =>
      rw [List.forall_mem_cons] at hstop hk
      have hlen := length_sheet lines ms
      have hspan := m.1.span.start_le_stop
      rw [sheet, take_insertLine (by omega) (by rw [length_insertLine]; omega),
        take_insertLine (by omega) (by omega)]
      exact ih hstop.2 hk.2

/-- What is left of a sheet behind row `k`, where the first mark is still to
come. -/
theorem drop_sheet_cons (hstop : m.1.span.stop ≤ lines.length) (hk : k < m.1.span.start) :
    (sheet lines (m :: ms)).drop k =
      ((sheet lines ms).take (m.1.span.start - 1)).drop k ++
        .opening m.2 :: (((sheet lines ms).take m.1.span.stop).drop (m.1.span.start - 1) ++
          .closing m.2 :: (sheet lines ms).drop m.1.span.stop) := by
  have hlen := length_sheet lines ms
  have hspan := m.1.span.start_le_stop
  have htake : ((sheet lines ms).take (m.1.span.start - 1)).length = m.1.span.start - 1 := by
    rw [List.length_take]; omega
  have htake' : ((sheet lines ms).take m.1.span.stop).length = m.1.span.stop := by
    rw [List.length_take]; omega
  rw [sheet, insertLine, take_insertLine (by omega) (by omega),
    List.drop_append_of_le_length (by omega), insertLine,
    List.drop_append_of_le_length (by omega)]

/-- What is left behind a row within the first mark: its end sentinel is put in
among the rows of the others. -/
theorem drop_sheet_cons_of_lt (hstop : m.1.span.stop ≤ lines.length)
    (hk : m.1.span.start ≤ k) (hk' : k ≤ m.1.span.stop) :
    (sheet lines (m :: ms)).drop k =
      insertLine (m.1.span.stop - (k - 1)) (.closing m.2) ((sheet lines ms).drop (k - 1)) := by
  have hlen := length_sheet lines ms
  have hpos := m.1.span.start_pos
  rw [sheet, drop_insertLine_of_lt (by omega) (by rw [length_insertLine]; omega),
    drop_insertLine (by omega) (by omega)]

end Rows

/-! ## The marks of a text -/

section Text

variable {text : Text} {blocks : List Block}

theorem mem_markable_of_mem_marksDown {m : Block × Text} (h : m ∈ marksDown text blocks) :
    m.1 ∈ markable (fileLines text).length blocks :=
  (topDown_perm _ blocks).mem_iff.mp (exists_of_mem_numberedDown h).1

theorem stop_le_of_mem_marksDown {m : Block × Text} (h : m ∈ marksDown text blocks) :
    m.1.span.stop ≤ (fileLines text).length :=
  stop_le_of_mem_markable (mem_markable_of_mem_marksDown h)

/-- Text without sentinels and names that fit into one give clean rows. -/
theorem clean_of_mem_sheet (hstart : ¬ startLead <:+: text) (hend : ¬ endLead <:+: text)
    (hnames : ∀ b ∈ markable (fileLines text).length blocks, ∀ name ∈ b.name, Plain name)
    {r : Row} (h : r ∈ sheet (fileLines text) (marksDown text blocks)) : r.Clean := by
  rcases mem_sheet h with ⟨l, hl, rfl⟩ | ⟨id, hid, hr⟩
  · refine ⟨notMem_of_mem_fileLines hl, ?_, ?_⟩
    · exact fun hin => hstart ((infix_fileLines newline_notMem_startLead).mpr ⟨l, hl, hin⟩)
    · exact fun hin => hend ((infix_fileLines newline_notMem_endLead).mpr ⟨l, hl, hin⟩)
  · obtain ⟨m, hm, rfl⟩ := List.mem_map.mp hid
    obtain ⟨-, k, -, hk⟩ := exists_of_mem_numberedDown hm
    have hclean : m.2 ≠ [] ∧ Plain m.2 := by
      rw [hk]
      exact ⟨idOf_ne_nil m.1 k, idOf_plain (hnames m.1 (mem_markable_of_mem_marksDown hm)) k⟩
    rcases hr with rfl | rfl
    · exact hclean
    · exact hclean

/-- A reading of the sheet of a text tells what becomes of the marked text. -/
theorem replaceMarked_mark (map : Data.Pairs Text Text) (htext : text ≠ [])
    (hstart : occurs startLead text = false) (hend : occurs endLead text = false)
    (hnames : ∀ b ∈ markable (fileLines text).length blocks, ∀ name ∈ b.name, Plain name)
    {ps : List Piece} (h : Parses (sheet (fileLines text) (marksDown text blocks)) ps) :
    replaceMarked map (mark text blocks) = ofFileLines (written map [] ps) := by
  rw [occurs_eq_false_iff] at hstart hend
  rw [mark_eq_sheet htext]
  exact replaceMarked_of_parses map h (fun _ hr => clean_of_mem_sheet hstart hend hnames hr)
    (sheet_ne_nil (fileLines_ne_nil text) _)

end Text

end Marker
end Refit

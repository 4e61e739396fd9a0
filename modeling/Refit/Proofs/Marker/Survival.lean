/-
What survives of a file that is marked and resolved without any implementation.

Every pair becomes a notice of removal.  The rest of the file is left: its lines
outside the marked blocks, and where blocks overlap possibly more.  The file is
cleared exactly if its marked spans settle.
-/
import Refit.Proofs.Marker.Overlap

namespace Refit
namespace Marker

open Text

/-! ## The lines of a resolved file -/

/-- Two lists of lines put together, each in its order. -/
inductive Merged : List Text → List Text → List Text → Prop
  | nil : Merged [] [] []
  | left {xs ys zs : List Text} (x : Text) (rest : Merged xs ys zs) : Merged (x :: xs) ys (x :: zs)
  | right {xs ys zs : List Text} (y : Text) (rest : Merged xs ys zs) : Merged xs (y :: ys) (y :: zs)

theorem Merged.length_eq {xs ys zs : List Text} (h : Merged xs ys zs) :
    zs.length = xs.length + ys.length := by
  induction h with
  | nil => rfl
  | left x _ ih =>
      rw [List.length_cons, List.length_cons, ih]
      omega
  | right y _ ih =>
      rw [List.length_cons, List.length_cons, ih]
      omega

theorem Merged.append_right {xs ys zs : List Text} (h : Merged xs ys zs) (ns : List Text) :
    Merged xs (ns ++ ys) (ns ++ zs) := by
  induction ns with
  | nil => exact h
  | cons n ns ih => exact .right n ih

def Piece.Clean : Piece → Prop
  | .line l => (Row.line l).Clean
  | .stray id => (Row.closing id).Clean
  | .pair id _ => (Row.opening id).Clean

theorem Parses.clean {es : List Row} {ps : List Piece} (h : Parses es ps)
    (hes : ∀ e ∈ es, e.Clean) : ∀ p ∈ ps, p.Clean := by
  induction h with
  | nil => exact fun p hp => absurd hp List.not_mem_nil
  | line l _ ih =>
      rw [List.forall_mem_cons] at hes ⊢
      exact ⟨hes.1, ih hes.2⟩
  | stray id _ ih =>
      rw [List.forall_mem_cons] at hes ⊢
      exact ⟨hes.1, ih hes.2⟩
  | pair _ _ ih =>
      rw [List.forall_mem_cons, List.forall_mem_append, List.forall_mem_cons] at hes
      rw [List.forall_mem_cons]
      exact ⟨hes.1, ih hes.2.2.2⟩

section Written

variable (map : Data.Pairs Text Text)

theorem replacements_cons_pair (used : List Text) (id : Text) (inside : List Row)
    (ps : List Piece) :
    replacements map used ((Piece.pair id inside :: ps).flatMap Piece.tokens) =
      replacement map used (enclosing id inside) ::
        replacements map (placing map used (enclosing id inside)) (ps.flatMap Piece.tokens) := rfl

theorem replacements_cons_line (used : List Text) (l : Text) (ps : List Piece) :
    replacements map used ((Piece.line l :: ps).flatMap Piece.tokens) =
      replacements map used (ps.flatMap Piece.tokens) := by
  rw [List.flatMap_cons, Piece.tokens, replacements_map_char]

theorem replacements_cons_stray (used : List Text) (id : Text) (ps : List Piece) :
    replacements map used ((Piece.stray id :: ps).flatMap Piece.tokens) =
      replacements map used (ps.flatMap Piece.tokens) := by
  rw [List.flatMap_cons, Piece.tokens, replacements_map_char]

/-- Without strays the resolved file is its kept lines and the texts of its
pairs. -/
theorem merged_written {used : List Text} {ps : List Piece} (hps : ∀ p ∈ ps, p.Clean)
    (hstrays : strays ps = []) :
    Merged (kept ps) ((replacements map used (ps.flatMap Piece.tokens)).flatMap fileLines)
      ((written map used ps).flatMap fileLines) := by
  induction ps generalizing used with
  | nil => exact .nil
  | cons p ps ih =>
      rw [List.forall_mem_cons] at hps
      cases p with
      | line l =>
          rw [replacements_cons_line, written, List.flatMap_cons, fileLines_of_notMem hps.1.1]
          exact .left l (ih hps.2 hstrays)
      | stray id => exact absurd hstrays (List.cons_ne_nil _ _)
      | pair id inside =>
          rw [replacements_cons_pair, written, List.flatMap_cons, List.flatMap_cons]
          exact (ih hps.2 hstrays).append_right _

theorem length_written {used : List Text} {ps : List Piece} (hps : ∀ p ∈ ps, p.Clean) :
    ((written map used ps).flatMap fileLines).length =
      (kept ps).length + (strays ps).length +
        ((replacements map used (ps.flatMap Piece.tokens)).flatMap fileLines).length := by
  induction ps generalizing used with
  | nil => rfl
  | cons p ps ih =>
      rw [List.forall_mem_cons] at hps
      cases p with
      | line l =>
          rw [replacements_cons_line, written, List.flatMap_cons, fileLines_of_notMem hps.1.1,
            List.length_append, ih hps.2]
          simp only [kept, strays, List.filterMap_cons, List.length_cons, List.length_nil]
          omega
      | stray id =>
          rw [replacements_cons_stray, written, List.flatMap_cons,
            fileLines_of_notMem (newline_notMem_endFlagged hps.1.2), List.length_append, ih hps.2]
          simp only [kept, strays, List.filterMap_cons, List.length_cons, List.length_nil]
          omega
      | pair id inside =>
          rw [replacements_cons_pair, written, List.flatMap_cons, List.flatMap_cons,
            List.length_append, List.length_append, ih hps.2]
          simp only [kept, strays, List.filterMap_cons]
          omega

end Written

/-! ## Notices -/

def noticeName : Text := "removed-method: "

def noticeFrom : Text := " from marker "

def noticeReason : Text := "// Original method was removed as "

theorem notice_append {first lead last second : Text} (hfirst : first = angled lead)
    (hlast : last = '>' :: '\n' :: second) (name middle id reason : Text) :
    first ++ name ++ middle ++ id ++ last ++ reason =
      angled (lead ++ (name ++ (middle ++ (id ++ ['>'])))) ++ '\n' :: (second ++ reason) := by
  subst hfirst hlast
  rw [← angled_append]
  simp only [List.append_assoc, List.cons_append, List.nil_append]

/-- A notice is two lines, of which only the first has an angle bracket. -/
theorem removalNotice_eq (name id reason : Text) :
    removalNotice name id reason =
      angled (noticeName ++ (name ++ (noticeFrom ++ (id ++ ['>'])))) ++
        '\n' :: (noticeReason ++ reason) := by
  have hfirst : "// <removed-method: ".toList = angled noticeName := by decide
  have hlast : ">\n// Original method was removed as ".toList = '>' :: '\n' :: noticeReason := by
    decide
  unfold removalNotice
  exact notice_append hfirst hlast name noticeFrom id reason

/-- The lead of a sentinel does not occur in a notice. -/
theorem angled_not_infix_removalNotice {c : Char} {t name id reason : Text} (hc : c ≠ 'r')
    (ht : '\n' ∉ angled (c :: t)) (hname : Plain name) (hid : Plain id) (hreason : '<' ∉ reason) :
    ¬ angled (c :: t) <:+: removalNotice name id reason := by
  have hlead : '<' ∉ noticeName := by decide
  rw [removalNotice_eq, infix_append_break ht, not_or]
  constructor
  · intro h
    have hfrom : '<' ∉ noticeFrom ++ (id ++ ['>']) := less_notMem_append (by decide) hid
    have hless := List.not_mem_append hlead (List.not_mem_append hname.less hfrom)
    exact not_prefix_of_head hc (prefix_of_angled_within hless h)
  · intro h
    have hmem : '<' ∈ angled (c :: t) := List.mem_append_right _ List.mem_cons_self
    exact List.not_mem_append (by decide) hreason (h.subset hmem)

theorem replacement_nil (p : Pair) :
    replacement [] [] p =
      removalNotice (pairName p) p.id "no matching refactored implementation was found" := rfl

theorem placing_nil (p : Pair) : placing [] [] p = [] := rfl

theorem leads_not_infix_written {ps : List Piece} (hps : ∀ p ∈ ps, p.Clean)
    (hstrays : strays ps = []) :
    ∀ t ∈ written [] [] ps, ¬ startLead <:+: t ∧ ¬ endLead <:+: t := by
  induction ps with
  | nil => exact fun t ht => absurd ht List.not_mem_nil
  | cons p ps ih =>
      rw [List.forall_mem_cons] at hps
      cases p with
      | line l =>
          rw [written, List.forall_mem_cons]
          exact ⟨hps.1.2, ih hps.2 hstrays⟩
      | stray id => exact absurd hstrays (List.cons_ne_nil _ _)
      | pair id inside =>
          have hname : Plain (pairName (enclosing id inside)) := pairName_plain hps.1.2
          rw [written, List.forall_mem_cons, placing_nil, replacement_nil, startLead_eq, endLead_eq]
          refine ⟨⟨?_, ?_⟩, startLead_eq ▸ endLead_eq ▸ ih hps.2 hstrays⟩
          · exact angled_not_infix_removalNotice (by decide) (by decide) hname hps.1.2 (by decide)
          · exact angled_not_infix_removalNotice (by decide) (by decide) hname hps.1.2 (by decide)

/-! ## Lines outside the marked blocks -/

def outsideLine (marked : List Block) (e : Text × Nat) : List Text :=
  if marked.any fun b => b.span.containsLine e.2 then [] else [e.1]

/-- The lines of a file that lie in no marked block. -/
def outside (lines : List Text) (marked : List Block) : List Text :=
  (lines.zipIdx 1).flatMap (outsideLine marked)

theorem outsideLine_outside {marked : List Block} {n : Nat}
    (h : ∀ b ∈ marked, n < b.span.start ∨ b.span.stop < n) (l : Text) :
    outsideLine marked (l, n) = [l] := by
  refine if_neg fun hany => ?_
  obtain ⟨b, hb, hline⟩ := List.any_eq_true.mp hany
  have := h b hb
  rw [containsLine_iff] at hline
  omega

theorem outsideLine_inside {marked : List Block} {b : Block} (hb : b ∈ marked) {n : Nat}
    (hn : b.span.start ≤ n ∧ n ≤ b.span.stop) (l : Text) : outsideLine marked (l, n) = [] :=
  if_pos (List.any_eq_true.mpr ⟨b, hb, containsLine_iff.mpr hn⟩)

theorem flatMap_outsideLine {lines : List Text} {marked above bs : List Block} {k : Nat}
    (hperm : (above ++ bs).Perm marked) (hbs : bs.Pairwise Above)
    (hstop : ∀ b ∈ bs, b.span.stop ≤ lines.length) (habove : ∀ b ∈ above, b.span.stop ≤ k)
    (hk : ∀ b ∈ bs, k < b.span.stop) :
    ((lines.drop k).zipIdx (k + 1)).flatMap (outsideLine marked) =
      outsideFrom lines k (bs.map Block.span) := by
  have hkeep : ∀ n l, (∀ c ∈ marked, n < c.span.start ∨ c.span.stop < n) →
      outsideLine marked (l, n) = [l] := fun _ l h => outsideLine_outside h l
  induction bs generalizing above k with
  | nil =>
      rw [List.append_nil] at hperm
      exact flatMap_behind hkeep hperm habove lines
  | cons b bs ih =>
      rw [List.pairwise_cons] at hbs
      rw [List.forall_mem_cons] at hstop hk
      have hb : b ∈ marked := hperm.mem_iff.mp (List.mem_append_right _ List.mem_cons_self)
      have hspan := b.span.start_le_stop
      have hpos := b.span.start_pos
      have hrest := @ih (above ++ [b]) b.span.stop (List.append_cons above b bs ▸ hperm) hbs.2
        hstop.2 (stop_le_of_mem_above habove (by omega)) (fun c hc => (hbs.1 c hc).2)
      have hgap := flatMap_gap hkeep hperm habove (fun c hc => (hbs.1 c hc).1) lines
      -- The block may begin above line `k`, where it overlaps the one before it.
      obtain ⟨low, hlow⟩ : ∃ low, low = max k (b.span.start - 1) := ⟨_, rfl⟩
      have hbefore : (lines.take low).drop k = (lines.take (b.span.start - 1)).drop k := by
        by_cases hlt : k < b.span.start
        · rw [hlow, Nat.max_eq_right (by omega)]
        · rw [List.drop_eq_nil_of_le, List.drop_eq_nil_of_le]
          · rw [List.length_take]
            omega
          · rw [List.length_take]
            omega
      have hinside : (((lines.take b.span.stop).drop low).zipIdx (low + 1)).flatMap
          (outsideLine marked) = [] := by
        refine flatMap_zipIdx_eq_nil fun i l hi hi' => outsideLine_inside hb ⟨by omega, ?_⟩ l
        rw [List.length_drop, List.length_take] at hi'
        omega
      rw [flatMap_zipIdx_drop _ (show k ≤ low by omega) (show low ≤ b.span.stop by omega) hstop.1,
        hbefore, hgap, hinside, hrest]
      rfl

/-! ## What survives -/

def markedBlocks (text : Text) (blocks : List Block) : List Block :=
  if text.isEmpty then [] else markable (fileLines text).length blocks

/-- Nothing flagged is left in `out`: it has no sentinel, and its lines are those of
the file outside the marked blocks, in order, and those of the notices. -/
structure Cleared (text : Text) (marked : List Block) (notices : List Text) (out : Text) :
    Prop where
  no_start : occurs startLead out = false
  no_end : occurs endLead out = false
  lines : Merged (outside (fileLines text) marked) (notices.flatMap fileLines) (fileLines out)

theorem process_nil (t : Text) : process [] t = replaceMarked [] t := by
  cases t with
  | nil => rfl
  | cons c t => rfl

theorem spans_marksDown (text : Text) (blocks : List Block) :
    spans (marksDown text blocks) = (topDown (fileLines text).length blocks).map Block.span := by
  rw [spans, marksDown, ← map_fst_numberedDown (topDown _ blocks), List.map_map,
    map_fst_numberedDown]
  rfl

section Text

variable {text : Text} {blocks : List Block}

theorem outside_eq_outsideFrom (text : Text) (blocks : List Block) :
    outside (fileLines text) (markable (fileLines text).length blocks) =
      outsideFrom (fileLines text) 0 ((topDown (fileLines text).length blocks).map Block.span) :=
  @flatMap_outsideLine (fileLines text) _ [] _ 0 (topDown_perm _ blocks) (pairwise_topDown _ blocks)
    (fun _ hb => stop_le_of_mem_markable ((topDown_perm _ blocks).mem_iff.mp hb))
    (fun _ hb => absurd hb List.not_mem_nil)
    (fun b _ => Nat.lt_of_lt_of_le b.span.start_pos b.span.start_le_stop)

/-- The marked text has a reading, and the reading tells what it is processed to. -/
theorem exists_reading (htext : text ≠ []) (hstart : occurs startLead text = false)
    (hend : occurs endLead text = false)
    (hnames : ∀ b ∈ markable (fileLines text).length blocks, ∀ name ∈ b.name, Plain name) :
    ∃ ps, ps ≠ [] ∧ (∀ p ∈ ps, p.Clean) ∧ Reads (fileLines text) 0 (marksDown text blocks) ps ∧
      process [] (mark text blocks) = ofFileLines (written [] [] ps) ∧
      (resolved [] (mark text blocks)).map Resolved.text =
        replacements [] [] (ps.flatMap Piece.tokens) := by
  obtain ⟨ps, hreads⟩ := @exists_reads (fileLines text) 0 (marksDown text blocks)
    (fun _ hm => stop_le_of_mem_marksDown hm) (pairwise_numberedDown (pairwise_topDown _ blocks))
    (nodup_ids _) (fun m _ => Nat.lt_of_lt_of_le m.1.span.start_pos m.1.span.start_le_stop)
  have hclean : ∀ r ∈ sheet (fileLines text) (marksDown text blocks), r.Clean := fun _ hr =>
    clean_of_mem_sheet (occurs_eq_false_iff.mp hstart) (occurs_eq_false_iff.mp hend) hnames hr
  have hne := sheet_ne_nil (fileLines_ne_nil text) (marksDown text blocks)
  refine ⟨ps, hreads.parses.ne_nil hne, hreads.parses.clean hclean, hreads, ?_, ?_⟩
  · rw [process_nil, replaceMarked_mark [] htext hstart hend hnames hreads.parses]
  · rw [mark_eq_sheet htext]
    exact map_text_resolved_of_parses [] hreads.parses hclean hne

theorem length_outside_eq_iff (text : Text) (blocks : List Block) :
    let lines := fileLines text
    let ss := (topDown lines.length blocks).map Block.span
    List.Sublist (outsideFrom lines 0 ss) (keptFrom lines 0 ss) ∧
      ((outsideFrom lines 0 ss).length = (keptFrom lines 0 ss).length ↔
        settles 0 false ss = true) := by
  intro lines ss
  have hss : ss.Pairwise fun a b => a.stop < b.stop := by
    rw [List.pairwise_map]
    exact (pairwise_topDown _ blocks).imp fun h => h.2
  have hlow : ∀ s ∈ ss, 0 < s.stop := fun s _ =>
    Nat.lt_of_lt_of_le s.start_pos s.start_le_stop
  have hstop : ∀ s ∈ ss, s.stop ≤ lines.length := by
    intro s hs
    obtain ⟨b, hb, rfl⟩ := List.mem_map.mp hs
    exact stop_le_of_mem_markable ((topDown_perm _ blocks).mem_iff.mp hb)
  exact ⟨outsideFrom_sublist_keptFrom hss hlow (Nat.le_refl 0),
    length_outsideFrom_eq_iff hss hlow hstop (Nat.le_refl 0) (Nat.zero_le _)⟩

end Text

/-- Processing a marked file without implementations clears it exactly if the
marked spans settle. -/
theorem process_mark_cleared_iff {text : Text} {blocks : List Block}
    (hstart : occurs startLead text = false) (hend : occurs endLead text = false)
    (hnames : ∀ b ∈ markedBlocks text blocks, ∀ name ∈ b.name, Plain name) :
    Cleared text (markedBlocks text blocks) ((resolved [] (mark text blocks)).map Resolved.text)
        (process [] (mark text blocks)) ↔
      settles 0 false ((bottomUp (markedBlocks text blocks)).reverse.map Block.span) = true := by
  cases htext : text.isEmpty with
  | true =>
      obtain rfl := List.isEmpty_iff.mp htext
      have hbottom : bottomUp (markedBlocks [] blocks) = [] := List.mergeSort_nil
      have hmark : mark [] blocks = [] := rfl
      rw [hbottom, hmark]
      exact iff_of_true ⟨by decide, by decide, .left [] .nil⟩ rfl
  | false =>
      have hmarked : markedBlocks text blocks = markable (fileLines text).length blocks := by
        rw [markedBlocks, htext]
        rfl
      rw [hmarked] at hnames ⊢
      obtain ⟨ps, hne, hclean, hreads, hout, hnotices⟩ :=
        exists_reading (List.isEmpty_eq_false_iff.mp htext) hstart hend hnames
      obtain ⟨hsub, hlength⟩ := length_outside_eq_iff text blocks
      have hkept := hreads.kept_eq
      rw [spans_marksDown] at hkept
      have hlines : fileLines (process [] (mark text blocks)) =
          (written [] [] ps).flatMap fileLines := by
        rw [hout, fileLines_ofFileLines (written_ne_nil [] [] hne)]
      rw [← topDown, ← hlength]
      constructor
      · -- What is kept holds the lines outside, so by number there is nothing else.
        rintro ⟨-, -, hmerged⟩
        have htotal := hmerged.length_eq
        rw [hlines, hnotices, length_written [] hclean, hkept, outside_eq_outsideFrom] at htotal
        have hle := hsub.length_le
        omega
      · intro heq
        have hstrays : strays ps = [] := by
          refine hreads.settled ?_
          rw [spans_marksDown]
          exact hlength.mp heq
        have hsame := hsub.eq_of_length heq
        have hfree := leads_not_infix_written hclean hstrays
        have hwritten := written_ne_nil [] [] hne
        refine ⟨?_, ?_, ?_⟩
        · rw [occurs_eq_false_iff, hout, infix_ofFileLines newline_notMem_startLead hwritten]
          rintro ⟨t, ht, hin⟩
          exact (hfree t ht).1 hin
        · rw [occurs_eq_false_iff, hout, infix_ofFileLines newline_notMem_endLead hwritten]
          rintro ⟨t, ht, hin⟩
          exact (hfree t ht).2 hin
        · rw [hlines, hnotices, outside_eq_outsideFrom, hsame, ← hkept]
          exact merged_written [] hclean hstrays

def numberedText : Text := "1\n2\n3\n4\n5\n6\n7\n8\n9"

/-- Three blocks that all hold line 5; the lowest one begins there. -/
def sharedByThree : List Block :=
  [flaggedBehind .lambda none 4 3, flaggedBehind .lambda none 3 2, flaggedBehind .lambda none 0 4]

theorem process_mark_cleared_sharedByThree :
    occurs startLead numberedText = false ∧ occurs endLead numberedText = false ∧
      (∀ b ∈ markedBlocks numberedText sharedByThree, ∀ name ∈ b.name, Plain name) ∧
      Cleared numberedText sharedByThree
        ((resolved [] (mark numberedText sharedByThree)).map Resolved.text)
        (process [] (mark numberedText sharedByThree)) := by
  have hmarked : markedBlocks numberedText sharedByThree = sharedByThree := by decide +kernel
  have hsorted : bottomUp sharedByThree = sharedByThree := List.mergeSort_of_pairwise (by decide)
  have hstart : occurs startLead numberedText = false := by decide
  have hend : occurs endLead numberedText = false := by decide
  have hnames : ∀ b ∈ markedBlocks numberedText sharedByThree, ∀ name ∈ b.name, Plain name := by
    rw [hmarked]
    decide
  have hiff := process_mark_cleared_iff hstart hend hnames
  rw [hmarked, hsorted] at hiff
  exact ⟨hstart, hend, hnames, hiff.mpr (by decide)⟩

/-- Two blocks of which the lower one begins on the last line of the upper one. -/
def sharedByTwo : List Block :=
  [flaggedBehind .lambda none 2 2, flaggedBehind .lambda none 0 2]

theorem not_cleared_sharedByTwo :
    occurs startLead numberedText = false ∧ occurs endLead numberedText = false ∧
      (∀ b ∈ sharedByTwo, b.name = none) ∧
      ¬ Cleared numberedText (markedBlocks numberedText sharedByTwo)
        ((resolved [] (mark numberedText sharedByTwo)).map Resolved.text)
        (process [] (mark numberedText sharedByTwo)) := by
  have hmarkable : markable (fileLines numberedText).length sharedByTwo = sharedByTwo := by
    decide +kernel
  have hsorted : bottomUp sharedByTwo = sharedByTwo := List.mergeSort_of_pairwise (by decide)
  have hleft : occurs endLead (process [] (mark numberedText sharedByTwo)) = true := by
    rw [mark, marks, hmarkable, hsorted]
    decide +kernel
  refine ⟨by decide, by decide, by decide, fun h => ?_⟩
  rw [h.no_end] at hleft
  exact Bool.false_ne_true hleft

end Marker
end Refit

/-
Files that get one response after another.

The first response resolves the markers, and what it leaves has no start sentinel.
No pair is found from then on, so a later response only adds its entries.  An end
sentinel may be left over where marked blocks overlap, and entries are written
into the middle of the text; neither brings a start sentinel about.  The theorem
this file exists for is `later_responses_only_append`.
-/
import Refit.Proofs.Marker.Extras
import Refit.Proofs.Marker.Survival
import Refit.Proofs.Replacement.Entries

namespace Refit
namespace Marker

open Text

/-! ## Texts without a start sentinel -/

def Unmarked (s : Text) : Prop := ¬ startLead <:+: s

theorem unmarked_of_less_notMem {s : Text} (h : '<' ∉ s) : Unmarked s := by
  intro hin
  have hless : '<' ∈ startLead := by decide
  exact h (hin.subset hless)

theorem Unmarked.of_isInfix {s t : Text} (ht : Unmarked t) (h : s <:+: t) : Unmarked s :=
  fun hin => ht (hin.trans h)

/-- A sentinel begins with a stroke. -/
theorem Unmarked.cons {c : Char} {s : Text} (hs : Unmarked s) (hc : c ≠ '/') :
    Unmarked (c :: s) := by
  intro hin
  rcases List.infix_cons_iff.mp hin with hpre | hin
  · have hlead : startLead = '/' :: startLead.tail := by decide
    rw [hlead] at hpre
    exact not_prefix_of_head hc.symm hpre
  · exact hs hin

theorem unmarked_append_afterBreaks {x : Text} {lines : List Text} :
    Unmarked (x ++ afterBreaks lines) ↔ Unmarked x ∧ ∀ l ∈ lines, Unmarked l := by
  unfold Unmarked
  rw [infix_append_afterBreaks newline_notMem_startLead]
  simp only [not_or, not_exists, not_and]

theorem unmarked_ofFileLines {lines : List Text} (h : ∀ l ∈ lines, Unmarked l) :
    Unmarked (ofFileLines lines) := by
  cases lines with
  | nil => exact unmarked_of_less_notMem List.not_mem_nil
  | cons l lines =>
      rw [ofFileLines_cons, unmarked_append_afterBreaks]
      exact List.forall_mem_cons.mp h

/-! ## Nothing to resolve -/

section Unmarked

variable {s : Text}

theorem tokens_of_unmarked (h : Unmarked s) : tokens s = s.map .char := by
  have htokens := tokens_append_afterBreaks h []
  rw [afterBreaks_nil, List.append_nil] at htokens
  rw [htokens]
  exact List.append_nil _

theorem resolved_of_unmarked (map : Data.Pairs Text Text) (h : Unmarked s) :
    resolved map s = [] := by
  have hnone := map_text_resolved map s
  rw [tokens_of_unmarked h, ← List.append_nil (s.map Token.char), replacements_map_char] at hnone
  exact List.map_eq_nil_iff.mp hnone

theorem replaceMarked_of_unmarked (map : Data.Pairs Text Text) (h : Unmarked s) :
    replaceMarked map s = s := by
  rw [replaceMarked, resolved_of_unmarked map h]
  rfl

theorem process_of_unmarked (map : Data.Pairs Text Text) (hne : s ≠ []) (h : Unmarked s) :
    process map s = appendExtras map [] s := by
  rw [process, if_neg fun hempty => hne (List.isEmpty_iff.mp hempty), resolved_of_unmarked map h,
    replaceMarked_of_unmarked map h]
  rfl

end Unmarked

/-! ## Entries that are added -/

/-- Entries that can be written out without bringing a start sentinel about. -/
def Harmless (map : Data.Pairs Text Text) : Prop := ∀ e ∈ map, Plain e.1 ∧ Unmarked e.2

theorem harmless_parse {response : Text} (h : Unmarked response) :
    Harmless (Replacement.parse response) := by
  intro e he
  refine ⟨(Replacement.identifier_of_mem_parse he).plain, fun hin => h ?_⟩
  exact Replacement.infix_of_mem_parse newline_notMem_startLead he hin

def helperLead : Text := "    // Additional helper method generated by LLM: "

/-- The lines that an entry adds: an empty one, the comment and the code. -/
def extraLines (e : Text × Text) : List Text := [[], helperLead ++ e.1, "    " ++ e.2]

theorem extraText_eq (e : Text × Text) : extraText e = afterBreaks (extraLines e) := by
  have hlead : "\n\n    // Additional helper method generated by LLM: ".toList =
      '\n' :: '\n' :: helperLead := by decide
  have hindent : "\n    ".toList = '\n' :: "    ".toList := by decide
  unfold extraText
  rw [hlead, hindent]
  simp only [extraLines, afterBreaks_cons, afterBreaks_nil, List.append_assoc, List.cons_append,
    List.nil_append, List.append_nil]

section Extras

variable {map : Data.Pairs Text Text} {used : List Text} {s : Text}

theorem extrasText_eq (map : Data.Pairs Text Text) (used : List Text) :
    extrasText map used = afterBreaks ((extras map used).flatMap extraLines) := by
  have htext : extraText = fun e => afterBreaks (extraLines e) := funext extraText_eq
  rw [extrasText, htext, afterBreaks, List.flatMap_assoc]
  rfl

/-- The text is parted at one place, and the lines of the entries go between. -/
theorem exists_appendExtras_eq (h : extras map used ≠ []) (s : Text) :
    ∃ before rest, s = before ++ rest ∧ appendExtras map used s =
      before ++ afterBreaks ((extras map used).flatMap extraLines ++ [rest]) := by
  have hlast : ∀ before rest : Text, before ++ extrasText map used ++ "\n" ++ rest =
      before ++ afterBreaks ((extras map used).flatMap extraLines ++ [rest]) := by
    intro before rest
    rw [extrasText_eq, afterBreaks_append, afterBreaks_cons, afterBreaks_nil]
    simp
  rw [appendExtras_eq h]
  cases hcut : cutLast? '\x7d' s with
  | none =>
      refine ⟨s, [], (List.append_nil s).symm, ?_⟩
      rw [← hlast]
      simp
  | some parts => exact ⟨parts.1, parts.2, eq_append_of_cutLast? hcut, hlast _ _⟩

theorem unmarked_extraLines {e : Text × Text} (hname : Plain e.1) (htext : Unmarked e.2) :
    ∀ l ∈ extraLines e, Unmarked l := by
  have hcomment : Unmarked (helperLead ++ e.1) :=
    unmarked_of_less_notMem (List.not_mem_append (by decide) hname.less)
  have hcode : Unmarked ("    " ++ e.2) :=
    (((htext.cons (by decide)).cons (by decide)).cons (by decide)).cons (by decide)
  intro l hl
  simp only [extraLines, List.mem_cons, List.not_mem_nil, or_false] at hl
  rcases hl with rfl | rfl | rfl
  · exact unmarked_of_less_notMem List.not_mem_nil
  · exact hcomment
  · exact hcode

theorem unmarked_appendExtras (hmap : Harmless map) (hs : Unmarked s) :
    Unmarked (appendExtras map used s) := by
  by_cases hnil : extras map used = []
  · rw [appendExtras_of_nil hnil]
    exact hs
  · obtain ⟨before, rest, rfl, happend⟩ := exists_appendExtras_eq hnil s
    rw [happend, unmarked_append_afterBreaks]
    refine ⟨hs.of_isInfix List.infix_append_left, fun l hl => ?_⟩
    rcases List.mem_append.mp hl with hl | hl
    · obtain ⟨e, he, hle⟩ := List.mem_flatMap.mp hl
      have hentry := hmap e (List.mem_of_mem_filter he)
      exact unmarked_extraLines hentry.1 hentry.2 l hle
    · rw [List.mem_singleton.mp hl]
      exact hs.of_isInfix List.infix_append_right

theorem appendExtras_ne_nil (hs : s ≠ []) : appendExtras map used s ≠ [] := by
  by_cases hnil : extras map used = []
  · rw [appendExtras_of_nil hnil]
    exact hs
  · obtain ⟨before, rest, -, happend⟩ := exists_appendExtras_eq hnil s
    rw [happend, afterBreaks_append, afterBreaks_cons]
    simp

end Extras

/-! ## The first response -/

theorem unmarked_startReplaced {id : Text} (hid : Plain id) : Unmarked (startReplaced id) := by
  have hangled : startReplaced id = angled ("start-".toList ++ 'r' :: ("eplaced:".toList ++
      (id ++ ['>']))) := by
    rw [startReplaced_eq, show startReplacedLead = angled ("start-".toList ++
      'r' :: "eplaced:".toList) by decide, angled_append]
    simp only [List.append_assoc, List.cons_append]
  have hless : '<' ∉ "start-".toList ++ 'r' :: ("eplaced:".toList ++ (id ++ ['>'])) := by
    refine List.not_mem_append (by decide) (List.not_mem_cons_of_ne_of_not_mem (by decide) ?_)
    exact less_notMem_append (by decide) hid
  intro hin
  rw [hangled, show startLead = angled ("start-".toList ++ 'f' :: "lagged:".toList) by decide]
    at hin
  have hpre := prefix_of_angled_within hless hin
  rw [List.prefix_append_right_inj] at hpre
  exact not_prefix_of_head (by decide) hpre

theorem unmarked_endReplaced {id : Text} (hid : Plain id) : Unmarked (endReplaced id) := by
  have hangled : endReplaced id = angled ("end-replaced:".toList ++ (id ++ ['>'])) := by
    rw [endReplaced_eq, show endReplacedLead = angled "end-replaced:".toList by decide,
      angled_append]
  intro hin
  rw [hangled, startLead_eq] at hin
  have hpre := prefix_of_angled_within (less_notMem_append (by decide) hid) hin
  exact not_prefix_of_head (by decide) hpre

theorem unmarked_removalNotice {name id reason : Text} (hname : Plain name) (hid : Plain id)
    (hreason : '<' ∉ reason) : Unmarked (removalNotice name id reason) := by
  rw [Unmarked, startLead_eq]
  exact angled_not_infix_removalNotice (by decide) (by decide) hname hid hreason

section Resolving

variable {map : Data.Pairs Text Text}

theorem unmarked_replacement (hmap : Harmless map) (used : List Text) {p : Pair}
    (hid : Plain p.id) : Unmarked (replacement map used p) := by
  have hname := pairName_plain hid
  unfold replacement Resolved.text
  cases hchoice : choose map used (pairName p) with
  | placed body =>
      have hbody : Unmarked body := by
        unfold choose at hchoice
        split at hchoice
        · exact absurd hchoice.symm Resolution.noConfusion
        · split at hchoice
          · next found hget =>
            rw [← Resolution.placed.inj hchoice]
            exact (hmap _ (Data.Pairs.mem_of_get? hget)).2
          · exact absurd hchoice.symm Resolution.noConfusion
      have hlines : startReplaced p.id ++ "\n" ++ body ++ "\n" ++ endReplaced p.id =
          startReplaced p.id ++ afterBreaks [body, endReplaced p.id] := by
        simp [afterBreaks_cons]
      show Unmarked (startReplaced p.id ++ "\n" ++ body ++ "\n" ++ endReplaced p.id)
      rw [hlines, unmarked_append_afterBreaks]
      refine ⟨unmarked_startReplaced hid, List.forall_mem_cons.mpr ⟨hbody, ?_⟩⟩
      intro l hl
      rw [List.mem_singleton.mp hl]
      exact unmarked_endReplaced hid
  | repeated => exact unmarked_removalNotice hname hid (by decide)
  | unmatched => exact unmarked_removalNotice hname hid (by decide)

theorem unmarked_written (hmap : Harmless map) (used : List Text) {ps : List Piece}
    (hps : ∀ p ∈ ps, p.Clean) : ∀ l ∈ written map used ps, Unmarked l := by
  induction ps generalizing used with
  | nil => exact fun l hl => absurd hl List.not_mem_nil
  | cons p ps ih =>
      rw [List.forall_mem_cons] at hps
      cases p with
      | line l =>
          rw [written, List.forall_mem_cons]
          exact ⟨hps.1.2.1, ih used hps.2⟩
      | stray id =>
          rw [written, List.forall_mem_cons]
          exact ⟨startLead_not_infix_endFlagged hps.1.2, ih used hps.2⟩
      | pair id inside =>
          rw [written, List.forall_mem_cons]
          exact ⟨unmarked_replacement hmap used hps.1.2, ih _ hps.2⟩

/-- Whatever overlaps, the marked file has a reading without open pairs, and none of
its pieces is written out with a start sentinel. -/
theorem unmarked_replaceMarked_mark (hmap : Harmless map) {text : Text} {blocks : List Block}
    (htext : text ≠ []) (hstart : occurs startLead text = false)
    (hend : occurs endLead text = false)
    (hnames : ∀ b ∈ markable (fileLines text).length blocks, ∀ name ∈ b.name, Plain name) :
    Unmarked (replaceMarked map (mark text blocks)) := by
  obtain ⟨ps, -, hclean, hreads, -, -⟩ := exists_reading htext hstart hend hnames
  rw [replaceMarked_mark map htext hstart hend hnames hreads.parses]
  exact unmarked_ofFileLines (unmarked_written hmap [] hclean)

end Resolving

theorem removalNotice_ne_nil (name id reason : Text) : removalNotice name id reason ≠ [] := by
  rw [removalNotice_eq]
  exact List.append_ne_nil_of_right_ne_nil _ (List.cons_ne_nil _ _)

theorem replacement_ne_nil (map : Data.Pairs Text Text) (used : List Text) (p : Pair) :
    replacement map used p ≠ [] := by
  unfold replacement Resolved.text
  cases choose map used (pairName p) with
  | placed body =>
      have hend : endReplaced p.id ≠ [] := by
        rw [endReplaced_eq]
        exact List.append_ne_nil_of_left_ne_nil (by decide) _
      exact List.append_ne_nil_of_right_ne_nil _ hend
  | repeated => exact removalNotice_ne_nil _ _ _
  | unmatched => exact removalNotice_ne_nil _ _ _

theorem replaceMarked_ne_nil (map : Data.Pairs Text Text) {s : Text} (h : s ≠ []) :
    replaceMarked map s ≠ [] := by
  obtain ⟨c, s, rfl⟩ := List.exists_cons_of_ne_nil h
  rw [replaceMarked_eq_render, tokens, tokensFrom]
  split
  · rw [render]
    exact List.append_ne_nil_of_left_ne_nil (replacement_ne_nil map [] _) _
  · exact List.cons_ne_nil _ _

theorem ofFileLines_ne_nil {lines : List Text} (h : 2 ≤ lines.length) :
    ofFileLines lines ≠ [] := by
  match lines, h with
  | l :: l' :: lines, _ =>
      rw [ofFileLines_cons, afterBreaks_cons]
      exact List.append_ne_nil_of_right_ne_nil l (List.cons_ne_nil _ _)

theorem mark_ne_nil {text : Text} (htext : text ≠ []) (blocks : List Block) :
    mark text blocks ≠ [] := by
  rw [mark_eq_sheet htext]
  cases hmarks : marksDown text blocks with
  | nil =>
      have hlines : (sheet (fileLines text) []).map Row.text = fileLines text :=
        map_text_sheet (fileLines text) []
      rw [hlines, ofFileLines_fileLines]
      exact htext
  | cons m ms =>
      -- The two sentinels of a mark are rows of their own, so there is a break.
      have hlength : 2 ≤ ((sheet (fileLines text) (m :: ms)).map Row.text).length := by
        rw [List.length_map, sheet, length_insertLine, length_insertLine]
        omega
      exact ofFileLines_ne_nil hlength

/-! ## One response after another -/

/-- The content after some responses, each applied to what the one before it left. -/
def answered (content : Text) (responses : List Text) : Text :=
  responses.foldl (fun content response => process (Replacement.parse response) content) content

theorem answered_append (content : Text) (responses : List Text) (next : Text) :
    answered content (responses ++ [next]) =
      process (Replacement.parse next) (answered content responses) := by
  unfold answered
  rw [List.foldl_append]
  rfl

/-- Content that responses only add to. -/
structure Closed (content : Text) : Prop where
  ne_nil : content ≠ []
  unmarked : Unmarked content

namespace Closed

variable {content : Text}

theorem process_eq (h : Closed content) (map : Data.Pairs Text Text) :
    process map content = appendExtras map [] content :=
  process_of_unmarked map h.ne_nil h.unmarked

theorem process (h : Closed content) {map : Data.Pairs Text Text} (hmap : Harmless map) :
    Closed (process map content) := by
  rw [h.process_eq]
  exact ⟨appendExtras_ne_nil h.ne_nil, unmarked_appendExtras hmap h.unmarked⟩

theorem answered (h : Closed content) {responses : List Text}
    (hresponses : ∀ r ∈ responses, Unmarked r) : Closed (answered content responses) := by
  induction responses generalizing content with
  | nil => exact h
  | cons r responses ih =>
      rw [List.forall_mem_cons] at hresponses
      exact ih (h.process (harmless_parse hresponses.1)) hresponses.2

end Closed

/-- The first response closes the marked file. -/
theorem closed_process_mark {map : Data.Pairs Text Text} (hmap : Harmless map) {text : Text}
    {blocks : List Block} (htext : text ≠ []) (hstart : occurs startLead text = false)
    (hend : occurs endLead text = false)
    (hnames : ∀ b ∈ markable (fileLines text).length blocks, ∀ name ∈ b.name, Plain name) :
    Closed (process map (mark text blocks)) := by
  have hmark := mark_ne_nil htext blocks
  rw [process, if_neg fun hempty => hmark (List.isEmpty_iff.mp hempty)]
  constructor
  · exact appendExtras_ne_nil (replaceMarked_ne_nil map hmark)
  · exact unmarked_appendExtras hmap
      (unmarked_replaceMarked_mark hmap htext hstart hend hnames)

/-- After the first response there is no start sentinel, and every later response
only adds its entries.  The marked blocks may overlap in any way. -/
theorem later_responses_only_append {text : Text} {blocks : List Block} (htext : text ≠ [])
    (hstart : occurs startLead text = false) (hend : occurs endLead text = false)
    (hnames : ∀ b ∈ blocks, ∀ name ∈ b.name, Plain name) {first : Text} {later : List Text}
    (hresponses : ∀ r ∈ first :: later, occurs startLead r = false) :
    let content := answered (mark text blocks) (first :: later)
    occurs startLead content = false ∧
      (∀ next, answered (mark text blocks) (first :: later ++ [next]) =
        appendExtras (Replacement.parse next) [] content) ∧
      process [] content = content := by
  intro content
  have hunmarked : ∀ r ∈ first :: later, Unmarked r := fun r hr =>
    occurs_eq_false_iff.mp (hresponses r hr)
  rw [List.forall_mem_cons] at hunmarked
  have hfirst : Closed (process (Replacement.parse first) (mark text blocks)) :=
    closed_process_mark (harmless_parse hunmarked.1) htext hstart hend fun b hb =>
      hnames b (mem_of_mem_markable hb)
  have hcontent : Closed content := hfirst.answered hunmarked.2
  refine ⟨occurs_eq_false_iff.mpr hcontent.unmarked, fun next => ?_, ?_⟩
  · rw [answered_append, hcontent.process_eq]
  · rw [hcontent.process_eq, appendExtras_of_nil rfl]

def sellResponse : Text := "Here it is:\nint sell() \x7b return 1; \x7d"

def buyResponse : Text := "int buy() \x7b return 2; \x7d"

/-- Two overlapping blocks, whose pairs leave an end sentinel behind. -/
theorem later_responses_only_append_sharedByTwo :
    numberedText ≠ [] ∧ occurs startLead numberedText = false ∧
      occurs endLead numberedText = false ∧
      (∀ b ∈ sharedByTwo, ∀ name ∈ b.name, Plain name) ∧
      (∀ r ∈ [sellResponse], occurs startLead r = false) ∧
      (let content := answered (mark numberedText sharedByTwo) [sellResponse]
       occurs endLead content = true ∧ occurs startLead content = false ∧
         answered (mark numberedText sharedByTwo) [sellResponse, buyResponse] =
           appendExtras (Replacement.parse buyResponse) [] content ∧
         process [] content = content) := by
  have htext : numberedText ≠ [] := by decide
  have hstart : occurs startLead numberedText = false := by decide
  have hend : occurs endLead numberedText = false := by decide
  have hnames : ∀ b ∈ sharedByTwo, ∀ name ∈ b.name, Plain name := by decide
  have hresponses : ∀ r ∈ [sellResponse], occurs startLead r = false := by decide
  have hmarkable : markable (fileLines numberedText).length sharedByTwo = sharedByTwo := by
    decide +kernel
  have hsorted : bottomUp sharedByTwo = sharedByTwo := List.mergeSort_of_pairwise (by decide)
  have hleft : occurs endLead (answered (mark numberedText sharedByTwo) [sellResponse]) = true := by
    rw [mark, marks, hmarkable, hsorted]
    decide +kernel
  obtain ⟨hfree, happend, hsame⟩ :=
    later_responses_only_append htext hstart hend hnames hresponses
  exact ⟨htext, hstart, hend, hnames, hresponses, hleft, hfree, happend buyResponse, hsame⟩

end Marker
end Refit

/-
Marked files as lists of rows: lines of the file, start sentinels and end
sentinels.

`Parses` reads a list of rows the way the search for pairs reads the joined
text: a start sentinel takes everything up to its end sentinel with it, whatever
stands between, and an end sentinel whose start was taken is left as a stray.
`replaceMarked_of_parses` carries such a reading over to the text, so all that
follows about marked files can be said of rows.
-/
import Refit.Proofs.Marker.Tokens

namespace Refit
namespace Marker

open Text

/-- Text that can stand in a sentinel without breaking it. -/
structure Plain (s : Text) : Prop where
  newline : '\n' ∉ s
  less : '<' ∉ s
  greater : '>' ∉ s

instance (s : Text) : Decidable (Plain s) :=
  decidable_of_iff ('\n' ∉ s ∧ '<' ∉ s ∧ '>' ∉ s)
    ⟨fun h => ⟨h.1, h.2.1, h.2.2⟩, fun h => ⟨h.newline, h.less, h.greater⟩⟩

theorem Plain.append {a b : Text} (ha : Plain a) (hb : Plain b) : Plain (a ++ b) := by
  constructor
  · exact fun h => (List.mem_append.mp h).elim ha.newline hb.newline
  · exact fun h => (List.mem_append.mp h).elim ha.less hb.less
  · exact fun h => (List.mem_append.mp h).elim ha.greater hb.greater

/-! ## Sentinel lines

Every sentinel opens its only angle bracket after two strokes and a blank, so one
can only occur in another line at that line's own bracket. -/

def angled (tail : Text) : Text := "// ".toList ++ '<' :: tail

theorem prefix_of_angled_within {s t : Text} (ht : '<' ∉ t) (h : angled s <:+: angled t) :
    s <+: t := by
  obtain ⟨a, b, hab⟩ := h
  have hsplit : "// ".toList ++ '<' :: t = (a ++ "// ".toList) ++ '<' :: (s ++ b) := by
    rw [angled, angled] at hab
    rw [← hab]
    simp only [List.append_assoc, List.cons_append]
  have hparts := (List.append_cons_inj_of_notMem (by decide) ht).mp hsplit
  exact ⟨b, hparts.2.2.symm⟩

theorem startLead_eq : startLead = angled "start-flagged:".toList := by decide

theorem endLead_eq : endLead = angled "end-flagged:".toList := by decide

theorem angled_append (s t : Text) : angled s ++ t = angled (s ++ t) := by
  rw [angled, angled, List.append_assoc, List.cons_append]

theorem startFlagged_angled (id : Text) :
    startFlagged id = angled ("start-flagged:".toList ++ (id ++ ['>'])) := by
  rw [startFlagged_eq, startLead_eq, angled_append]

theorem endFlagged_angled (id : Text) :
    endFlagged id = angled ("end-flagged:".toList ++ (id ++ ['>'])) := by
  rw [endFlagged_eq, endLead_eq, angled_append]

theorem less_notMem_append {s id : Text} (hs : '<' ∉ s) (hid : Plain id) :
    '<' ∉ s ++ (id ++ ['>']) := by
  rw [List.mem_append, List.mem_append, not_or, not_or]
  exact ⟨hs, hid.less, by decide⟩

theorem not_prefix_of_head {c d : Char} {s t : Text} (h : c ≠ d) : ¬ c :: s <+: d :: t := by
  rw [List.cons_prefix_cons]
  exact fun hp => h hp.1

theorem startLead_not_infix_endFlagged {id : Text} (hid : Plain id) :
    ¬ startLead <:+: endFlagged id := by
  rw [startLead_eq, endFlagged_angled]
  intro h
  have hpre := prefix_of_angled_within (less_notMem_append (by decide) hid) h
  exact not_prefix_of_head (by decide) hpre

theorem endFlagged_not_infix_startFlagged {id id' : Text} (hid' : Plain id') :
    ¬ endFlagged id <:+: startFlagged id' := by
  rw [endFlagged_angled, startFlagged_angled]
  intro h
  have hpre := prefix_of_angled_within (less_notMem_append (by decide) hid') h
  exact not_prefix_of_head (by decide) hpre

/-- An end sentinel occurs in another only if their ids are the same. -/
theorem eq_of_endFlagged_within {id id' : Text} (hid' : Plain id')
    (h : endFlagged id <:+: endFlagged id') : id = id' := by
  rw [endFlagged_angled, endFlagged_angled] at h
  have hpre := prefix_of_angled_within (less_notMem_append (by decide) hid') h
  rw [List.prefix_append_right_inj] at hpre
  obtain ⟨rest, hrest⟩ := hpre
  have hsplit : id' ++ '>' :: [] = id ++ '>' :: rest := by
    rw [← hrest, List.append_assoc, List.singleton_append]
  exact ((List.append_cons_inj_of_notMem hid'.greater List.not_mem_nil).mp hsplit).1.symm

theorem newline_notMem_endFlagged {id : Text} (hid : Plain id) : '\n' ∉ endFlagged id := by
  rw [endFlagged_eq, List.mem_append, List.mem_append, not_or, not_or]
  exact ⟨newline_notMem_endLead, hid.newline, by decide⟩

/-! ## Entries -/

inductive Row where
  | line (l : Text)
  | opening (id : Text)
  | closing (id : Text)
  deriving Repr, DecidableEq

namespace Row

def text : Row → Text
  | .line l => l
  | .opening id => startFlagged id
  | .closing id => endFlagged id

/-- Lines without the leads of sentinels, and sentinels that can be told from
them and from each other. -/
def Clean : Row → Prop
  | .line l => '\n' ∉ l ∧ ¬ startLead <:+: l ∧ ¬ endLead <:+: l
  | .opening id | .closing id => id ≠ [] ∧ Plain id

theorem endFlagged_not_infix {e : Row} (he : e.Clean) {id : Text} (h : e ≠ .closing id) :
    ¬ endFlagged id <:+: e.text := by
  cases e with
  | line l =>
      intro hin
      refine he.2.2 (List.IsInfix.trans ?_ hin)
      rw [endFlagged_eq]
      exact List.infix_append_left
  | opening id' => exact endFlagged_not_infix_startFlagged he.2
  | closing id' => exact fun hin => h (congrArg _ (eq_of_endFlagged_within he.2 hin).symm)

end Row

/-! ## Readings -/

inductive Piece where
  | line (l : Text)
  | stray (id : Text)
  | pair (id : Text) (inside : List Row)
  deriving Repr, DecidableEq

/-- The readings of a list of rows in which every start sentinel that is come
to has its end sentinel. -/
inductive Parses : List Row → List Piece → Prop
  | nil : Parses [] []
  | line {es : List Row} {ps : List Piece} (l : Text) (rest : Parses es ps) :
      Parses (.line l :: es) (.line l :: ps)
  | stray {es : List Row} {ps : List Piece} (id : Text) (rest : Parses es ps) :
      Parses (.closing id :: es) (.stray id :: ps)
  | pair {inside es : List Row} {ps : List Piece} {id : Text}
      (first : Row.closing id ∉ inside) (rest : Parses es ps) :
      Parses (.opening id :: (inside ++ .closing id :: es)) (.pair id inside :: ps)

theorem parses_lines (ls : List Text) {es : List Row} {ps : List Piece} (h : Parses es ps) :
    Parses (ls.map Row.line ++ es) (ls.map Piece.line ++ ps) := by
  induction ls with
  | nil => exact h
  | cons l ls ih => exact .line l ih

def enclosing (id : Text) (inside : List Row) : Pair :=
  ⟨id, afterBreaks (inside.map Row.text) ++ ['\n']⟩

def Piece.tokens : Piece → List Token
  | .line l => ('\n' :: l).map .char
  | .stray id => ('\n' :: endFlagged id).map .char
  | .pair id inside => [.char '\n', .pair (enclosing id inside)]

theorem startLead_not_infix_cons {l : Text} (h : ¬ startLead <:+: l) :
    ¬ startLead <:+: '\n' :: l := by
  rw [List.infix_cons_iff, not_or]
  refine ⟨fun hpre => ?_, h⟩
  exact absurd (eq_nil_of_prefix_break newline_notMem_startLead hpre) (by decide)

theorem tokens_cons_break (s : Text) : tokens ('\n' :: s) = .char '\n' :: tokens s := by
  have hpre : ¬ startLead <+: '\n' :: s := fun h =>
    absurd (eq_nil_of_prefix_break newline_notMem_startLead h) (by decide)
  rw [tokens, tokensFrom, pair_of_not_prefix hpre]
  rfl

theorem pair_enclosing {id : Text} {inside : List Row} (hid : id ≠ [] ∧ Plain id)
    (hinside : ∀ e ∈ inside, e.Clean) (first : Row.closing id ∉ inside)
    (before : Option Char) (lines : List Text) :
    pair before (startFlagged id ++
        afterBreaks (inside.map Row.text ++ endFlagged id :: lines)) =
      some ((enclosing id inside).text.length, enclosing id inside) := by
  have hne := endFlagged_ne_nil id
  have hfree : ∀ l ∈ inside.map Row.text, ¬ endFlagged id <:+: l := by
    intro l hl
    obtain ⟨e, he, rfl⟩ := List.mem_map.mp hl
    exact Row.endFlagged_not_infix (hinside e he) fun h => first (h ▸ he)
  have hcut := cut?_afterBreaks (newline_notMem_endFlagged hid.2) hne hfree lines
  rw [pair_startFlagged hid.1 hid.2.greater, hcut]
  simp only [Option.map_some, enclosing, Pair.text, afterBreaks_append, afterBreaks_cons,
    List.length_append, List.length_cons, List.length_nil]
  congr 2
  omega

/-- Reading the joined text of some rows gives the tokens of their pieces. -/
theorem tokens_of_parses {es : List Row} {ps : List Piece} (h : Parses es ps)
    (hes : ∀ e ∈ es, e.Clean) :
    tokens (afterBreaks (es.map Row.text)) = ps.flatMap Piece.tokens := by
  induction h with
  | nil => rfl
  | line l _ ih =>
      rw [List.forall_mem_cons] at hes
      rw [List.map_cons, Row.text, afterBreaks_cons, ← List.cons_append,
        tokens_append_afterBreaks (startLead_not_infix_cons hes.1.2.1), ih hes.2]
      rfl
  | stray id _ ih =>
      rw [List.forall_mem_cons] at hes
      rw [List.map_cons, Row.text, afterBreaks_cons, ← List.cons_append, tokens_append_afterBreaks
        (startLead_not_infix_cons (startLead_not_infix_endFlagged hes.1.2)), ih hes.2]
      rfl
  | @pair inside es ps id first _ ih =>
      rw [List.forall_mem_cons, List.forall_mem_append, List.forall_mem_cons] at hes
      obtain ⟨hid, hinside, _, hes⟩ := hes
      have hpair := pair_enclosing hid hinside first none (es.map Row.text)
      have htext : startFlagged id ++ afterBreaks
            (inside.map Row.text ++ endFlagged id :: es.map Row.text) =
          (enclosing id inside).text ++ afterBreaks (es.map Row.text) := by
        simp only [enclosing, Pair.text, afterBreaks_append, afterBreaks_cons,
          List.append_assoc, List.cons_append, List.nil_append]
      rw [htext] at hpair
      have hne : (enclosing id inside).text ≠ [] :=
        List.length_pos_iff.mp (pair_length_pos _)
      rw [List.map_cons, List.map_append, List.map_cons, afterBreaks_cons, tokens_cons_break]
      simp only [Row.text]
      rw [htext, tokens_append_of_pair hne hpair, ih hes]
      rfl

/-! ## Written out -/

/-- The pieces as lines of the resolved file.  What takes the place of a pair
may be several lines. -/
def written (map : Data.Pairs Text Text) : List Text → List Piece → List Text
  | _, [] => []
  | used, .line l :: ps => l :: written map used ps
  | used, .stray id :: ps => endFlagged id :: written map used ps
  | used, .pair id inside :: ps =>
    replacement map used (enclosing id inside) ::
      written map (placing map used (enclosing id inside)) ps

theorem render_tokens_pieces (map : Data.Pairs Text Text) (used : List Text)
    (ps : List Piece) :
    render map used (ps.flatMap Piece.tokens) = afterBreaks (written map used ps) := by
  induction ps generalizing used with
  | nil => rfl
  | cons p ps ih =>
      rw [List.flatMap_cons]
      cases p with
      | line l => rw [Piece.tokens, render_map_char, ih, written, afterBreaks_cons]; rfl
      | stray id => rw [Piece.tokens, render_map_char, ih, written, afterBreaks_cons]; rfl
      | pair id inside => simp only [Piece.tokens, List.cons_append, List.nil_append, render,
          ih, written, afterBreaks_cons]

theorem written_ne_nil (map : Data.Pairs Text Text) (used : List Text) {ps : List Piece}
    (h : ps ≠ []) : written map used ps ≠ [] := by
  cases ps with
  | nil => exact absurd rfl h
  | cons p ps => cases p <;> exact List.cons_ne_nil _ _

theorem cons_tokens_of_parses {es : List Row} {ps : List Piece} (h : Parses es ps)
    (hes : ∀ e ∈ es, e.Clean) (hne : es ≠ []) :
    .char '\n' :: tokens (ofFileLines (es.map Row.text)) = ps.flatMap Piece.tokens := by
  have htexts : es.map Row.text ≠ [] := fun he => hne (List.map_eq_nil_iff.mp he)
  rw [← tokens_of_parses h hes, ← cons_ofFileLines htexts, tokens_cons_break]

theorem Parses.ne_nil {es : List Row} {ps : List Piece} (h : Parses es ps) (hne : es ≠ []) :
    ps ≠ [] := by
  rintro rfl
  cases h
  exact hne rfl

/-- A reading of the rows of a file tells what becomes of the file. -/
theorem replaceMarked_of_parses (map : Data.Pairs Text Text) {es : List Row}
    {ps : List Piece} (h : Parses es ps) (hes : ∀ e ∈ es, e.Clean) (hne : es ≠ []) :
    replaceMarked map (ofFileLines (es.map Row.text)) = ofFileLines (written map [] ps) := by
  have hrender := render_tokens_pieces map [] ps
  rw [← cons_tokens_of_parses h hes hne, render,
    ← cons_ofFileLines (written_ne_nil map [] (h.ne_nil hne))] at hrender
  rw [replaceMarked_eq_render]
  exact (List.cons.inj hrender).2

/-- The texts that take the places of pairs, by a reading of the rows. -/
theorem map_text_resolved_of_parses (map : Data.Pairs Text Text) {es : List Row}
    {ps : List Piece} (h : Parses es ps) (hes : ∀ e ∈ es, e.Clean) (hne : es ≠ []) :
    (resolved map (ofFileLines (es.map Row.text))).map Resolved.text =
      replacements map [] (ps.flatMap Piece.tokens) := by
  rw [map_text_resolved, ← cons_tokens_of_parses h hes hne, replacements]

end Marker
end Refit

/-
What is cut from a response, and how it is kept.

The methods that are read from a response are pieces of it, one behind the other. Each goes from the
start of a signature to the brace that closes its body, so its braces balance unless it runs to the end
of the response. Gathering them by name keeps every one: the texts of a name stand in order, with blank
lines between them (`byName_eq_tabulate`).
-/
import Refit.Proofs.Data.Gather
import Refit.Proofs.Replacement.Entries
import Refit.Proofs.Replacement.Scan

namespace Refit

namespace Text

/-! ## Trimming -/

/-- `t` is `s` without line feeds before it and blanks after it, of which it has none itself. -/
structure Tidied (s t : Text) : Prop where
  around : ∃ feeds blanks, s = feeds ++ t ++ blanks ∧ (∀ c ∈ feeds, c = '\n') ∧
    ∀ c ∈ blanks, isBlank c = true
  head : ∀ c ∈ t.head?, c ≠ '\n'
  last : ∀ c ∈ t.getLast?, isBlank c = false

theorem getLast?_trimEnd (p : Char → Bool) (s : Text) :
    ∀ c ∈ (trimEnd p s).getLast?, p c = false := by
  intro c hc
  rw [trimEnd, List.getLast?_reverse] at hc
  have hnot := List.head?_dropWhile_not p s.reverse
  rw [Option.mem_def.mp hc] at hnot
  simpa using hnot

theorem join_concat (sep : Text) {parts : List Text} (hne : parts ≠ []) (part : Text) :
    join sep (parts ++ [part]) = join sep parts ++ sep ++ part := by
  induction parts with
  | nil => exact absurd rfl hne
  | cons first parts ih =>
      cases parts with
      | nil => simp [join]
      | cons second parts =>
          have hstep : ∀ rest, join sep (first :: second :: rest) =
              first ++ sep ++ join sep (second :: rest) := fun rest => by simp [join]
          rw [List.cons_append, List.cons_append, hstep, hstep, ← List.cons_append,
            ih (List.cons_ne_nil _ _)]
          simp only [List.append_assoc]

end Text

namespace Replacement

open Text

variable {s : Text} {h : Hit Text} {hs : List (Hit Text)} {consumed : Nat}

theorem tidied_tidy (s : Text) : Tidied s (tidy s) := by
  obtain ⟨feeds, hfeeds, hall⟩ := exists_trimEnd_append (· == '\n') (trimStart (· == '\n') s)
  obtain ⟨blanks, hblanks, hall'⟩ :=
    exists_trimEnd_append isBlank (trimEnd (· == '\n') (trimStart (· == '\n') s))
  have hstart : s.takeWhile (· == '\n') ++ trimStart (· == '\n') s = s :=
    List.takeWhile_append_dropWhile
  refine ⟨⟨s.takeWhile (· == '\n'), blanks ++ feeds, ?_, fun c hc => ?_, fun c hc => ?_⟩,
    fun c hc => ?_, getLast?_trimEnd _ _⟩
  · rw [List.append_assoc, ← List.append_assoc (tidy s), tidy, ← hblanks, ← hfeeds, hstart]
  · exact beq_iff_eq.mp (List.all_eq_true.mp List.all_takeWhile c hc)
  · rcases List.mem_append.mp hc with hc | hc
    · exact hall' c hc
    · rw [beq_iff_eq.mp (hall c hc)]
      decide
  · -- what is left begins as the text without its first line feeds does
    have hlead : tidy s <+: trimStart (· == '\n') s :=
      (isPrefix_trimEnd _ _).trans (isPrefix_trimEnd _ _)
    obtain ⟨tail, htail⟩ := hlead
    have hhead : (s.dropWhile (· == '\n')).head? = some c := by
      show (trimStart (· == '\n') s).head? = some c
      rw [← htail, List.head?_append, Option.mem_def.mp hc]
      rfl
    have hnot := List.head?_dropWhile_not (· == '\n') s
    rw [hhead] at hnot
    simpa using hnot

/-! ## Names -/

/-- An identifier that opens no statement. -/
structure MethodName (name : Text) : Prop where
  identifier : ∃ c cs, name = c :: cs ∧ isIdentStart c = true ∧ ∀ d ∈ cs, isIdentChar d = true
  notMem_keywords : name ∉ Signature.keywords

theorem methodName_of_named? {name rest : Text} (h : Signature.named? s = some (name, rest)) :
    MethodName name := by
  obtain ⟨hopens, after, hid, -⟩ := Signature.named?_eq_some h
  obtain ⟨hname, hafter⟩ := identifier?_eq_some hid
  refine ⟨hname, fun hmem => ?_⟩
  -- a keyword would be read as a whole word, since the name ends where the word does
  have hrest : after? name s = some after := after?_eq_some_iff.mpr (eq_append_of_identifier? hid)
  have hopens' : Signature.opensWithKeyword s = true := by
    refine List.any_eq_true.mpr ⟨name, hmem, ?_⟩
    rw [hrest]
    cases after with
    | nil => rfl
    | cons c after =>
        have hc := hafter c rfl
        rw [isIdentChar, Bool.or_eq_false_iff] at hc
        simp [hc.1]
  exact absurd (hopens.symm.trans hopens') Bool.false_ne_true

/-! ## Excerpts -/

/-- A method of a response with the positions it is cut at: where its signature starts, where its body
opens, and where it ends. -/
structure Excerpt where
  start : Nat
  brace : Nat
  stop : Nat
  method : Replacement
  deriving Repr, DecidableEq

structure Excerpt.CutFrom (s : Text) (x : Excerpt) : Prop where
  start_lt : x.start < x.brace
  brace_lt : x.brace < x.stop
  stop_le : x.stop ≤ s.length
  opening : s[x.brace]? = some '\x7b'
  stop_eq : x.stop = blockEnd s x.brace
  text : Tidied (slice s x.start x.stop) x.method.text
  name : MethodName x.method.name
  named : x.method.name <:+: slice s x.start x.brace
  balanced : x.stop ≠ s.length →
    (slice s x.brace x.stop).count '\x7b' = (slice s x.brace x.stop).count '\x7d'

def excerptAt (s : Text) (h : Hit Text) : Excerpt :=
  ⟨h.start, h.stop - 1, methodEnd s h, methodAt s h⟩

theorem cutFrom_excerptAt {i : Nat} (hl : Leftmost Signature.recogniser s i h) :
    (excerptAt s h).CutFrom s := by
  have hlt := hl.start_lt
  have hle := hl.stop_le
  obtain ⟨a, b, body, hdrop, hlength⟩ := Signature.exists_append_of_recogniser hl.read
  obtain ⟨s', -, rest, hnamed, -⟩ := Signature.recogniser_eq_some hl.read
  have hname := methodName_of_named? hnamed
  have hbrace : h.stop - 1 - h.start = (a ++ h.value ++ b).length := by omega
  have hlead : s.drop h.start = (a ++ h.value ++ b) ++ '\x7b' :: body := by
    rw [hdrop]
    simp only [List.append_assoc]
  have hpos : 0 < h.value.length := by
    obtain ⟨c, cs, hvalue, -⟩ := hname.identifier
    rw [hvalue, List.length_cons]
    omega
  have hwithin := blockEnd_within (s := s) (p := h.stop - 1) (by omega)
  have hopen : s[h.stop - 1]? = some '\x7b' := by
    have hat : h.stop - 1 = h.start + (a ++ h.value ++ b).length := by omega
    rw [hat, ← List.getElem?_drop, hlead, List.getElem?_append_right (Nat.le_refl _), Nat.sub_self]
    rfl
  rw [List.length_append, List.length_append] at hbrace
  refine ⟨?_, hwithin.1, hwithin.2, hopen, rfl, tidied_tidy _, hname, ?_,
    count_slice_blockEnd hopen⟩
  · simp only [excerptAt]
    omega
  · have hslice : slice s h.start (h.stop - 1) = a ++ h.value ++ b := by
      rw [slice, hlead, hbrace, ← List.length_append, ← List.length_append, List.take_left]
    show h.value <:+: slice s h.start (h.stop - 1)
    rw [hslice]
    exact List.infix_append a h.value b

theorem le_start_of_mem_takenFrom (hends : ∀ g ∈ hs, g.start ≤ methodEnd s g)
    (hmem : h ∈ takenFrom s consumed hs) : consumed ≤ h.start := by
  induction hs generalizing consumed with
  | nil => exact absurd hmem List.not_mem_nil
  | cons g hs ih =>
      rw [List.forall_mem_cons] at hends
      rw [takenFrom] at hmem
      split at hmem
      · exact ih hends.2 hmem
      · next hstart =>
        rcases List.mem_cons.mp hmem with rfl | hmem
        · exact Nat.not_lt.mp hstart
        · have hafter := ih hends.2 hmem
          have hend := hends.1
          omega

/-- A method starts where the one before it has ended, or later. -/
theorem pairwise_takenFrom (hends : ∀ g ∈ hs, g.start ≤ methodEnd s g) :
    (takenFrom s consumed hs).Pairwise fun g g' => methodEnd s g ≤ g'.start := by
  induction hs generalizing consumed with
  | nil => exact List.Pairwise.nil
  | cons g hs ih =>
      rw [List.forall_mem_cons] at hends
      rw [takenFrom]
      split
      · exact ih hends.2
      · exact List.pairwise_cons.mpr
          ⟨fun g' hg' => le_start_of_mem_takenFrom hends.2 hg', ih hends.2⟩

theorem leftmost_of_mem_hits (hmem : h ∈ hits Signature.recogniser s) :
    ∃ i, Leftmost Signature.recogniser s i h :=
  (scanned_hits Signature.proper_recogniser s).exists_leftmost hmem

theorem taken_eq_nil_iff :
    taken s = [] ↔ ∀ i, readAt Signature.recogniser s i = none := by
  have hscan := (scanned_hits Signature.proper_recogniser s).head?_eq_none_iff
  simp only [Nat.zero_le, true_imp_iff, List.head?_eq_none_iff] at hscan
  rw [← hscan, taken]
  cases hits Signature.recogniser s with
  | nil => exact iff_of_true rfl rfl
  | cons h hs =>
      rw [takenFrom, if_neg (Nat.not_lt_zero _)]
      exact iff_of_false (List.cons_ne_nil _ _) (List.cons_ne_nil _ _)

/-! ## Gathering by name -/

def textsOf (found : List Replacement) (name : Text) : List Text :=
  (found.filter fun r => r.name = name).map Replacement.text

/-- Each method is written behind the texts of its name. -/
theorem byName_eq_tabulate (found : List Replacement) :
    byName found = Data.Pairs.tabulate (fun name => join "\n\n" (textsOf found name))
      (found.map Replacement.name).eraseDups := by
  let pairs : List (Text × Text) := found.map fun r => (r.name, r.text)
  let write : Option Text → Text → Text
    | some old, text => old ++ "\n\n" ++ text
    | none, text => text
  have hbyName : byName found = pairs.foldl (fun (m : Data.Pairs Text Text) e =>
      m.alter e.1 fun old => write old e.2) [] := by
    rw [byName, List.foldl_map]
    congr
    funext m r
    congr
    funext old
    cases old <;> rfl
  have hgather := Data.Pairs.gather_eq_tabulate write (join "\n\n")
    (fun text => by simp [write, join]) (fun texts text hne => (join_concat _ hne text).symm) pairs
  have hunder : ∀ name, Data.Pairs.under pairs name = textsOf found name := by
    intro name
    rw [Data.Pairs.under, List.filter_map, List.map_map]
    rfl
  rw [hbyName, hgather, List.map_map]
  simp only [hunder]
  rfl

/-- The methods of a response are cut from it one behind the other, each from its signature to the
brace that closes its body; there are none only where no signature is. All of them are kept by name:
the names in the order they come up, each with its texts in order. -/
theorem scan_cuts_and_parse_keeps (response : Text) :
    (∃ excerpts : List Excerpt, scan response = excerpts.map Excerpt.method ∧
      (excerpts.Pairwise fun x y => x.stop ≤ y.start) ∧ ∀ x ∈ excerpts, x.CutFrom response) ∧
      (scan response = [] ↔ ∀ i, readAt Signature.recogniser response i = none) ∧
      parse response = ((scan response).map Replacement.name).eraseDups.map fun name =>
        (name, join "\n\n" (((scan response).filter fun r => r.name = name).map Replacement.text)) := by
  have hscan : scan response = (taken response).map (methodAt response) :=
    collect_eq_map response 0 _
  have hends : ∀ g ∈ hits Signature.recogniser response, g.start ≤ methodEnd response g := by
    intro g hg
    obtain ⟨i, hl⟩ := leftmost_of_mem_hits hg
    have hlt := hl.start_lt
    have hend := (methodEnd_within hl).1
    omega
  refine ⟨⟨(taken response).map (excerptAt response), ?_, ?_, fun x hx => ?_⟩, ?_,
    byName_eq_tabulate _⟩
  · rw [hscan, List.map_map]
    rfl
  · exact List.pairwise_map.mpr (pairwise_takenFrom hends)
  · obtain ⟨g, hg, rfl⟩ := List.mem_map.mp hx
    obtain ⟨i, hl⟩ := leftmost_of_mem_hits ((takenFrom_sublist _ _ _).mem hg)
    exact cutFrom_excerptAt hl
  · rw [hscan, List.map_eq_nil_iff, taken_eq_nil_iff]

/-- Two methods of one name around another, with words before them, and the last one cut short. -/
def cutShortResponse : Text :=
  "Sure:\nint sell() \x7b\n  if (n) \x7b return 1; \x7d\n\x7d\n\n" ++ buyMethod ++
    "\nint sell(int n) \x7b\n  return n; \n"

theorem scan_cuts_cutShortResponse :
    (∃ x : Excerpt, x.CutFrom cutShortResponse ∧ x.method ∈ scan cutShortResponse) ∧
      scan cutShortResponse ≠ [] ∧
      (parse cutShortResponse).keys = ["sell".toList, "buy".toList] ∧
      (parse cutShortResponse).get? "sell" =
        some ("int sell() \x7b\n  if (n) \x7b return 1; \x7d\n\x7d" ++ "\n\n" ++
          "int sell(int n) \x7b\n  return n;") := by
  have hscan : scan cutShortResponse =
      [⟨"sell", "int sell() \x7b\n  if (n) \x7b return 1; \x7d\n\x7d"⟩, ⟨"buy", buyMethod⟩,
        ⟨"sell", "int sell(int n) \x7b\n  return n;"⟩] := by
    decide +kernel
  obtain ⟨⟨excerpts, hexcerpts, -, hcut⟩, -, hparse⟩ := scan_cuts_and_parse_keeps cutShortResponse
  rw [hscan] at hparse
  have hne : scan cutShortResponse ≠ [] := by
    rw [hscan]
    exact List.cons_ne_nil _ _
  refine ⟨?_, hne, ?_, ?_⟩
  · obtain ⟨r, hr⟩ := List.exists_mem_of_ne_nil _ hne
    have hmem := hr
    rw [hexcerpts] at hmem
    obtain ⟨x, hx, rfl⟩ := List.mem_map.mp hmem
    exact ⟨x, hcut x hx, hr⟩
  · rw [hparse]
    decide +kernel
  · rw [hparse]
    decide +kernel

end Replacement
end Refit

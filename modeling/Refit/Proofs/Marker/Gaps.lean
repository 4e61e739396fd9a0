/-
A marked text as the gaps between its pairs.

`Cut` reads a text from left to right: a gap in which no pair begins, a pair, the
next gap.  Every text can be cut in exactly one way, whatever sentinels stand in it
and however they are nested.  Replacing pairs by a running offset puts the gaps
together again with a replacement between each two (`replaceMarked_eq_stitch`);
no position is left in that statement.
-/
import Refit.Proofs.Marker.Tokens

namespace Refit
namespace Marker

open Text

/-- No pair begins in `gap` when `rest` follows it. -/
def Gap (gap rest : Text) : Prop :=
  ∀ a b, gap = a ++ b → b ≠ [] → ∀ p rest', ¬ PairAt (b ++ rest) p rest'

inductive Cut : Text → List Text → List Pair → Prop
  | last {gap : Text} (free : Gap gap []) : Cut gap [gap] []
  | next {gap rest : Text} {p : Pair} {gaps : List Text} {ps : List Pair}
      (free : Gap gap (p.text ++ rest)) (here : PairAt (p.text ++ rest) p rest)
      (behind : Cut rest gaps ps) : Cut (gap ++ (p.text ++ rest)) (gap :: gaps) (p :: ps)

/-! ## Pairs at the start of a text -/

theorem PairAt.pair_eq {s rest : Text} {p : Pair} (h : PairAt s p rest) (before : Option Char) :
    pair before s = some (p.text.length, p) :=
  pair_eq_some_iff.mpr ⟨rest, h, rfl⟩

theorem PairAt.unique {s rest rest' : Text} {p p' : Pair} (h : PairAt s p rest)
    (h' : PairAt s p' rest') : p = p' ∧ rest = rest' := by
  have hsame := (h.pair_eq none).symm.trans (h'.pair_eq none)
  obtain ⟨-, rfl⟩ := Prod.mk.inj (Option.some.inj hsame)
  exact ⟨rfl, List.append_cancel_left (h.eq_append.symm.trans h'.eq_append)⟩

theorem PairAt.ne_nil {s rest : Text} {p : Pair} (h : PairAt s p rest) : s ≠ [] := by
  have hpos := pair_length_pos p
  rintro rfl
  have hlen := congrArg List.length h.eq_append
  rw [List.length_append, List.length_nil] at hlen
  omega

theorem not_pairAt_of_none {s : Text} (h : pair none s = none) (p : Pair) (rest : Text) :
    ¬ PairAt s p rest := by
  intro hp
  rw [hp.pair_eq] at h
  exact absurd h (Option.some_ne_none _)

theorem pair_eq_none {s : Text} (h : ∀ p rest, ¬ PairAt s p rest) (before : Option Char) :
    pair before s = none := by
  cases hp : pair before s with
  | none => rfl
  | some found =>
      obtain ⟨rest, hpair, -⟩ := pair_eq_some_iff.mp hp
      exact absurd hpair (h _ _)

/-! ## Every text has one cut -/

section Gap

variable {gap gap' rest rest' : Text}

theorem gap_nil (rest : Text) : Gap [] rest := by
  intro a b hab hb
  exact absurd (List.append_eq_nil_iff.mp hab.symm).2 hb

theorem Gap.cons {c : Char} (h : Gap gap rest) (hc : pair none (c :: (gap ++ rest)) = none) :
    Gap (c :: gap) rest := by
  intro a b hab hb
  cases a with
  | nil =>
      obtain rfl : c :: gap = b := hab
      exact not_pairAt_of_none hc
  | cons d a => exact h a b (List.cons.inj hab).2 hb

theorem Gap.length_le {p : Pair} {behind : Text} (h : Gap gap' rest')
    (heq : gap ++ rest = gap' ++ rest') (hp : PairAt rest p behind) :
    gap'.length ≤ gap.length := by
  rcases List.append_eq_append_iff.mp heq with ⟨more, hgap, hrest⟩ | ⟨more, hgap, -⟩
  · by_cases hmore : more = []
    · rw [hgap, hmore, List.append_nil]
    · rw [hrest] at hp
      exact absurd hp (h gap more hgap hmore p behind)
  · rw [hgap, List.length_append]
    omega

end Gap

section Cut

variable {s s' : Text} {gaps gaps' : List Text} {ps ps' : List Pair}

theorem Cut.cons {c : Char} (h : Cut s gaps ps) (hc : pair none (c :: s) = none) :
    ∃ gaps', Cut (c :: s) gaps' ps := by
  cases h with
  | @last gap free =>
      rw [← List.append_nil s] at hc
      exact ⟨[c :: s], .last (free.cons hc)⟩
  | @next gap rest p gaps ps free here behind =>
      exact ⟨(c :: gap) :: gaps, .next (free.cons hc) here behind⟩

theorem exists_cut (s : Text) : ∃ gaps ps, Cut s gaps ps := by
  induction hn : s.length using Nat.strong_induction_on generalizing s with
  | _ n ih =>
      cases s with
      | nil => exact ⟨[[]], [], .last (gap_nil [])⟩
      | cons c s =>
          rw [List.length_cons] at hn
          cases hp : pair none (c :: s) with
          | none =>
              obtain ⟨gaps, ps, hcut⟩ := ih s.length (by omega) s rfl
              obtain ⟨gaps', hcut'⟩ := hcut.cons hp
              exact ⟨gaps', ps, hcut'⟩
          | some found =>
              obtain ⟨rest, hpair, -⟩ := pair_eq_some_iff.mp hp
              have hs := hpair.eq_append
              have hpos := pair_length_pos found.2
              have hlen := congrArg List.length hs
              rw [List.length_cons, List.length_append] at hlen
              obtain ⟨gaps, ps, hcut⟩ := ih rest.length (by omega) rest rfl
              rw [hs] at hpair ⊢
              exact ⟨[] :: gaps, found.2 :: ps, .next (gap_nil _) hpair hcut⟩

theorem Cut.unique (h : Cut s gaps ps) (h' : Cut s' gaps' ps') (hs : s = s') :
    gaps = gaps' ∧ ps = ps' := by
  induction h generalizing s' gaps' ps' with
  | @last gap free =>
      cases h' with
      | last => exact ⟨by rw [hs], rfl⟩
      | @next gap' rest' p' _ _ _ here' _ =>
          have hle := free.length_le ((List.append_nil gap).trans hs).symm here'
          have hpos := List.length_pos_iff.mpr here'.ne_nil
          have hlen := congrArg List.length hs
          rw [List.length_append] at hlen
          omega
  | @next gap rest p gaps ps free here behind ih =>
      cases h' with
      | @last _ free' =>
          have hle := free'.length_le (hs.trans (List.append_nil _).symm) here
          have hpos := List.length_pos_iff.mpr here.ne_nil
          have hlen := congrArg List.length hs
          rw [List.length_append] at hlen
          omega
      | @next gap' rest' p' gaps' ps' free' here' behind' =>
          have hle := free'.length_le hs here
          have hle' := free.length_le hs.symm here'
          obtain ⟨rfl, htail⟩ := List.append_inj hs (by omega)
          rw [← htail] at here'
          obtain ⟨rfl, rfl⟩ := here.unique here'
          obtain ⟨rfl, rfl⟩ := ih behind' rfl
          exact ⟨rfl, rfl⟩

/-! ## The tokens of a cut text -/

theorem Gap.tokens_append {gap rest : Text} (h : Gap gap rest) :
    tokens (gap ++ rest) = gap.map .char ++ tokens rest := by
  induction gap with
  | nil => rfl
  | cons c gap ih =>
      have hnone : pair none (c :: (gap ++ rest)) = none :=
        pair_eq_none (h [] (c :: gap) rfl (List.cons_ne_nil _ _)) none
      have hrest := ih fun a b hab => h (c :: a) b (congrArg (c :: ·) hab)
      rw [List.cons_append, tokens, tokensFrom, hnone, List.map_cons, List.cons_append]
      exact congrArg (Token.char c :: ·) hrest

theorem Gap.tokens_eq {gap : Text} (h : Gap gap []) : tokens gap = gap.map .char ++ [] := by
  have htokens := h.tokens_append
  rwa [List.append_nil] at htokens

theorem PairAt.tokens_append {p : Pair} {rest : Text} (h : PairAt (p.text ++ rest) p rest) :
    tokens (p.text ++ rest) = .pair p :: tokens rest :=
  tokens_append_of_pair (List.length_pos_iff.mp (pair_length_pos p)) (h.pair_eq none)

def stitch : List Text → List Text → Text
  | gap :: gaps, new :: news => gap ++ (new ++ stitch gaps news)
  | gaps, _ => gaps.flatten

theorem stitch_singleton (gap : Text) : stitch [gap] [] = gap := by
  simp [stitch]

theorem Cut.stitch_eq (h : Cut s gaps ps) : stitch gaps (ps.map Pair.text) = s := by
  induction h with
  | @last gap free => exact stitch_singleton gap
  | next free here behind ih => rw [List.map_cons, stitch, ih]

theorem Cut.render_eq (h : Cut s gaps ps) (map : Data.Pairs Text Text) (used : List Text) :
    render map used (tokens s) = stitch gaps (replacements map used (tokens s)) := by
  induction h generalizing used with
  | @last gap free =>
      rw [free.tokens_eq, render_map_char, replacements_map_char, render, replacements,
        stitch_singleton, List.append_nil]
  | next free here behind ih =>
      rw [free.tokens_append, here.tokens_append, render_map_char, replacements_map_char, render,
        replacements, stitch, ih]

def Token.pair? : Token → Option Pair
  | .char _ => none
  | .pair p => some p

theorem filterMap_pair?_map_char (gap : Text) :
    (gap.map Token.char).filterMap Token.pair? = [] := by
  rw [List.filterMap_map, List.filterMap_eq_nil_iff]
  exact fun _ _ => rfl

theorem map_value_hitsFrom_pair (s : Text) (pos skip : Nat) (before : Option Char) :
    (hitsFrom pair pos skip before s).map Hit.value =
      (tokensFrom skip s).filterMap Token.pair? := by
  induction s generalizing pos skip before with
  | nil => rfl
  | cons c s ih =>
      cases skip with
      | succ skip => exact ih (pos + 1) skip (some c)
      | zero =>
          rw [hitsFrom, tokensFrom, show pair before (c :: s) = pair none (c :: s) from rfl]
          cases pair none (c :: s) with
          | none => exact ih (pos + 1) 0 (some c)
          | some found => exact congrArg (found.2 :: ·) (ih _ _ _)

theorem Cut.map_value_pairs (h : Cut s gaps ps) : (pairs s).map Hit.value = ps := by
  rw [pairs, hits, map_value_hitsFrom_pair, ← tokens]
  induction h with
  | @last gap free =>
      rw [free.tokens_eq, List.append_nil, filterMap_pair?_map_char]
  | @next gap rest p gaps ps free here behind ih =>
      rw [free.tokens_append, here.tokens_append, List.filterMap_append, filterMap_pair?_map_char,
        List.nil_append]
      exact congrArg (p :: ·) ih

end Cut

/-! ## What takes the places of pairs -/

/-- The names that some pairs call for and the map has. -/
def usedNames (map : Data.Pairs Text Text) (ps : List Pair) : List Text :=
  (ps.map pairName).filter map.hasKey

/-- What takes the places of pairs, when those of `earlier` come before them. -/
def choices (map : Data.Pairs Text Text) : List Pair → List Pair → List Text
  | _, [] => []
  | earlier, p :: ps =>
    replacement map (usedNames map earlier) p :: choices map (earlier ++ [p]) ps

section Choices

variable {map : Data.Pairs Text Text} {used used' : List Text}

theorem replacement_congr (h : ∀ name, name ∈ used ↔ name ∈ used') (p : Pair) :
    replacement map used p = replacement map used' p := by
  have hsame : used.contains (pairName p) = used'.contains (pairName p) := by
    rw [Bool.eq_iff_iff, List.contains_iff_mem, List.contains_iff_mem]
    exact h (pairName p)
  rw [replacement, replacement, choose, choose, hsame]

theorem Tracks.mem_iff_usedNames {earlier : List Pair}
    (h : Tracks map (earlier.map pairName) used) (name : Text) :
    name ∈ used ↔ name ∈ usedNames map earlier := by
  rw [h name, usedNames, List.mem_filter]
  rfl

theorem Cut.replacements_eq {s : Text} {gaps : List Text} {ps earlier : List Pair}
    (h : Cut s gaps ps) (hused : Tracks map (earlier.map pairName) used) :
    replacements map used (tokens s) = choices map earlier ps := by
  induction h generalizing used earlier with
  | last free =>
      rw [free.tokens_eq, replacements_map_char]
      rfl
  | @next gap rest p gaps ps free here behind ih =>
      have hnext : Tracks map ((earlier ++ [p]).map pairName) (placing map used p) := by
        rw [List.map_append]
        exact hused.placing p
      rw [free.tokens_append, here.tokens_append, replacements_map_char, replacements, choices,
        ih hnext, replacement_congr hused.mem_iff_usedNames]

end Choices

/-- Replacing the pairs of any text stitches its gaps together with what is chosen
for each pair.  The choice goes by the id and the region of the pair, the map and
the set of names that the pairs before it have used. -/
theorem replaceMarked_eq_stitch (map : Data.Pairs Text Text) (text : Text) :
    (∀ p used used', (∀ name, name ∈ used ↔ name ∈ used') →
        replacement map used p = replacement map used' p) ∧
      ∃ gaps ps, (∀ gaps' ps', Cut text gaps' ps' ↔ gaps' = gaps ∧ ps' = ps) ∧
        stitch gaps (ps.map Pair.text) = text ∧
        replaceMarked map text = stitch gaps (choices map [] ps) := by
  obtain ⟨gaps, ps, hcut⟩ := exists_cut text
  have hstart : Tracks map (([] : List Pair).map pairName) [] := tracks_nil map
  refine ⟨fun p used used' h => replacement_congr h p, gaps, ps, ?_, hcut.stitch_eq, ?_⟩
  · intro gaps' ps'
    constructor
    · exact fun h => h.unique hcut rfl
    · rintro ⟨rfl, rfl⟩
      exact hcut
  · rw [replaceMarked_eq_render, hcut.render_eq, hcut.replacements_eq hstart]

end Marker
end Refit

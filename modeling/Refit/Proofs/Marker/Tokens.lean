/-
A marked text as it is read: the characters that stay and the pairs between them.

Replacing pairs by a running offset comes to the same as writing the tokens out
one after the other, each pair by what takes its place (`replaceMarked_eq_render`).
The positions of the pairs, and with them all arithmetic on offsets, are gone
after that; what a pair becomes depends on the pair and on the names placed
before it.
-/
import Refit.Marker.Resolve
import Refit.Proofs.Text.Lines

namespace Refit
namespace Marker

open Text

theorem startFlagged_eq (id : Text) : startFlagged id = startLead ++ (id ++ ['>']) :=
  List.append_assoc _ _ _

theorem endFlagged_eq (id : Text) : endFlagged id = endLead ++ (id ++ ['>']) :=
  List.append_assoc _ _ _

theorem newline_notMem_startLead : '\n' ∉ startLead := by decide

theorem newline_notMem_endLead : '\n' ∉ endLead := by decide

/-! ## One pair -/

def Pair.text (p : Pair) : Text := startFlagged p.id ++ (p.region ++ endFlagged p.id)

theorem startFlagged_append (id rest : Text) :
    startFlagged id ++ rest = startLead ++ (id ++ '>' :: rest) := by
  rw [startFlagged_eq, List.append_assoc, List.append_assoc, List.singleton_append]

theorem takeWhile_id {id : Text} (h : '>' ∉ id) (rest : Text) :
    (id ++ '>' :: rest).takeWhile (· != '>') = id := by
  rw [List.takeWhile_append_of_pos]
  · simp
  · intro c hc
    rw [bne_iff_ne]
    exact fun he => h (he ▸ hc)

theorem dropWhile_id {id : Text} (h : '>' ∉ id) (rest : Text) :
    (id ++ '>' :: rest).dropWhile (· != '>') = '>' :: rest := by
  rw [List.dropWhile_append_of_pos]
  · simp
  · intro c hc
    rw [bne_iff_ne]
    exact fun he => h (he ▸ hc)

/-- A start sentinel makes a pair with the first end sentinel of its id. -/
theorem pair_startFlagged {id : Text} (hne : id ≠ []) (hid : '>' ∉ id) (before : Option Char)
    (rest : Text) :
    pair before (startFlagged id ++ rest) =
      (cut? (endFlagged id) rest).map fun parts =>
        ((startFlagged id ++ rest).length - parts.2.length, ⟨id, parts.1⟩) := by
  obtain ⟨c, cs, rfl⟩ := List.exists_cons_of_ne_nil hne
  have ha : after? startLead (startFlagged (c :: cs) ++ rest) =
      some (c :: cs ++ '>' :: rest) := after?_eq_some_iff.mpr (startFlagged_append _ _)
  rw [pair, ha]
  simp only [takeWhile_id hid, dropWhile_id hid]

theorem pair_of_not_prefix {before : Option Char} {s : Text}
    (h : ¬ startLead <+: s) : pair before s = none := by
  cases ha : after? startLead s with
  | none => rw [pair, ha]
  | some rest => exact absurd ⟨rest, (after?_eq_some_iff.mp ha).symm⟩ h

/-- The text starts with a pair: a start sentinel, and behind the region the first
end sentinel of the same id. -/
structure PairAt (s : Text) (p : Pair) (rest : Text) : Prop where
  eq_append : s = p.text ++ rest
  id_ne_nil : p.id ≠ []
  id_closed : '>' ∉ p.id
  nearest : ∀ a b, p.region ++ endFlagged p.id = a ++ (endFlagged p.id ++ b) → b = []

theorem endFlagged_ne_nil (id : Text) : endFlagged id ≠ [] := by
  rw [endFlagged_eq]
  exact List.append_ne_nil_of_left_ne_nil (by decide) _

/-- A pair is found exactly where it stands at the start of the text, in full. -/
theorem pair_eq_some_iff {before : Option Char} {s : Text} {n : Nat} {p : Pair} :
    pair before s = some (n, p) ↔ ∃ rest, PairAt s p rest ∧ n = p.text.length := by
  constructor
  · intro h
    unfold pair at h
    split at h
    · exact absurd h.symm (Option.some_ne_none _)
    · next s' ha =>
      split at h
      · next c cs rest htake hdrop =>
        obtain ⟨⟨region, rest'⟩, hcut, heq⟩ := Option.map_eq_some_iff.mp h
        obtain ⟨rfl, rfl⟩ := Prod.mk.inj heq
        obtain ⟨hrest, hnearest⟩ := (cut?_eq_some_iff (endFlagged_ne_nil (c :: cs))).mp hcut
        have hs : s = startFlagged (c :: cs) ++ rest := by
          have hsplit := List.takeWhile_append_dropWhile (p := (· != '>')) (l := s')
          rw [htake, hdrop] at hsplit
          rw [startFlagged_append, hsplit]
          exact after?_eq_some_iff.mp ha
        have htext : s = (Pair.mk (c :: cs) region).text ++ rest' := by
          rw [hs, hrest, Pair.text]
          simp only [List.append_assoc]
        have hclosed : '>' ∉ c :: cs := by
          rw [← htake]
          intro hmem
          simpa using List.all_eq_true.mp List.all_takeWhile _ hmem
        refine ⟨rest', ⟨htext, List.cons_ne_nil _ _, hclosed, hnearest⟩, ?_⟩
        rw [htext, List.length_append, Nat.add_sub_cancel]
      · exact absurd h.symm (Option.some_ne_none _)
  · rintro ⟨rest, ⟨rfl, hne, hclosed, hnearest⟩, rfl⟩
    have hcut : cut? (endFlagged p.id) (p.region ++ (endFlagged p.id ++ rest)) =
        some (p.region, rest) := (cut?_eq_some_iff (endFlagged_ne_nil p.id)).mpr ⟨rfl, hnearest⟩
    have htext : p.text ++ rest =
        startFlagged p.id ++ (p.region ++ (endFlagged p.id ++ rest)) := by
      simp only [Pair.text, List.append_assoc]
    rw [htext, pair_startFlagged hne hclosed, hcut, ← htext]
    simp only [Option.map_some, List.length_append, Nat.add_sub_cancel]

theorem eq_append_of_pair {before : Option Char} {s : Text} {n : Nat} {p : Pair}
    (h : pair before s = some (n, p)) : ∃ rest, s = p.text ++ rest ∧ n = p.text.length := by
  obtain ⟨rest, hp, hn⟩ := pair_eq_some_iff.mp h
  exact ⟨rest, hp.eq_append, hn⟩

theorem pair_length_pos (p : Pair) : 0 < p.text.length := by
  rw [Pair.text, startFlagged_append]
  exact Nat.succ_pos _

/-! ## Tokens -/

inductive Token where
  | char (c : Char)
  | pair (p : Pair)
  deriving Repr, DecidableEq

/-- The tokens of a text, where the next `skip` characters belong to a pair
already read. -/
def tokensFrom (skip : Nat) : Text → List Token
  | [] => []
  | c :: s =>
    match skip with
    | skip + 1 => tokensFrom skip s
    | 0 =>
      match pair none (c :: s) with
      | some (n, p) => .pair p :: tokensFrom (n - 1) s
      | none => .char c :: tokensFrom 0 s

def tokens (s : Text) : List Token := tokensFrom 0 s

/-- What a pair becomes when the names in `used` have been placed. -/
def replacement (map : Data.Pairs Text Text) (used : List Text) (p : Pair) : Text :=
  Resolved.text ⟨⟨0, 0, p⟩, pairName p, choose map used (pairName p)⟩

/-- The names that have been placed after a pair. -/
def placing (map : Data.Pairs Text Text) (used : List Text) (p : Pair) : List Text :=
  match choose map used (pairName p) with
  | .placed _ => used ++ [pairName p]
  | _ => used

def render (map : Data.Pairs Text Text) : List Text → List Token → Text
  | _, [] => []
  | used, .char c :: ts => c :: render map used ts
  | used, .pair p :: ts => replacement map used p ++ render map (placing map used p) ts

theorem resolvePairs_cons (map : Data.Pairs Text Text) (used : List Text) (h : Hit Pair)
    (hs : List (Hit Pair)) :
    resolvePairs map used (h :: hs) =
      ⟨h, pairName h.value, choose map used (pairName h.value)⟩ ::
        resolvePairs map (placing map used h.value) hs := by
  rw [resolvePairs, placing]
  cases choose map used (pairName h.value) <;> rfl

def Resolved.edit (r : Resolved) : Nat × Nat × Text := (r.hit.start, r.hit.stop, r.text)

/-- Splicing from the middle of a text.  The buffer holds what has been written,
then the text from position `pos + skip` on, and `offset` is the difference
between the two positions. -/
theorem spliceFrom_eq_render (map : Data.Pairs Text Text) {used : List Text} {s done : Text}
    {pos skip : Nat} {before : Option Char} {offset : Int} (hskip : skip ≤ s.length)
    (hoffset : (pos : Int) + skip + offset = done.length) :
    spliceFrom (done ++ s.drop skip) offset
        ((resolvePairs map used (hitsFrom pair pos skip before s)).map Resolved.edit) =
      done ++ render map used (tokensFrom skip s) := by
  induction s generalizing used done pos skip before offset with
  | nil => simp [hitsFrom, resolvePairs, spliceFrom, tokensFrom, render]
  | cons c s ih =>
      cases skip with
      | succ skip =>
          rw [hitsFrom, tokensFrom, List.drop_succ_cons]
          exact ih (Nat.le_of_succ_le_succ hskip) (by omega)
      | zero =>
          rw [hitsFrom, tokensFrom, show pair before (c :: s) = pair none (c :: s) from rfl]
          cases hp : pair none (c :: s) with
          | none =>
              have hrest := @ih used (done ++ [c]) (pos + 1) 0 (some c) offset (Nat.zero_le _)
                (by rw [List.length_append, List.length_singleton]; omega)
              simpa [render] using hrest
          | some found =>
              obtain ⟨n, p⟩ := found
              obtain ⟨rest, hs, hn⟩ := eq_append_of_pair hp
              have hpos := pair_length_pos p
              have hlen : n ≤ s.length + 1 := by
                have := congrArg List.length hs
                rw [List.length_cons, List.length_append] at this
                omega
              let new := replacement map used p
              have hstart : ((pos : Int) + offset).toNat = done.length := by omega
              have hstop : (((pos + n : Nat) : Int) + offset).toNat = done.length + n := by omega
              have hdrop : (c :: s).drop n = s.drop (n - 1) := by
                obtain ⟨k, rfl⟩ : ∃ k, n = k + 1 := ⟨n - 1, by omega⟩
                rfl
              have hrest := @ih (placing map used p) (done ++ new) (pos + 1) (n - 1) (some c)
                (offset + new.length - ((pos + n : Nat) - pos))
                (by omega) (by rw [List.length_append]; omega)
              rw [resolvePairs_cons, List.map_cons, Resolved.edit, spliceFrom]
              simp only [hstart, hstop, List.drop_zero]
              rw [List.take_left', List.drop_append, List.drop_eq_nil_of_le (by omega),
                List.nil_append, Nat.add_sub_cancel_left, hdrop, render, ← List.append_assoc]
              · exact hrest
              · rfl

theorem replaceMarked_eq_render (map : Data.Pairs Text Text) (s : Text) :
    replaceMarked map s = render map [] (tokens s) := by
  exact @spliceFrom_eq_render map [] s [] 0 0 none 0 (Nat.zero_le _) rfl

/-- What takes the places of the pairs, in order. -/
def replacements (map : Data.Pairs Text Text) : List Text → List Token → List Text
  | _, [] => []
  | used, .char _ :: ts => replacements map used ts
  | used, .pair p :: ts => replacement map used p :: replacements map (placing map used p) ts

theorem map_text_resolvePairs (map : Data.Pairs Text Text) (used : List Text) (pos skip : Nat)
    (before : Option Char) (s : Text) :
    (resolvePairs map used (hitsFrom pair pos skip before s)).map Resolved.text =
      replacements map used (tokensFrom skip s) := by
  induction s generalizing used pos skip before with
  | nil => rfl
  | cons c s ih =>
      cases skip with
      | succ skip => exact ih used (pos + 1) skip (some c)
      | zero =>
          rw [hitsFrom, tokensFrom, show pair before (c :: s) = pair none (c :: s) from rfl]
          cases pair none (c :: s) with
          | none => exact ih used (pos + 1) 0 (some c)
          | some found => rw [resolvePairs_cons, List.map_cons, ih, replacements]; rfl

theorem map_text_resolved (map : Data.Pairs Text Text) (s : Text) :
    (resolved map s).map Resolved.text = replacements map [] (tokens s) :=
  map_text_resolvePairs map [] 0 0 none s

/-! ## Names that have been placed -/

section Placing

variable {map : Data.Pairs Text Text} {seen used : List Text}

/-- Of the names that have come up, those placed are the ones in the map. -/
def Tracks (map : Data.Pairs Text Text) (seen used : List Text) : Prop :=
  ∀ name, name ∈ used ↔ name ∈ seen ∧ (map.get? name).isSome = true

theorem tracks_nil (map : Data.Pairs Text Text) : Tracks map [] [] := by
  intro name
  simp

theorem Tracks.choose_eq (h : Tracks map seen used) (name : Text) :
    choose map used name =
      match map.get? name with
      | some body => if name ∈ seen then .repeated else .placed body
      | none => .unmatched := by
  have hname := h name
  rw [choose]
  cases hget : map.get? name with
  | none => simp [hname, hget]
  | some body => by_cases hseen : name ∈ seen <;> simp [hname, hget, hseen]

theorem Tracks.placing (h : Tracks map seen used) (p : Pair) :
    Tracks map (seen ++ [pairName p]) (placing map used p) := by
  intro name
  have hname := h name
  have hpair := h (pairName p)
  rw [Marker.placing, h.choose_eq, List.mem_append, List.mem_singleton]
  cases hget : map.get? (pairName p) with
  | none =>
      have hother : (map.get? name).isSome = true → name ≠ pairName p := by
        rintro hsome rfl
        rw [hget] at hsome
        exact absurd hsome (by decide)
      simp only [hname]
      grind
  | some body =>
      by_cases hseen : pairName p ∈ seen
      · simp only [hseen, if_true, hname]
        grind
      · simp only [hseen, if_false, List.mem_append, List.mem_singleton, hname]
        grind

end Placing

/-! ## Tokens of composed texts -/

theorem tokensFrom_eq_tokens_drop (skip : Nat) (s : Text) :
    tokensFrom skip s = tokens (s.drop skip) := by
  induction s generalizing skip with
  | nil => rw [List.drop_nil, tokens, tokensFrom, tokensFrom]
  | cons c s ih =>
      cases skip with
      | zero => rfl
      | succ skip => rw [tokensFrom, List.drop_succ_cons, ih]

theorem tokens_append_of_pair {x rest : Text} {p : Pair} (hx : x ≠ [])
    (h : pair none (x ++ rest) = some (x.length, p)) :
    tokens (x ++ rest) = .pair p :: tokens rest := by
  obtain ⟨c, x, rfl⟩ := List.exists_cons_of_ne_nil hx
  rw [List.cons_append] at h
  rw [List.cons_append, tokens, tokensFrom, h]
  simp only [List.length_cons, Nat.add_sub_cancel]
  rw [tokensFrom_eq_tokens_drop, List.drop_left]

/-- Text without the lead of a start sentinel is read character by character, up
to a break or to the end. -/
theorem tokens_append_afterBreaks {x : Text} (h : ¬ startLead <:+: x) (lines : List Text) :
    tokens (x ++ afterBreaks lines) = x.map .char ++ tokens (afterBreaks lines) := by
  induction x with
  | nil => rfl
  | cons c x ih =>
      rw [List.infix_cons_iff, not_or] at h
      have hpre : ¬ startLead <+: c :: x ++ afterBreaks lines := by
        cases lines with
        | nil => rw [afterBreaks_nil, List.append_nil]; exact h.1
        | cons l lines =>
            rw [afterBreaks_cons, prefix_append_break newline_notMem_startLead]
            exact h.1
      rw [tokens, List.cons_append, tokensFrom, ← List.cons_append, pair_of_not_prefix hpre,
        List.map_cons, List.cons_append]
      exact congrArg _ (ih h.2)

theorem render_map_char (map : Data.Pairs Text Text) (used : List Text) (x : Text)
    (ts : List Token) : render map used (x.map .char ++ ts) = x ++ render map used ts := by
  induction x with
  | nil => rfl
  | cons c x ih => rw [List.map_cons, List.cons_append, render, ih, List.cons_append]

theorem replacements_map_char (map : Data.Pairs Text Text) (used : List Text) (x : Text)
    (ts : List Token) :
    replacements map used (x.map .char ++ ts) = replacements map used ts := by
  induction x with
  | nil => rfl
  | cons c x ih => rw [List.map_cons, List.cons_append, replacements, ih]

end Marker
end Refit

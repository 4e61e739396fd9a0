/-
Entries that no pair called for, and the pieces they are put between.

The extras go before the last closing brace of the text with its pairs replaced,
and the pieces just placed are part of that text.  A piece stays whole unless the
last brace is one of its own (`placed_infix_process_iff`); then the extras are
written into it.
-/
import Refit.Proofs.Marker.Names
import Refit.Proofs.Marker.Tokens

namespace Refit
namespace Marker

open Text

/-! ## The lines around a piece -/

def startReplacedLead : Text := "// <start-replaced:"

def endReplacedLead : Text := "// <end-replaced:"

theorem startReplaced_eq (id : Text) : startReplaced id = startReplacedLead ++ (id ++ ['>']) :=
  List.append_assoc _ _ _

theorem endReplaced_eq (id : Text) : endReplaced id = endReplacedLead ++ (id ++ ['>']) :=
  List.append_assoc _ _ _

theorem brace_mem_startReplaced_iff {id : Text} : '\x7d' ∈ startReplaced id ↔ '\x7d' ∈ id := by
  have hlead : '\x7d' ∉ startReplacedLead := by decide
  simp [startReplaced_eq, hlead]

theorem brace_mem_endReplaced_iff {id : Text} : '\x7d' ∈ endReplaced id ↔ '\x7d' ∈ id := by
  have hlead : '\x7d' ∉ endReplacedLead := by decide
  simp [endReplaced_eq, hlead]

/-! ## Adding before the last brace -/

section Adding

variable {map : Data.Pairs Text Text} {used : List Text} {a s : Text}

theorem appendExtras_of_nil (h : extras map used = []) (s : Text) :
    appendExtras map used s = s := by
  rw [appendExtras, h]
  rfl

def extrasText (map : Data.Pairs Text Text) (used : List Text) : Text :=
  (extras map used).flatMap extraText

theorem appendExtras_eq (h : extras map used ≠ []) (s : Text) :
    appendExtras map used s =
      match cutLast? '\x7d' s with
      | some (before, rest) => before ++ extrasText map used ++ "\n" ++ rest
      | none => s ++ extrasText map used ++ "\n" := by
  rw [appendExtras]
  exact if_neg fun hempty => h (List.isEmpty_iff.mp hempty)

theorem appendExtras_brace (h : extras map used ≠ []) (a : Text) (hs : '\x7d' ∉ s) :
    appendExtras map used (a ++ '\x7d' :: s) = a ++ extrasText map used ++ "\n" ++ '\x7d' :: s := by
  rw [appendExtras_eq h, cutLast?_append a hs]

theorem appendExtras_end (h : extras map used ≠ []) (hs : '\x7d' ∉ s) :
    appendExtras map used s = s ++ extrasText map used ++ "\n" := by
  rw [appendExtras_eq h, cutLast?_of_notMem hs]

/-- A member of a list, at its last place. -/
theorem exists_last_of_mem {c : Char} (h : c ∈ s) : ∃ x y, s = x ++ c :: y ∧ c ∉ y := by
  obtain ⟨y, x, hs, hy⟩ := List.eq_append_cons_of_mem (List.mem_reverse.mpr h)
  refine ⟨x.reverse, y.reverse, ?_, mt List.mem_reverse.mp hy⟩
  rw [← List.reverse_reverse s, hs]
  simp

theorem appendExtras_append_right (h : '\x7d' ∈ s) :
    appendExtras map used (a ++ s) = a ++ appendExtras map used s := by
  by_cases hnil : extras map used = []
  · rw [appendExtras_of_nil hnil, appendExtras_of_nil hnil]
  · obtain ⟨x, y, rfl, hy⟩ := exists_last_of_mem h
    rw [← List.append_assoc, appendExtras_brace hnil _ hy, appendExtras_brace hnil _ hy]
    simp only [List.append_assoc]

theorem appendExtras_append_left (ha : '\x7d' ∈ a) (hs : '\x7d' ∉ s) :
    appendExtras map used (a ++ s) = appendExtras map used a ++ s := by
  by_cases hnil : extras map used = []
  · rw [appendExtras_of_nil hnil, appendExtras_of_nil hnil]
  · obtain ⟨x, y, rfl, hy⟩ := exists_last_of_mem ha
    have hys : '\x7d' ∉ y ++ s := List.not_mem_append hy hs
    rw [List.append_assoc, List.cons_append, appendExtras_brace hnil _ hys,
      appendExtras_brace hnil _ hy, List.append_assoc _ ('\x7d' :: y) s, List.cons_append]

theorem appendExtras_append_end (ha : '\x7d' ∉ a) (hs : '\x7d' ∉ s) :
    appendExtras map used (a ++ s) = a ++ appendExtras map used s := by
  by_cases hnil : extras map used = []
  · rw [appendExtras_of_nil hnil, appendExtras_of_nil hnil]
  · rw [appendExtras_end hnil (List.not_mem_append ha hs),
      appendExtras_end hnil hs]
    simp only [List.append_assoc]

/-- A piece with a brace behind it, or without any, is still there after the extras. -/
theorem infix_appendExtras {mid b : Text} (h : '\x7d' ∉ mid ∨ '\x7d' ∈ b) :
    mid <:+: appendExtras map used (a ++ (mid ++ b)) := by
  by_cases hb : '\x7d' ∈ b
  · rw [appendExtras_append_right (List.mem_append_right mid hb), appendExtras_append_right hb]
    exact ⟨a, appendExtras map used b, List.append_assoc _ _ _⟩
  · have hmid : '\x7d' ∉ mid := h.resolve_right hb
    have hrest : '\x7d' ∉ mid ++ b := List.not_mem_append hmid hb
    by_cases ha : '\x7d' ∈ a
    · rw [appendExtras_append_left ha hrest]
      exact ⟨appendExtras map used a, b, List.append_assoc _ _ _⟩
    · rw [appendExtras_append_end ha hrest, appendExtras_append_end hmid hb]
      exact ⟨a, appendExtras map used b, List.append_assoc _ _ _⟩

theorem extrasText_head (h : extras map used ≠ []) :
    ∃ rest, extrasText map used = '\n' :: rest := by
  obtain ⟨e, es, hes⟩ := List.exists_cons_of_ne_nil h
  rw [extrasText, hes]
  exact ⟨_, rfl⟩

end Adding

/-! ## Where a pair comes to stand -/

def shift (rs : List Resolved) : Int :=
  (rs.map fun r => (r.text.length : Int) - ((r.hit.stop : Int) - r.hit.start)).sum

theorem shift_cons (r : Resolved) (rs : List Resolved) :
    shift (r :: rs) = r.text.length - ((r.hit.stop : Int) - r.hit.start) + shift rs :=
  List.sum_cons

/-- Where the piece for `r` begins when the pairs `before` it have been replaced. -/
def position (before : List Resolved) (r : Resolved) : Nat :=
  ((r.hit.start : Int) + shift before).toNat

theorem text_eq_replacement (map : Data.Pairs Text Text) (used : List Text) (start stop : Nat)
    (p : Pair) :
    Resolved.text ⟨⟨start, stop, p⟩, pairName p, choose map used (pairName p)⟩ =
      replacement map used p := rfl

-- As in `spliceFrom_eq_render`, the next character to be read stands at `pos + skip`.
theorem exists_around_render {map : Data.Pairs Text Text} {used : List Text} {s : Text}
    {pos skip : Nat} {prev : Option Char} {before after : List Resolved} {r : Resolved}
    (hskip : skip ≤ s.length)
    (h : resolvePairs map used (hitsFrom pair pos skip prev s) = before ++ r :: after) :
    ∃ a b, render map used (tokensFrom skip s) = a ++ (r.text ++ b) ∧
      (a.length : Int) = r.hit.start + shift before - (pos + skip) := by
  induction s generalizing used pos skip prev before with
  | nil => simp [hitsFrom, resolvePairs] at h
  | cons c s ih =>
      cases skip with
      | succ skip =>
          rw [hitsFrom] at h
          obtain ⟨a, b, hrender, hlength⟩ := ih (Nat.le_of_succ_le_succ hskip) h
          exact ⟨a, b, hrender, by omega⟩
      | zero =>
          rw [hitsFrom, show pair prev (c :: s) = pair none (c :: s) from rfl] at h
          rw [tokensFrom]
          cases hp : pair none (c :: s) with
          | none =>
              rw [hp] at h
              obtain ⟨a, b, hrender, hlength⟩ := ih (Nat.zero_le _) h
              refine ⟨c :: a, b, ?_, ?_⟩
              · rw [List.cons_append, ← hrender]
                rfl
              · rw [List.length_cons]
                omega
          | some found =>
              obtain ⟨n, p⟩ := found
              obtain ⟨rest, hs, hn⟩ := eq_append_of_pair hp
              have hpos := pair_length_pos p
              have hlen := congrArg List.length hs
              rw [List.length_cons, List.length_append] at hlen
              rw [hp] at h
              simp only [resolvePairs_cons] at h
              cases before with
              | nil =>
                  -- The pair itself: nothing stands before it.
                  obtain ⟨rfl, -⟩ := List.cons.inj h
                  exact ⟨[], render map (placing map used p) (tokensFrom (n - 1) s), rfl,
                    by simp [shift]⟩
              | cons q before =>
                  obtain ⟨rfl, htail⟩ := List.cons.inj h
                  obtain ⟨a, b, hrender, hlength⟩ := ih (by omega) htail
                  refine ⟨replacement map used p ++ a, b, ?_, ?_⟩
                  · rw [render, hrender, List.append_assoc]
                  · rw [List.length_append, shift_cons, text_eq_replacement]
                    simp only
                    omega

section Piece

variable {map : Data.Pairs Text Text} {text : Text} {before after : List Resolved} {r : Resolved}

def leading (map : Data.Pairs Text Text) (text : Text) (before : List Resolved) (r : Resolved) :
    Text :=
  (replaceMarked map text).take (position before r)

def trailing (map : Data.Pairs Text Text) (text : Text) (before : List Resolved) (r : Resolved) :
    Text :=
  (replaceMarked map text).drop (position before r + r.text.length)

theorem replaceMarked_eq_around (h : resolved map text = before ++ r :: after) :
    replaceMarked map text =
      leading map text before r ++ (r.text ++ trailing map text before r) := by
  obtain ⟨a, b, hrender, hlength⟩ := exists_around_render (Nat.zero_le _) h
  have hposition : position before r = a.length := by
    rw [position]
    omega
  have htext : replaceMarked map text = a ++ (r.text ++ b) :=
    (replaceMarked_eq_render map text).trans hrender
  rw [leading, trailing, hposition, htext, List.take_left, ← List.drop_drop, List.drop_left,
    List.drop_left]

theorem process_eq_around (h : resolved map text = before ++ r :: after) :
    process map text =
      appendExtras map (placedNames (resolved map text))
        (leading map text before r ++ (r.text ++ trailing map text before r)) := by
  have hne : text ≠ [] := by
    rintro rfl
    exact List.append_ne_nil_of_right_ne_nil before (List.cons_ne_nil r after) h.symm
  rw [process, if_neg fun hempty => hne (List.isEmpty_iff.mp hempty),
    ← replaceMarked_eq_around h]

theorem get?_of_placed {used : List Text} {hs : List (Hit Pair)} {body : Text}
    (hr : r ∈ resolvePairs map used hs) (hbody : r.resolution = .placed body) :
    map.get? r.name = some body := by
  induction hs generalizing used with
  | nil => exact absurd hr List.not_mem_nil
  | cons h hs ih =>
      rw [resolvePairs_cons] at hr
      rcases List.mem_cons.mp hr with rfl | hr
      · simp only [choose] at hbody
        split at hbody
        · cases hbody
        · split at hbody
          · next found => exact found.trans (congrArg some (Resolution.placed.inj hbody))
          · cases hbody
      · exact ih hr

theorem text_of_placed {body : Text} (h : r.resolution = .placed body) :
    r.text =
      startReplaced r.hit.value.id ++ "\n" ++ body ++ "\n" ++ endReplaced r.hit.value.id := by
  rw [Resolved.text, h]

/-- The extras pass a piece by: there are none, or the last brace is not in it. -/
def Spared (map : Data.Pairs Text Text) (text : Text) (before : List Resolved) (r : Resolved) :
    Prop :=
  extras map (placedNames (resolved map text)) = [] ∨ '\x7d' ∉ r.text ∨
    '\x7d' ∈ trailing map text before r

instance : Decidable (Spared map text before r) :=
  inferInstanceAs (Decidable (_ ∨ _ ∨ _))

/-- The extras are written into a piece, before its last brace. -/
def Divided (map : Data.Pairs Text Text) (text : Text) (before : List Resolved) (r : Resolved) :
    Prop :=
  extras map (placedNames (resolved map text)) ≠ [] ∧
    ∃ x y, r.text = x ++ '\x7d' :: y ∧ '\x7d' ∉ y ∧
      process map text = leading map text before r ++
        (x ++ extrasText map (placedNames (resolved map text)) ++ "\n" ++ '\x7d' :: y ++
          trailing map text before r)

theorem Spared.infix_process (h : resolved map text = before ++ r :: after)
    (hspared : Spared map text before r) : r.text <:+: process map text := by
  rw [process_eq_around h]
  rcases hspared with hnil | hbrace
  · rw [appendExtras_of_nil hnil]
    exact ⟨leading map text before r, trailing map text before r, List.append_assoc _ _ _⟩
  · exact infix_appendExtras hbrace

theorem appendExtras_within {used : List Text} {a x y b : Text} (hnil : extras map used ≠ [])
    (hy : '\x7d' ∉ y) (hb : '\x7d' ∉ b) :
    appendExtras map used (a ++ ((x ++ '\x7d' :: y) ++ b)) =
      a ++ (x ++ extrasText map used ++ "\n" ++ '\x7d' :: y ++ b) := by
  have hmem : '\x7d' ∈ x ++ '\x7d' :: y := List.mem_append_right x List.mem_cons_self
  rw [appendExtras_append_right (List.mem_append_left b hmem), appendExtras_append_left hmem hb,
    appendExtras_brace hnil x hy]

theorem divided_of_not_spared (h : resolved map text = before ++ r :: after)
    (hspared : ¬ Spared map text before r) : Divided map text before r := by
  obtain ⟨hnil, hmem, hb⟩ : extras map (placedNames (resolved map text)) ≠ [] ∧ '\x7d' ∈ r.text ∧
      '\x7d' ∉ trailing map text before r := by
    simpa only [Spared, not_or, not_not] using hspared
  obtain ⟨x, y, htext, hy⟩ := exists_last_of_mem hmem
  refine ⟨hnil, x, y, htext, hy, ?_⟩
  rw [process_eq_around h, ← appendExtras_within hnil hy hb, ← htext]

/-! ## Pieces that are found in the output -/

def occurrences (x : Text) : Text → Nat
  | [] => if startsWith x [] then 1 else 0
  | c :: s => (if startsWith x (c :: s) then 1 else 0) + occurrences x s

theorem occurrences_pos (x a b : Text) : 1 ≤ occurrences x (a ++ (x ++ b)) := by
  induction a with
  | nil =>
      have hx : startsWith x (x ++ b) = true := startsWith_append x b
      rw [List.nil_append]
      cases hs : x ++ b with
      | nil => rw [hs] at hx; rw [occurrences, if_pos hx]
      | cons c s => rw [hs] at hx; rw [occurrences, if_pos hx]; exact Nat.le_add_right _ _
  | cons c a ih => exact Nat.le_trans ih (Nat.le_add_left _ _)

theorem two_le_occurrences {x a b : Text} {c : Char}
    (h : startsWith x (c :: (a ++ (x ++ b))) = true) :
    2 ≤ occurrences x (c :: (a ++ (x ++ b))) := by
  have hrest := occurrences_pos x a b
  rw [occurrences, if_pos h]
  omega

/-- What occurs only once is found at one place only. -/
theorem eq_of_occurrences_le_one {x a b a' b' : Text} (heq : a ++ (x ++ b) = a' ++ (x ++ b'))
    (h : occurrences x (a ++ (x ++ b)) ≤ 1) : a = a' := by
  induction a generalizing a' with
  | nil =>
      cases a' with
      | nil => rfl
      | cons c a' =>
          have hx : startsWith x ([] ++ (x ++ b)) = true := startsWith_append x b
          rw [heq] at h hx
          exact absurd h (Nat.not_le.mpr (two_le_occurrences hx))
  | cons c a ih =>
      cases a' with
      | nil =>
          have hx : startsWith x ([] ++ (x ++ b')) = true := startsWith_append x b'
          rw [← heq] at hx
          exact absurd h (Nat.not_le.mpr (two_le_occurrences hx))
      | cons d a' =>
          obtain ⟨rfl, htail⟩ := List.cons.inj heq
          rw [ih htail (Nat.le_trans (Nat.le_add_left _ _) h)]

/-- The last brace of a placed piece comes after its first line: one in the id is
also in the last line. -/
theorem startReplaced_prefix_of_last_brace {id body x y : Text}
    (h : startReplaced id ++ "\n" ++ body ++ "\n" ++ endReplaced id = x ++ '\x7d' :: y)
    (hy : '\x7d' ∉ y) : startReplaced id <+: x := by
  let rest := "\n" ++ body ++ "\n" ++ endReplaced id
  have hsplit : startReplaced id ++ rest = x ++ '\x7d' :: y := by
    rw [← h]
    simp only [rest, List.append_assoc]
  have hrest : '\x7d' ∈ rest := by
    have hmem : '\x7d' ∈ startReplaced id ++ rest := by
      rw [hsplit]
      exact List.mem_append_right x List.mem_cons_self
    rcases List.mem_append.mp hmem with hstart | hrest
    · exact List.mem_append_right _ (brace_mem_endReplaced_iff.mpr
        (brace_mem_startReplaced_iff.mp hstart))
    · exact hrest
  obtain ⟨x', y', hlast, hy'⟩ := exists_last_of_mem hrest
  have hcut : cutLast? '\x7d' (x ++ '\x7d' :: y) =
      some (startReplaced id ++ x', '\x7d' :: y') := by
    rw [← hsplit, hlast, ← List.append_assoc]
    exact cutLast?_append _ hy'
  rw [cutLast?_append x hy] at hcut
  exact ⟨x', (Prod.mk.inj (Option.some.inj hcut)).1.symm⟩

/-- A piece that is divided is not found at its own place, and so nowhere if its
first line occurs only once. -/
theorem Divided.not_infix_process {body : Text} (hbody : r.resolution = .placed body)
    (h : Divided map text before r)
    (honce : occurrences (startReplaced r.hit.value.id) (process map text) ≤ 1) :
    ¬ r.text <:+: process map text := by
  obtain ⟨hnil, x, y, htext, hy, hprocess⟩ := h
  have hpiece := text_of_placed hbody
  obtain ⟨x', rfl⟩ := startReplaced_prefix_of_last_brace (hpiece.symm.trans htext) hy
  obtain ⟨rest, hextras⟩ := extrasText_head hnil
  rintro ⟨a, b, hab⟩
  rw [htext] at hab
  rw [hprocess] at hab honce
  simp only [List.append_assoc] at hab honce
  obtain rfl := eq_of_occurrences_le_one hab.symm honce
  -- Behind the common part there is a brace in the piece, a break in the output.
  have hbehind := List.append_cancel_left (List.append_cancel_left (List.append_cancel_left hab))
  rw [hextras] at hbehind
  exact absurd (List.cons.inj hbehind).1 (by decide)

/-- A placed piece is in the output in full unless the last brace is its own.  Then
the extras divide it, and unless its first line occurs twice it is nowhere. -/
theorem placed_infix_process_iff {body : Text} (hr : resolved map text = before ++ r :: after)
    (hbody : r.resolution = .placed body) :
    map.get? r.name = some body ∧
    r.text = startReplaced r.hit.value.id ++ "\n" ++ body ++ "\n" ++ endReplaced r.hit.value.id ∧
    (Spared map text before r → r.text <:+: process map text) ∧
    (¬ Spared map text before r → Divided map text before r) ∧
    (occurrences (startReplaced r.hit.value.id) (process map text) ≤ 1 →
      (r.text <:+: process map text ↔ Spared map text before r)) := by
  have hmem : r ∈ resolved map text := by
    rw [hr]
    exact List.mem_append_right before List.mem_cons_self
  refine ⟨get?_of_placed hmem hbody, text_of_placed hbody, Spared.infix_process hr,
    divided_of_not_spared hr, fun honce => ⟨fun hinfix => ?_, Spared.infix_process hr⟩⟩
  by_contra hspared
  exact (divided_of_not_spared hr hspared).not_infix_process hbody honce hinfix

end Piece

/-- Two marked methods with the brace of their class behind them. -/
def markedShop : Text :=
  "class Shop \x7b\n// <start-flagged:sell-2>\n  int sell() \x7b return 1; \x7d\n" ++
    "// <end-flagged:sell-2>\n// <start-flagged:count-1>\n  int count() \x7b return 0; \x7d\n" ++
    "// <end-flagged:count-1>\n\x7d"

/-- A class whose brace stands on the line of its only method. -/
def markedKiosk : Text :=
  "class Kiosk \x7b\n// <start-flagged:sell-1>\n  int sell() \x7b return 1; \x7d \x7d\n" ++
    "// <end-flagged:sell-1>"

def sellBody : Text := "int sell() \x7b return 3; \x7d"

def countBody : Text := "int count() \x7b return stock; \x7d"

/-- Code for both methods and for one that is not there. -/
def rewrittenShop : Data.Pairs Text Text :=
  [("sell", sellBody), ("buy", "int buy() \x7b return 2; \x7d"), ("count", countBody)]

def countPiece : Resolved where
  hit := ⟨90, 169, ⟨"count-1", "\n  int count() \x7b return 0; \x7d\n"⟩⟩
  name := "count"
  resolution := .placed countBody

theorem placed_infix_process_markedShop :
    resolved rewrittenShop markedShop = (resolved rewrittenShop markedShop).take 1 ++ [countPiece] ∧
      extras rewrittenShop (placedNames (resolved rewrittenShop markedShop)) ≠ [] ∧
      occurrences (startReplaced "count-1") (process rewrittenShop markedShop) ≤ 1 ∧
      countPiece.text <:+: process rewrittenShop markedShop := by
  have hr : resolved rewrittenShop markedShop =
      (resolved rewrittenShop markedShop).take 1 ++ [countPiece] := by decide +kernel
  have honce : occurrences (startReplaced "count-1") (process rewrittenShop markedShop) ≤ 1 := by
    decide +kernel
  have hspared : Spared rewrittenShop markedShop ((resolved rewrittenShop markedShop).take 1)
      countPiece := by decide +kernel
  have hiff := (placed_infix_process_iff hr rfl).2.2.2.2 honce
  exact ⟨hr, by decide +kernel, honce, hiff.mpr hspared⟩

def sellPiece : Resolved where
  hit := ⟨14, 92, ⟨"sell-1", "\n  int sell() \x7b return 1; \x7d \x7d\n"⟩⟩
  name := "sell"
  resolution := .placed sellBody

theorem sell_not_infix_process_markedKiosk :
    resolved rewrittenShop markedKiosk = [sellPiece] ∧
      ¬ sellPiece.text <:+: process rewrittenShop markedKiosk := by
  have hresolved : resolved rewrittenShop markedKiosk = [sellPiece] := by decide +kernel
  refine ⟨hresolved, occurs_eq_false_iff.mp ?_⟩
  decide +kernel

end Marker
end Refit

/-
The methods that are read from a response, and the methods at its top level.

The top-level methods are found one after the other: from where a method ends, the
next one is at the leftmost signature.  The methods that are read from a response
are found along the signatures of the whole text, each of which is looked for behind
the opening brace of the one before.  A signature inside a body that reaches beyond
the body's end can therefore hide the method that follows, and the two lists of
methods agree exactly where no signature is hidden in this way
(`scan_complete_iff_unhidden`).
-/
import Refit.Proofs.Replacement.Braces
import Refit.Proofs.Replacement.Signature

namespace Refit
namespace Replacement

open Text

variable {s : Text} {i p consumed : Nat} {h g : Hit Text} {hs : List (Hit Text)}

/-! ## Where a method ends -/

/-- The position after the brace that closes the body of the method, or the end of the text. -/
def methodEnd (s : Text) (h : Hit Text) : Nat := blockEnd s (h.stop - 1)

def methodAt (s : Text) (h : Hit Text) : Replacement :=
  ⟨h.value, tidy (slice s h.start (methodEnd s h))⟩

theorem methodEnd_within (hl : Leftmost Signature.recogniser s i h) :
    h.stop ≤ methodEnd s h ∧ methodEnd s h ≤ s.length := by
  have hlt := hl.start_lt
  have hle := hl.stop_le
  have hend := blockEnd_within (s := s) (p := h.stop - 1) (by omega)
  unfold methodEnd
  omega

/-! ## The top level -/

theorem sub_methodEnd_lt (hnext : nextHit? Signature.recogniser s i = some h) :
    s.length - methodEnd s h < s.length - i := by
  have hl := (nextHit?_eq_some_iff Signature.proper_recogniser).mp hnext
  have hend := methodEnd_within hl
  have hstart := hl.le_start
  have hlt := hl.start_lt
  omega

/-- The signatures of the top level from position `i` on. -/
def topLevelFrom (s : Text) (i : Nat) : List (Hit Text) :=
  match hnext : nextHit? Signature.recogniser s i with
  | none => []
  | some h =>
    have := sub_methodEnd_lt hnext
    h :: topLevelFrom s (methodEnd s h)
termination_by s.length - i

def topLevel (s : Text) : List (Hit Text) := topLevelFrom s 0

def topLevelMethods (s : Text) : List Replacement := (topLevel s).map (methodAt s)

theorem topLevelFrom_of_none (hnone : ∀ j, i ≤ j → readAt Signature.recogniser s j = none) :
    topLevelFrom s i = [] := by
  have hnext := (nextHit?_eq_none_iff Signature.proper_recogniser).mpr hnone
  rw [topLevelFrom]
  split
  · rfl
  · next hsome => exact absurd (hsome.symm.trans hnext) (Option.some_ne_none _)

theorem topLevelFrom_of_leftmost (hl : Leftmost Signature.recogniser s i h) :
    topLevelFrom s i = h :: topLevelFrom s (methodEnd s h) := by
  have hnext := (nextHit?_eq_some_iff Signature.proper_recogniser).mpr hl
  rw [topLevelFrom]
  split
  · next hnone => exact absurd (hnext.symm.trans hnone) (Option.some_ne_none _)
  · next hsome =>
    obtain rfl := Option.some.inj (hsome.symm.trans hnext)
    rfl

/-- The leftmost signature behind a method of the top level is at the top level as well. -/
theorem mem_topLevelFrom_of_leftmost (hmem : h ∈ topLevelFrom s i)
    (hl : Leftmost Signature.recogniser s (methodEnd s h) g) : g ∈ topLevelFrom s i := by
  fun_induction topLevelFrom s i with
  | case1 i hnone => exact absurd hmem List.not_mem_nil
  | case2 i h' hnext _ ih =>
      rcases List.mem_cons.mp hmem with rfl | hmem
      · rw [topLevelFrom_of_leftmost hl]
        exact List.mem_cons_of_mem _ List.mem_cons_self
      · exact List.mem_cons_of_mem _ (ih hmem)

/-! ## The signatures that a scan takes -/

/-- The signatures at which `collect` finds its methods. -/
def takenFrom (s : Text) : Nat → List (Hit Text) → List (Hit Text)
  | _, [] => []
  | consumed, h :: hs =>
    if h.start < consumed then takenFrom s consumed hs else h :: takenFrom s (methodEnd s h) hs

def taken (s : Text) : List (Hit Text) := takenFrom s 0 (hits Signature.recogniser s)

theorem collect_eq_map (s : Text) (consumed : Nat) (hs : List (Hit Text)) :
    collect s consumed hs = (takenFrom s consumed hs).map (methodAt s) := by
  induction hs generalizing consumed with
  | nil => rfl
  | cons h hs ih =>
      rw [collect, takenFrom]
      split
      · exact ih consumed
      · exact congrArg _ (ih _)

theorem takenFrom_sublist (s : Text) (consumed : Nat) (hs : List (Hit Text)) :
    (takenFrom s consumed hs).Sublist hs := by
  induction hs generalizing consumed with
  | nil => exact List.Sublist.refl []
  | cons h hs ih =>
      rw [takenFrom]
      split
      · exact (ih consumed).cons h
      · exact (ih _).cons_cons h

/-! ## Hidden signatures -/

/-- No signature that starts at `stop` or later is covered by one of `hs` that starts before. -/
def Clear (s : Text) (stop : Nat) (hs : List (Hit Text)) : Prop :=
  ∀ g ∈ hs, g.start < stop → ∀ i < g.stop, stop ≤ i → readAt Signature.recogniser s i = none

/-- No signature behind a method is covered by one that starts in or before the method. -/
def Unhidden (s : Text) : Prop :=
  ∀ h ∈ taken s, Clear s (methodEnd s h) (hits Signature.recogniser s)

instance (s : Text) (stop : Nat) (hs : List (Hit Text)) : Decidable (Clear s stop hs) :=
  inferInstanceAs (Decidable (∀ g ∈ hs, g.start < stop → ∀ i < g.stop, stop ≤ i → _))

instance (s : Text) : Decidable (Unhidden s) :=
  inferInstanceAs (Decidable (∀ h ∈ taken s, _))

theorem Clear.tail {stop : Nat} (hclear : Clear s stop (h :: hs)) : Clear s stop hs :=
  fun g hg => hclear g (List.mem_cons_of_mem _ hg)

theorem takenFrom_eq_topLevelFrom (hscan : Scanned Signature.recogniser s p hs)
    (hpassed : ∀ i < p, consumed ≤ i → readAt Signature.recogniser s i = none)
    (hclear : Clear s consumed hs)
    (htaken : ∀ h ∈ takenFrom s consumed hs, Clear s (methodEnd s h) hs) :
    takenFrom s consumed hs = topLevelFrom s consumed := by
  -- along the signatures, where none stands between `consumed` and the place reached
  induction hscan generalizing consumed with
  | @nil p hnone =>
      refine (topLevelFrom_of_none fun i hi => ?_).symm
      by_cases hip : i < p
      · exact hpassed i hip hi
      · exact hnone i (Nat.not_lt.mp hip)
  | @cons p h hs hleft hrest ih =>
      rw [takenFrom] at htaken ⊢
      split at htaken
      · next hstart =>
        rw [if_pos hstart]
        have hcovered := hclear h List.mem_cons_self hstart
        exact ih hcovered hclear.tail fun g hg => (htaken g hg).tail
      · next hstart =>
        rw [if_neg hstart]
        have hl : Leftmost Signature.recogniser s consumed h := by
          refine ⟨Nat.not_lt.mp hstart, hleft.start_lt, hleft.stop_le, hleft.read,
            fun i hlt hi => ?_⟩
          by_cases hip : i < p
          · exact hpassed i hip hi
          · exact hleft.none_before i hlt (Nat.not_lt.mp hip)
        have hend := methodEnd_within hleft
        rw [List.forall_mem_cons] at htaken
        rw [topLevelFrom_of_leftmost hl, ih (fun i hlt hi => by omega) htaken.1.tail
          fun g hg => (htaken.2 g hg).tail]

theorem taken_eq_topLevel_iff (s : Text) : taken s = topLevel s ↔ Unhidden s := by
  have hscan := scanned_hits Signature.proper_recogniser s
  constructor
  · intro heq h hh g hg hstart i hi hle
    -- the next method of the top level would be among the signatures, and overlap with `g`
    cases hread : readAt Signature.recogniser s i with
    | none => rfl
    | some piece =>
        cases hnext : nextHit? Signature.recogniser s (methodEnd s h) with
        | none =>
            have hnone := (nextHit?_eq_none_iff Signature.proper_recogniser).mp hnext i hle
            exact absurd (hread.symm.trans hnone) (Option.some_ne_none _)
        | some next =>
            have hl := (nextHit?_eq_some_iff Signature.proper_recogniser).mp hnext
            have hmem : next ∈ taken s := by
              rw [heq] at hh ⊢
              exact mem_topLevelFrom_of_leftmost hh hl
            have happart := hscan.stop_le_start hg ((takenFrom_sublist _ _ _).mem hmem)
              (Nat.lt_of_lt_of_le hstart hl.le_start)
            have hnone := hl.none_before i (Nat.lt_of_lt_of_le hi happart) hle
            exact absurd (hread.symm.trans hnone) (Option.some_ne_none _)
  · intro hun
    exact takenFrom_eq_topLevelFrom hscan (fun i hlt => absurd hlt (Nat.not_lt_zero i))
      (fun g _ hlt => absurd hlt (Nat.not_lt_zero _)) hun

/-- Every method that is read from a response has its own signature, and these are the signatures
of the top level exactly where none is hidden. -/
theorem scan_complete_iff_unhidden (response : Text) :
    scan response = (taken response).map (methodAt response) ∧
      (taken response = topLevel response ↔ Unhidden response) ∧
      (Unhidden response → scan response = topLevelMethods response) := by
  have hscan : scan response = (taken response).map (methodAt response) :=
    collect_eq_map response 0 _
  refine ⟨hscan, taken_eq_topLevel_iff response, fun hun => ?_⟩
  rw [hscan, (taken_eq_topLevel_iff response).mpr hun]
  rfl

/-- A body with a method of its own. -/
def countMethod : Text := "int count() \x7b\n    int of() \x7b return 1; \x7d\n\x7d"

def buyMethod : Text := "int buy() \x7b return 2; \x7d"

theorem scan_complete_countMethod :
    scan (countMethod ++ "\n" ++ buyMethod) = topLevelMethods (countMethod ++ "\n" ++ buyMethod) ∧
      scan (countMethod ++ "\n" ++ buyMethod) = [⟨"count", countMethod⟩, ⟨"buy", buyMethod⟩] := by
  have hun : Unhidden (countMethod ++ "\n" ++ buyMethod) := by decide +kernel
  exact ⟨(scan_complete_iff_unhidden _).2.2 hun, by decide +kernel⟩

/-- A comment in the body opens like the signature of a method. -/
def sellMethod : Text :=
  "int sell() \x7b\n    /*\n    see buy(\n    */\n    return 1;\n\x7d"

theorem scan_misses_buyMethod :
    scan (sellMethod ++ "\n" ++ buyMethod ++ "\n") = [⟨"sell", sellMethod⟩] ∧
      topLevelMethods (sellMethod ++ "\n" ++ buyMethod ++ "\n") =
        [⟨"sell", sellMethod⟩, ⟨"buy", buyMethod⟩] := by
  refine ⟨by decide +kernel, ?_⟩
  generalize hs : sellMethod ++ "\n" ++ buyMethod ++ "\n" = s
  have hsell : Leftmost Signature.recogniser s 0 ⟨0, 12, "sell"⟩ :=
    (nextHit?_eq_some_iff Signature.proper_recogniser).mp (hs ▸ by decide +kernel)
  have hbuy : Leftmost Signature.recogniser s (methodEnd s ⟨0, 12, "sell"⟩) ⟨56, 67, "buy"⟩ :=
    (nextHit?_eq_some_iff Signature.proper_recogniser).mp (hs ▸ by decide +kernel)
  have hnone := (nextHit?_eq_none_iff (s := s) (i := methodEnd s ⟨56, 67, "buy"⟩)
    Signature.proper_recogniser).mp (hs ▸ by decide +kernel)
  rw [topLevelMethods, topLevel, topLevelFrom_of_leftmost hsell, topLevelFrom_of_leftmost hbuy,
    topLevelFrom_of_none hnone, ← hs]
  decide +kernel

end Replacement
end Refit

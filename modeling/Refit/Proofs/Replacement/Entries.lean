/-
What is read from a response: names, and the texts that stand under them.

Every name is an identifier.  Every text is a piece of the response, or several
with blank lines between them, so a string that fits on one line occurs in a text
only if it occurs in the response (`infix_of_mem_parse`).
-/
import Refit.Proofs.Marker.Names
import Refit.Proofs.Replacement.Signature
import Refit.Proofs.Text.Hits
import Refit.Replacement

namespace Refit

namespace Text

theorem exists_trimEnd_append (p : Char → Bool) (s : Text) :
    ∃ tail, s = trimEnd p s ++ tail ∧ ∀ c ∈ tail, p c = true := by
  refine ⟨(s.reverse.takeWhile p).reverse, ?_, fun c hc => ?_⟩
  · rw [trimEnd, ← List.reverse_append, List.takeWhile_append_dropWhile, List.reverse_reverse]
  · exact List.all_eq_true.mp List.all_takeWhile c (List.mem_reverse.mp hc)

theorem isPrefix_trimEnd (p : Char → Bool) (s : Text) : trimEnd p s <+: s := by
  obtain ⟨tail, htail, -⟩ := exists_trimEnd_append p s
  exact ⟨tail, htail.symm⟩

end Text

namespace Replacement

open Text
open Marker (Identifier identifier_of_identifier?)

theorem identifier_of_recogniser {before : Option Char} {s name : Text} {n : Nat}
    (h : Signature.recogniser before s = some (n, name)) : Identifier name := by
  obtain ⟨s', -, rest, hnamed, -⟩ := Signature.recogniser_eq_some h
  obtain ⟨-, after, hid, -⟩ := Signature.named?_eq_some hnamed
  exact identifier_of_identifier? hid

theorem isInfix_tidy (s : Text) : tidy s <:+: s := by
  have hstart : trimStart (· == '\n') s <:+: s := (List.dropWhile_suffix _).isInfix
  have hend := (isPrefix_trimEnd (· == '\n') (trimStart (· == '\n') s)).isInfix
  exact ((isPrefix_trimEnd isBlank _).isInfix.trans hend).trans hstart

theorem isInfix_slice (s : Text) (start stop : Nat) : slice s start stop <:+: s :=
  (List.take_prefix _ _).isInfix.trans (List.drop_suffix _ _).isInfix

theorem mem_collect {s : Text} {consumed : Nat} {hits : List (Hit Text)} {r : Replacement}
    (h : r ∈ collect s consumed hits) : (∃ hit ∈ hits, r.name = hit.value) ∧ r.text <:+: s := by
  induction hits generalizing consumed with
  | nil => exact absurd h List.not_mem_nil
  | cons hit hits ih =>
      have hrest : ∀ {from_ : Nat}, r ∈ collect s from_ hits →
          (∃ hit' ∈ hit :: hits, r.name = hit'.value) ∧ r.text <:+: s := by
        intro from_ hr
        obtain ⟨⟨hit', hmem, hname⟩, htext⟩ := ih hr
        exact ⟨⟨hit', List.mem_cons_of_mem _ hmem, hname⟩, htext⟩
      rw [collect] at h
      split at h
      · exact hrest h
      · rcases List.mem_cons.mp h with rfl | h
        · exact ⟨⟨hit, List.mem_cons_self, rfl⟩, (isInfix_tidy _).trans (isInfix_slice _ _ _)⟩
        · exact hrest h

theorem identifier_of_mem_scan {response : Text} {r : Replacement} (h : r ∈ scan response) :
    Identifier r.name := by
  obtain ⟨⟨hit, hmem, hname⟩, -⟩ := mem_collect h
  rw [hname]
  obtain ⟨_, _, _, -, hr⟩ := Text.exists_suffix_of_mem_hitsFrom hmem
  exact identifier_of_recogniser hr

theorem text_infix_of_mem_scan {response : Text} {r : Replacement} (h : r ∈ scan response) :
    r.text <:+: response :=
  (mem_collect h).2

/-- What holds of each method and is kept when texts are joined holds of each entry. -/
theorem entry_of_mem_byName {P : Text → Text → Prop} {found : List Replacement}
    (hfound : ∀ r ∈ found, P r.name r.text)
    (hjoin : ∀ name a b, P name a → P name b → P name (a ++ "\n\n" ++ b)) {e : Text × Text}
    (h : e ∈ byName found) : P e.1 e.2 := by
  refine List.foldlRecOn found _ (motive := fun m => ∀ e ∈ m, P e.1 e.2) ?_ ?_ e h
  · exact fun e he => absurd he List.not_mem_nil
  · intro m hm r hr e he
    rcases Data.Pairs.mem_alter he with he | rfl | ⟨old, hold, rfl⟩
    · exact hm e he
    · exact hfound r hr
    · exact hjoin r.name old r.text (hm _ hold) (hfound r hr)

section Parse

variable {response : Text} {e : Text × Text}

theorem identifier_of_mem_parse (h : e ∈ parse response) : Identifier e.1 :=
  entry_of_mem_byName (P := fun name _ => Identifier name) (fun _ hr => identifier_of_mem_scan hr)
    (fun _ _ _ hname _ => hname) h

theorem infix_of_mem_parse {needle : Text} (hn : '\n' ∉ needle) (h : e ∈ parse response)
    (hin : needle <:+: e.2) : needle <:+: response := by
  refine entry_of_mem_byName (P := fun _ text => needle <:+: text → needle <:+: response)
    (fun r hr hin => hin.trans (text_infix_of_mem_scan hr)) ?_ h hin
  intro _ a b ha hb hin
  have hjoined : a ++ "\n\n" ++ b = a ++ '\n' :: ([] ++ '\n' :: b) := by
    rw [List.append_assoc]
    rfl
  rw [hjoined, infix_append_break hn, infix_append_break hn] at hin
  rcases hin with hin | hin | hin
  · exact ha hin
  · exact hin.trans List.nil_infix
  · exact hb hin

end Parse

end Replacement
end Refit

/-
Lines of a report in their written form.

A note is what a report line is written from: a path, a line number, a rule and a
message.  Messages may hold further colons and numbers, and paths may hold colons,
so a line could be cut in several places.  The shortest path that a remark follows
is the one the line was written from as long as no colon of the path stands
directly before a digit, and this is all that is asked of the path
(`split?_text`).
-/
import Mathlib.Data.List.Chain
import Refit.Proofs.Text.Breaks
import Refit.Report

namespace Refit
namespace Report

open Text (isBlank isBreak isDigit)
open scoped Text

/-- What a line of a report is written from.  The number is kept as it is spelled. -/
structure Note where
  path : Text
  digits : Text
  rule : Text
  message : Text
  path_ne_nil : path ≠ [] := by decide
  path_start : ∀ c ∈ path.head?, isBlank c = false := by decide
  path_colons : path.IsChain fun c d => c = ':' → isDigit d = false := by decide
  path_unbroken : ∀ c ∈ path, isBreak c = false := by decide
  digits_ne_nil : digits ≠ [] := by decide
  digits_only : ∀ c ∈ digits, isDigit c = true := by decide
  rule_ne_nil : rule ≠ [] := by decide
  rule_only : ∀ c ∈ rule, isRuleChar c = true := by decide
  message_ne_nil : message ≠ [] := by decide
  message_start : ∀ c ∈ message.head?, isBlank c = false := by decide
  message_stop : ∀ c ∈ message.getLast?, isBlank c = false := by decide
  message_unbroken : ∀ c ∈ message, isBreak c = false := by decide

theorem isBlank_of_isRuleChar {c : Char} (h : isRuleChar c = true) : isBlank c = false := by
  rw [isRuleChar, Bool.or_eq_true, beq_iff_eq] at h
  rcases h with h | rfl
  · exact Text.isBlank_of_isWord h
  · decide

/-! ## The parts of a line -/

theorem message?_blank (digits rule : Text) {message : Text} (hne : message ≠ [])
    (hstart : ∀ c ∈ message.head?, isBlank c = false)
    (hstop : ∀ c ∈ message.getLast?, isBlank c = false) :
    message? digits rule (' ' :: message) = some ⟨digits, rule, message⟩ := by
  have htrim : Text.trim (' ' :: message) = message := by
    show Text.trim ([' '] ++ message) = message
    rw [Text.trim_append_of_blank (by decide), Text.trim_of_ends hstart hstop]
  simp [message?, htrim, hne]

theorem rule?_blank (digits : Text) {rule : Text} (hne : rule ≠ [])
    (hrule : ∀ c ∈ rule, isRuleChar c = true) (rest : Text) :
    rule? digits (' ' :: (rule ++ ':' :: rest)) = message? digits rule rest := by
  have hcolon : ∀ c ∈ (':' :: rest).head?, isRuleChar c = false :=
    Text.forall_mem_head?_cons.mpr (by decide)
  have htrim : Text.trimStart isBlank (' ' :: (rule ++ ':' :: rest)) = rule ++ ':' :: rest := by
    show ([' '] ++ (rule ++ ':' :: rest)).dropWhile isBlank = _
    rw [Text.dropWhile_append_of_head (by decide)]
    cases hr : rule with
    | nil => exact absurd hr hne
    | cons c rule' =>
        exact Text.forall_mem_head?_cons.mpr (isBlank_of_isRuleChar (hrule c (by simp [hr])))
  simp [rule?, htrim, Text.takeWhile_append_of_head hrule hcolon,
    Text.dropWhile_append_of_head hrule hcolon, hne]

theorem remark?_colon {digits : Text} (hne : digits ≠ [])
    (hdigits : ∀ c ∈ digits, isDigit c = true) (rest : Text) :
    remark? (':' :: (digits ++ ':' :: rest)) = rule? digits rest := by
  have hcolon : ∀ c ∈ (':' :: rest).head?, isDigit c = false :=
    Text.forall_mem_head?_cons.mpr (by decide)
  simp [remark?, Text.takeWhile_append_of_head hdigits hcolon,
    Text.dropWhile_append_of_head hdigits hcolon, hne]

theorem remark?_eq_none {c d : Char} {s : Text} (h : c = ':' → isDigit d = false) :
    remark? (c :: d :: s) = none := by
  by_cases hc : c = ':'
  · subst hc
    simp [remark?, h rfl]
  · unfold remark?
    split
    · next h => exact absurd (List.cons.inj h).1 hc
    · rfl

/-- The first place where a remark follows is behind a path with no number in it. -/
theorem split?_append {path rest : Text} {r : Remark} (hne : path ≠ [])
    (hcolons : path.IsChain fun c d => c = ':' → isDigit d = false)
    (hrest : ∀ c ∈ rest.head?, isDigit c = false) (hr : remark? rest = some r) :
    split? (path ++ rest) = some (path, r) := by
  induction path with
  | nil => exact absurd rfl hne
  | cons c path ih =>
      cases path with
      | nil => simp [split?, hr]
      | cons d path =>
          -- What follows `c` does not start a remark, whether or not `d` ends the path.
          have hnone : remark? (d :: path ++ rest) = none := by
            cases path with
            | nil =>
                cases rest with
                | nil => simp [remark?] at hr
                | cons e rest => exact remark?_eq_none fun _ => hrest e rfl
            | cons e path =>
                rw [List.isChain_cons_cons, List.isChain_cons_cons] at hcolons
                exact remark?_eq_none hcolons.2.1
          have htail := ih (List.cons_ne_nil _ _) (List.isChain_cons_cons.mp hcolons).2
          rw [List.cons_append, split?, hnone]
          show (split? (d :: path ++ rest)).map _ = _
          rw [htail]
          rfl

/-! ## The whole line -/

namespace Note

def text (n : Note) : Text :=
  n.path ++ ":" ++ n.digits ++ ": " ++ n.rule ++ ": " ++ n.message

theorem text_eq (n : Note) :
    n.text = n.path ++ ':' :: (n.digits ++ ':' :: ' ' :: (n.rule ++ ':' :: ' ' :: n.message)) := by
  simp [text]

variable (n : Note)

theorem text_ne_nil : n.text ≠ [] := by
  simp [text, n.path_ne_nil]

theorem unbroken : ∀ c ∈ n.text, isBreak c = false := by
  have hword : ∀ c, isRuleChar c = true → isBreak c = false := by
    intro c hc
    by_contra hbreak
    rw [Bool.not_eq_false] at hbreak
    have hblank := isBlank_of_isRuleChar hc
    rw [Text.isBlank_of_isBreak hbreak] at hblank
    exact Bool.false_ne_true hblank.symm
  intro c hc
  simp only [text_eq, List.mem_append, List.mem_cons] at hc
  rcases hc with hc | rfl | hc | rfl | rfl | hc | rfl | rfl | hc
  · exact n.path_unbroken c hc
  · decide
  · apply hword
    rw [isRuleChar, Text.isWord_of_isDigit (n.digits_only c hc), Bool.true_or]
  · decide
  · decide
  · exact hword c (n.rule_only c hc)
  · decide
  · decide
  · exact n.message_unbroken c hc

theorem trim_text : Text.trim n.text = n.text := by
  apply Text.trim_of_ends
  · rw [text_eq, List.head?_append_of_ne_nil _ n.path_ne_nil]
    exact n.path_start
  · rw [text, List.getLast?_append_of_ne_nil _ n.message_ne_nil]
    exact n.message_stop

theorem split?_text : split? n.text = some (n.path, ⟨n.digits, n.rule, n.message⟩) := by
  rw [text_eq]
  apply split?_append n.path_ne_nil n.path_colons
  · exact Text.forall_mem_head?_cons.mpr (by decide)
  · rw [remark?_colon n.digits_ne_nil n.digits_only, rule?_blank _ n.rule_ne_nil n.rule_only,
      message?_blank _ _ n.message_ne_nil n.message_start n.message_stop]

theorem readLine_text :
    readLine n.text = readRemark n.text n.path ⟨n.digits, n.rule, n.message⟩ := by
  simp [readLine, n.trim_text, n.text_ne_nil, n.split?_text]

end Note
end Report
end Refit

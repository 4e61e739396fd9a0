/-
Which measures are read back from a summary.

A line of a finding gives its rule and the first number behind the first "has".
The rule is read as one word, while reports admit dashes in the names of rules,
so a rule with a dash is never found again and any other always is
(`metrics_summary_contains_iff`).
-/
import Mathlib.Data.List.TakeWhile
import Refit.Proofs.Request.Summary
import Refit.Proofs.Text.Hits
import Refit.Quality.Metric
import Refit.Report

namespace Refit
namespace Quality

open Text

/-! ## The number of a message -/

theorem numberAfterSpace?_append {x number rest : Text}
    (hx : ∀ d, isDigit d = true → ¬ [' ', d] <:+: x) (hne : number ≠ [])
    (hnumber : ∀ c ∈ number, isDigit c = true) (hrest : ∀ c ∈ rest.head?, isDigit c = false) :
    numberAfterSpace? (x ++ ' ' :: (number ++ rest)) = some (number, rest) := by
  induction x with
  | nil =>
      obtain ⟨d, ds, rfl⟩ := List.exists_cons_of_ne_nil hne
      have hd := hnumber d List.mem_cons_self
      rw [List.nil_append, List.cons_append, numberAfterSpace?, if_pos ⟨rfl, hd⟩,
        ← List.cons_append, takeWhile_append_of_head hnumber hrest,
        dropWhile_append_of_head hnumber hrest]
  | cons c x ih =>
      have hrec := ih fun d hd h => hx d hd (List.infix_cons_iff.mpr (.inr h))
      cases x with
      | nil =>
          have hblank : ¬ (c = ' ' ∧ isDigit ' ' = true) := fun h => absurd h.2 (by decide)
          rw [List.cons_append, List.nil_append, numberAfterSpace?, if_neg hblank]
          exact hrec
      | cons c' x =>
          have hpair : ¬ (c = ' ' ∧ isDigit c' = true) := by
            rintro ⟨rfl, hd⟩
            exact hx c' hd (List.prefix_append [' ', c'] x).isInfix
          rw [List.cons_append, List.cons_append, numberAfterSpace?, if_neg hpair]
          exact hrec

/-- The first " has " ends where the given one does, or reaches into it by the one
character that it begins and ends with. -/
theorem exists_cut?_has {a : Text} (ha : ¬ (" has " : Text) <:+: a) (t : Text) :
    ∃ before extra, cut? " has " (a ++ (" has " ++ t)) = some (before, extra ++ t) ∧
      (extra = [] ∨ extra = ("has " : Text)) := by
  induction a with
  | nil => exact ⟨[], [], cut?_append_self (by decide) t, .inl rfl⟩
  | cons c a ih =>
      rw [List.infix_cons_iff, not_or] at ha
      rw [List.cons_append, cut?]
      cases hafter : after? " has " (c :: (a ++ (" has " ++ t))) with
      | none =>
          obtain ⟨before, extra, hcut, hextra⟩ := ih ha.2
          exact ⟨c :: before, extra, by rw [hcut]; rfl, hextra⟩
      | some rest =>
          refine ⟨[], "has ".toList, ?_, .inr rfl⟩
          have heq := after?_eq_some_iff.mp hafter
          -- It begins in `a` but does not end there, so `a` is shorter than it.
          rcases a with _ | ⟨c₁, _ | ⟨c₂, _ | ⟨c₃, _ | ⟨c₄, a⟩⟩⟩⟩
          · simp at heq
          · simp at heq
          · simp at heq
          · obtain ⟨-, -, -, -, rfl⟩ : c = ' ' ∧ c₁ = 'h' ∧ c₂ = 'a' ∧ c₃ = 's' ∧
                ("has " : Text) ++ t = rest := by simpa using heq
            rfl
          · obtain ⟨rfl, rfl, rfl, rfl, rfl, -⟩ : c = ' ' ∧ c₁ = 'h' ∧ c₂ = 'a' ∧ c₃ = 's' ∧
                c₄ = ' ' ∧ a ++ ((" has " : Text) ++ t) = rest := by simpa using heq
            exact absurd (List.prefix_append _ a) ha.1

/-- The message is `a has b number rest`, where this "has" is the first and `number`
is the first number behind it, in full. -/
structure Measures (message a b number rest : Text) : Prop where
  text : message = a ++ " has " ++ b ++ " " ++ number ++ rest
  first : ¬ (" has " : Text) <:+: a
  next : ∀ d, isDigit d = true → ¬ [' ', d] <:+: ' ' :: b
  numeral : number ≠ []
  digits : ∀ c ∈ number, isDigit c = true
  whole : ∀ c ∈ rest.head?, isDigit c = false

theorem Measures.measure?_eq {message a b number rest : Text}
    (h : Measures message a b number rest) : measure? message = some (number, rest) := by
  have htext : message = a ++ (" has " ++ (b ++ ' ' :: (number ++ rest))) := by
    rw [h.text]
    simp
  obtain ⟨before, extra, hcut, hextra⟩ := exists_cut?_has h.first (b ++ ' ' :: (number ++ rest))
  have hclear : ∀ d, isDigit d = true → ¬ [' ', d] <:+: extra ++ b := by
    intro d hd hin
    apply h.next d hd
    rcases hextra with rfl | rfl
    · exact List.infix_cons_iff.mpr (.inr hin)
    · simpa [List.infix_cons_iff] using hin
  rw [measure?, htext, hcut]
  simp only [← List.append_assoc extra]
  exact numberAfterSpace?_append hclear h.numeral h.digits h.whole

/-! ## The recogniser of metrics -/

theorem exists_of_metric {before : Option Char} {s rule digits : Text} {n : Nat}
    (h : metric before s = some (n, (rule, digits))) :
    n ≤ s.length ∧ (∀ c ∈ rule, isWord c = true) ∧
      ∃ rest left, rest <:+ s ∧ measure? (rest.takeWhile (· != '\n')) = some (digits, left) := by
  simp only [metric] at h
  cases hlead : after? "- " s with
  | none =>
      rw [hlead] at h
      cases h
  | some s' =>
      cases hcolon : after? ": " (s'.dropWhile isWord) with
      | none =>
          simp only [hlead, hcolon, ite_self] at h
          cases h
      | some rest =>
          simp only [hlead, hcolon] at h
          split at h
          · exact absurd h.symm (Option.some_ne_none _)
          · obtain ⟨⟨digits', left⟩, hmeasure, heq⟩ := Option.map_eq_some_iff.mp h
            obtain ⟨rfl, hvalue⟩ := Prod.mk.inj heq
            obtain ⟨rfl, rfl⟩ := Prod.mk.inj hvalue
            refine ⟨Nat.sub_le _ _, fun c hc => List.all_eq_true.mp List.all_takeWhile c hc,
              rest, left, ?_, hmeasure⟩
            have hs : s' <:+ s := ⟨_, (after?_eq_some_iff.mp hlead).symm⟩
            have hrest : rest <:+ s'.dropWhile isWord := ⟨_, (after?_eq_some_iff.mp hcolon).symm⟩
            exact hrest.trans ((List.dropWhile_suffix isWord).trans hs)

theorem linewise_metric : Recogniser.Linewise metric where
  free _ _ _ := rfl
  nil _ := rfl
  within _ _ _ _ h := (exists_of_metric h).1
  keeps before x y _ := by
    have hword : isWord '\n' = false := by decide
    simp only [metric]
    rw [after?_append_break (by decide)]
    cases after? "- " x with
    | none => rfl
    | some s =>
        simp only [Option.map_some, takeWhile_append_break hword, dropWhile_append_break hword]
        split
        · rfl
        · rw [after?_append_break (by decide)]
          cases after? ": " (s.dropWhile isWord) with
          | none => rfl
          | some rest =>
              have hlength : (rest.takeWhile (· != '\n')).length ≤ rest.length :=
                (List.takeWhile_prefix _).length_le
              simp only [Option.map_some, takeWhile_append_break (p := (· != '\n')) rfl,
                List.length_append, List.length_cons]
              congr 1
              funext r
              congr 1
              omega

/-- A line that gives a rule made of one word and a measure is recognised. -/
theorem metric_line {rule message number rest : Text} (hne : rule ≠ [])
    (hrule : ∀ c ∈ rule, isWord c = true) (hmessage : '\n' ∉ message)
    (hmeasure : measure? message = some (number, rest)) (before : Option Char) :
    ∃ n, metric before ("- " ++ (rule ++ (": " ++ message))) = some (n, (rule, number)) := by
  have hcolon : ∀ c ∈ ((": " : Text) ++ message).head?, isWord c = false := by
    intro c hc
    obtain rfl : ':' = c := Option.some.inj hc
    decide
  have hline : message.takeWhile (· != '\n') = message := by
    refine List.takeWhile_eq_self_iff.mpr fun c hc => ?_
    rw [bne_iff_ne]
    exact fun he => hmessage (he ▸ hc)
  have hlead : ∀ lead t : Text, after? lead (lead ++ t) = some t := fun lead t =>
    after?_eq_some_iff.mpr rfl
  simp only [metric, hlead, takeWhile_append_of_head hrule hcolon,
    dropWhile_append_of_head hrule hcolon, hline, hmeasure]
  rw [if_neg (by simpa using hne)]
  exact ⟨_, rfl⟩

/-! ## The digits that are read -/

theorem digits_of_numberAfterSpace? {s digits left : Text}
    (h : numberAfterSpace? s = some (digits, left)) :
    digits <:+: s ∧ ∀ c ∈ digits, isDigit c = true := by
  fun_induction numberAfterSpace? s with
  | case1 => cases h
  | case2 => cases h
  | case3 c d s hc =>
      obtain ⟨rfl, -⟩ := Prod.mk.inj (Option.some.inj h)
      refine ⟨?_, fun c hc => List.all_eq_true.mp List.all_takeWhile c hc⟩
      exact List.infix_cons_iff.mpr (.inr (List.takeWhile_prefix isDigit).isInfix)
  | case4 c d s hc ih =>
      obtain ⟨hpiece, hdigits⟩ := ih h
      exact ⟨List.infix_cons_iff.mpr (.inr hpiece), hdigits⟩

theorem digits_of_measure? {line digits left : Text} (h : measure? line = some (digits, left)) :
    digits <:+: line ∧ ∀ c ∈ digits, isDigit c = true := by
  rw [measure?] at h
  split at h
  · next before rest hcut =>
    obtain ⟨hpiece, hdigits⟩ := digits_of_numberAfterSpace? h
    have hrest : rest <:+ line := ⟨_, (eq_append_of_cut? hcut).symm⟩
    exact ⟨hpiece.trans hrest.isInfix, hdigits⟩
  · exact absurd h.symm (Option.some_ne_none _)

theorem reading_of_mem_values {s rule digits : Text} (h : (rule, digits) ∈ values metric s) :
    (∀ c ∈ rule, isWord c = true) ∧ digits <:+: s ∧ ∀ c ∈ digits, isDigit c = true := by
  obtain ⟨hit, hhit, hvalue⟩ := List.mem_map.mp h
  obtain ⟨before, s', n, hsuffix, hr⟩ := exists_suffix_of_mem_hitsFrom hhit
  rw [hvalue] at hr
  obtain ⟨-, hrule, rest, left, hrest, hmeasure⟩ := exists_of_metric hr
  obtain ⟨hpiece, hdigits⟩ := digits_of_measure? hmeasure
  have hline := hpiece.trans (List.takeWhile_prefix _).isInfix
  exact ⟨hrule, hline.trans (hrest.trans hsuffix).isInfix, hdigits⟩

/-! ## The table of values -/

def readings (pairs : List (Text × Text)) (rule : Text) : List Nat :=
  (pairs.filter fun e => e.1 = rule).map fun e => digitsValue e.2

/-- The entry of a table after new values came behind the old ones. -/
def extended (old : Option (List Nat)) (new : List Nat) : Option (List Nat) :=
  if new = [] then old else some (old.getD [] ++ new)

theorem readings_cons_self (rule digits : Text) (pairs : List (Text × Text)) :
    readings ((rule, digits) :: pairs) rule = digitsValue digits :: readings pairs rule := by
  simp [readings]

theorem readings_cons_of_ne {rule rule' : Text} (h : rule ≠ rule') (digits : Text)
    (pairs : List (Text × Text)) :
    readings ((rule, digits) :: pairs) rule' = readings pairs rule' := by
  simp [readings, h]

theorem extended_cons (old : Option (List Nat)) (n : Nat) (new : List Nat) :
    extended old (n :: new) = extended (some (old.getD [] ++ [n])) new := by
  cases new <;> simp [extended]

theorem addMetrics_eq_ok {pairs : List (Text × Text)}
    (h : ∀ e ∈ pairs, e.2.length ≤ Number.digitLimit) (m : Data.Pairs Text (List Nat)) :
    ∃ table, addMetrics pairs m = .ok table ∧
      ∀ rule, table.get? rule = extended (m.get? rule) (readings pairs rule) := by
  induction pairs generalizing m with
  | nil => exact ⟨m, rfl, fun rule => rfl⟩
  | cons e pairs ih =>
      obtain ⟨rule, digits⟩ := e
      rw [List.forall_mem_cons] at h
      obtain ⟨table, hadd, htable⟩ :=
        ih h.2 (m.alter rule fun old => old.getD [] ++ [digitsValue digits])
      have hnumber : Number.ofDigits digits = .ok (digitsValue digits) :=
        if_neg (Nat.not_lt.mpr h.1)
      refine ⟨table, ?_, fun rule' => ?_⟩
      · rw [addMetrics, hnumber]
        exact hadd
      · rw [htable]
        by_cases hrule : rule = rule'
        · subst hrule
          rw [Data.Pairs.get?_alter, readings_cons_self, extended_cons]
        · rw [Data.Pairs.get?_alter_of_ne _ _ hrule, readings_cons_of_ne hrule]

/-- No run of digits in a text is too long for a number. -/
def ShortRuns (s : Text) : Prop :=
  ∀ run, run <:+: s → (∀ c ∈ run, isDigit c = true) → run.length ≤ Number.digitLimit

theorem shortRuns_of_length_le {s : Text} (h : s.length ≤ Number.digitLimit) : ShortRuns s :=
  fun _ hrun _ => hrun.length_le.trans h

theorem metrics_eq_ok {s : Text} (h : ShortRuns s) :
    ∃ table, metrics s = .ok table ∧
      ∀ rule, table.get? rule = extended none (readings (values metric s) rule) := by
  refine addMetrics_eq_ok (fun e he => ?_) []
  obtain ⟨-, hpiece, hdigits⟩ := reading_of_mem_values he
  exact h e.2 hpiece hdigits

/-! ## The lines of a summary -/

theorem exists_lines_of_summary {blocks : List Block} (hne : blocks ≠ []) {shown : Text}
    (hsummary : Request.summary blocks = .ok shown) :
    ∃ lines, Request.Summary.lines blocks = .ok lines ∧ shown = ofFileLines lines ++ "\n" := by
  rw [Request.summary, if_neg (by simpa using hne)] at hsummary
  cases hlines : Request.Summary.lines blocks with
  | error fault =>
      rw [hlines] at hsummary
      cases hsummary
  | ok lines =>
      rw [hlines] at hsummary
      exact ⟨lines, rfl, (Except.ok.inj hsummary).symm⟩

theorem findingLine_mem_fileLines {blocks : List Block} (hne : blocks ≠ []) {shown : Text}
    (hsummary : Request.summary blocks = .ok shown) {f : Finding}
    (hf : f ∈ Request.Summary.listed blocks) (hrule : '\n' ∉ f.rule) (hmessage : '\n' ∉ f.message) :
    Request.Summary.findingLine f ∈ fileLines shown := by
  obtain ⟨lines, hlines, rfl⟩ := exists_lines_of_summary hne hsummary
  have hline : Request.Summary.findingLine f ∈ lines := by
    have hmem := List.mem_map_of_mem (f := Request.Summary.findingLine) hf
    rw [← Request.Summary.filter_lines hlines] at hmem
    exact (List.mem_filter.mp hmem).1
  have hbreak : '\n' ∉ Request.Summary.findingLine f := by
    have hlead : '\n' ∉ ("    - " : Text) := by decide
    have hcolon : '\n' ∉ (": " : Text) := by decide
    show '\n' ∉ ("    - " : Text) ++ f.rule ++ ": " ++ f.message
    simp only [List.mem_append, not_or]
    exact ⟨⟨⟨hlead, hrule⟩, hcolon⟩, hmessage⟩
  refine fileLines_append_break _ [] ▸ List.mem_append_left _ ?_
  rw [fileLines_ofFileLines (List.ne_nil_of_mem hline)]
  exact List.mem_flatMap.mpr ⟨_, hline, fileLines_of_notMem hbreak ▸ List.mem_singleton_self _⟩

theorem mem_values_findingLine {f : Finding} (hne : f.rule ≠ [])
    (hrule : ∀ c ∈ f.rule, isWord c = true) (hmessage : '\n' ∉ f.message) {number rest : Text}
    (hmeasure : measure? f.message = some (number, rest)) :
    (f.rule, number) ∈ values metric (Request.Summary.findingLine f) := by
  obtain ⟨n, hmetric⟩ := metric_line hne hrule hmessage hmeasure none
  have hmem := mem_values_of_eq_some linewise_metric hmetric
  have hskip : ∀ s, values metric (' ' :: s) = values metric s := fun s =>
    values_cons_of_none linewise_metric rfl
  have hline : Request.Summary.findingLine f =
      ' ' :: ' ' :: ' ' :: ' ' :: ("- " ++ (f.rule ++ (": " ++ f.message))) := by
    show ("    - " : Text) ++ f.rule ++ ": " ++ f.message = _
    rw [List.append_assoc, List.append_assoc]
    rfl
  rwa [hline, hskip, hskip, hskip, hskip]

theorem mem_readings_summary {blocks : List Block} (hne : blocks ≠ []) {shown : Text}
    (hsummary : Request.summary blocks = .ok shown) {f : Finding}
    (hf : f ∈ Request.Summary.listed blocks) (hsome : f.rule ≠ [])
    (hrule : ∀ c ∈ f.rule, isWord c = true) (hmessage : '\n' ∉ f.message) {number rest : Text}
    (hmeasure : measure? f.message = some (number, rest)) :
    digitsValue number ∈ readings (values metric shown) f.rule := by
  have hbreak : '\n' ∉ f.rule := fun h => absurd (hrule _ h) (by decide)
  have hmem : (f.rule, number) ∈ values metric shown := by
    rw [values_eq_flatMap linewise_metric]
    exact List.mem_flatMap.mpr ⟨_, findingLine_mem_fileLines hne hsummary hf hbreak hmessage,
      mem_values_findingLine hsome hrule hmessage hmeasure⟩
  exact List.mem_map.mpr ⟨_, List.mem_filter.mpr ⟨hmem, decide_eq_true rfl⟩, rfl⟩

/-- A rule with a dash gets no value from any text. -/
theorem readings_of_dash {rule : Text} (h : '-' ∈ rule) (s : Text) :
    readings (values metric s) rule = [] := by
  have hnone : (values metric s).filter (fun e => e.1 = rule) = [] := by
    refine List.filter_eq_nil_iff.mpr fun e he heq => ?_
    obtain rfl := of_decide_eq_true heq
    exact absurd ((reading_of_mem_values he).1 '-' h) (by decide)
  rw [readings, hnone]
  rfl

theorem get?_metrics_of_dash {s : Text} (hruns : ShortRuns s) {table : Data.Pairs Text (List Nat)}
    (hmetrics : metrics s = .ok table) {rule : Text} (h : '-' ∈ rule) : table.get? rule = none := by
  obtain ⟨table', hmetrics', htable⟩ := metrics_eq_ok hruns
  obtain rfl : table' = table := Except.ok.inj (hmetrics'.symm.trans hmetrics)
  rw [htable, readings_of_dash h]
  rfl

/-- The measure of a listed finding is read back exactly where its rule has no dash, and a
rule with a dash has no entry at all. -/
theorem metrics_summary_contains_iff {blocks : List Block} (hne : blocks ≠ []) {shown : Text}
    (hsummary : Request.summary blocks = .ok shown) (hruns : ShortRuns shown) {f : Finding}
    (hf : f ∈ Request.Summary.listed blocks) (hsome : f.rule ≠ [])
    (hrule : ∀ c ∈ f.rule, Report.isRuleChar c = true) (hmessage : '\n' ∉ f.message)
    {a b number rest : Text} (hmeasures : Measures f.message a b number rest) :
    ∃ table, metrics shown = .ok table ∧
      ((∃ values, table.get? f.rule = some values ∧ digitsValue number ∈ values) ↔
        '-' ∉ f.rule) ∧
      ('-' ∈ f.rule → table.get? f.rule = none) := by
  obtain ⟨table, hmetrics, htable⟩ := metrics_eq_ok hruns
  have hdash : '-' ∈ f.rule → table.get? f.rule = none := get?_metrics_of_dash hruns hmetrics
  refine ⟨table, hmetrics, ⟨?_, fun h => ?_⟩, hdash⟩
  · rintro ⟨values, hvalues, -⟩ h
    rw [hdash h] at hvalues
    cases hvalues
  · have hword : ∀ c ∈ f.rule, isWord c = true := by
      intro c hc
      rcases Bool.or_eq_true_iff.mp (hrule c hc) with hword | hc'
      · exact hword
      · exact absurd (eq_of_beq hc' ▸ hc) h
    have hmem := mem_readings_summary hne hsummary hf hsome hword hmessage hmeasures.measure?_eq
    refine ⟨_, (htable _).trans (if_neg (List.ne_nil_of_mem hmem)), ?_⟩
    exact hmem

section Counted

def dashed : Finding := ⟨71, "Line-Count", "The class has a total of 9 lines", by decide⟩

/-- Its message could be taken for a second measure. -/
def undashed : Finding :=
  ⟨73, "Line_Count", "sell() - 2: part has a body of 3 lines, 1 over", by decide⟩

def countedBlocks : List Block :=
  [⟨"Shop.java", .type, ⟨71, 79, by decide, by decide⟩, some "class Shop \x7b".toList, [dashed],
      none⟩,
    ⟨"Shop.java", .method, ⟨73, 75, by decide, by decide⟩, some "void sell()".toList, [undashed],
      none⟩]

def countedSummary : Text :=
  "Analysis Summary for file: Shop.java\n\nType Signature: class Shop (Lines 71-79)\n" ++
    "    - Line-Count: The class has a total of 9 lines\n\n  Method (Lines 73-75)\n" ++
    "    - Line_Count: sell() - 2: part has a body of 3 lines, 1 over\n"

theorem summary_countedBlocks : Request.summary countedBlocks = .ok countedSummary := by
  have htypes : Request.Summary.types countedBlocks = countedBlocks.take 1 :=
    List.mergeSort_singleton _
  show (Request.Summary.lines countedBlocks).map _ = _
  rw [Request.Summary.lines, htypes]
  decide +kernel

theorem shortRuns_countedSummary : ShortRuns countedSummary :=
  shortRuns_of_length_le (by decide +kernel)

theorem mem_listed_countedBlocks : dashed ∈ Request.Summary.listed countedBlocks ∧
    undashed ∈ Request.Summary.listed countedBlocks := by
  rw [(Request.Summary.listed_perm _).mem_iff, (Request.Summary.listed_perm _).mem_iff]
  decide

theorem measures_dashed : Measures dashed.message "The class" "a total of" "9" " lines" where
  text := rfl
  first := by decide
  next d hd h := by
    have hletter : d = 'a' ∨ d = 't' ∨ d = 'o' := by simpa [List.infix_cons_iff] using h
    rcases hletter with rfl | rfl | rfl <;> exact absurd hd (by decide)
  numeral := by decide
  digits := List.all_eq_true.mp (by decide)
  whole := by
    rintro c ⟨⟩
    decide

theorem measures_undashed :
    Measures undashed.message "sell() - 2: part" "a body of" "3" " lines, 1 over" where
  text := rfl
  first := by decide
  next d hd h := by
    have hletter : d = 'a' ∨ d = 'b' ∨ d = 'o' := by simpa [List.infix_cons_iff] using h
    rcases hletter with rfl | rfl | rfl <;> exact absurd hd (by decide)
  numeral := by decide
  digits := List.all_eq_true.mp (by decide)
  whole := by
    rintro c ⟨⟩
    decide

end Counted

/-- The measure of the method is found behind its name. -/
theorem metrics_summary_contains_undashed :
    countedBlocks ≠ [] ∧ Request.summary countedBlocks = .ok countedSummary ∧
      ShortRuns countedSummary ∧ undashed ∈ Request.Summary.listed countedBlocks ∧
      undashed.rule ≠ [] ∧
      (∀ c ∈ undashed.rule, Report.isRuleChar c = true) ∧ '\n' ∉ undashed.message ∧
      Measures undashed.message "sell() - 2: part" "a body of" "3" " lines, 1 over" ∧
      ∃ table values, metrics countedSummary = .ok table ∧
        table.get? undashed.rule = some values ∧ 3 ∈ values := by
  have hne : countedBlocks ≠ [] := List.cons_ne_nil _ _
  have hf := mem_listed_countedBlocks.2
  have hsome : undashed.rule ≠ [] := by decide
  have hrule : ∀ c ∈ undashed.rule, Report.isRuleChar c = true := List.all_eq_true.mp (by decide)
  have hmessage : '\n' ∉ undashed.message := by decide
  obtain ⟨table, hmetrics, hiff, -⟩ := metrics_summary_contains_iff hne summary_countedBlocks
    shortRuns_countedSummary hf hsome hrule hmessage measures_undashed
  obtain ⟨values, hvalues, hmem⟩ := hiff.mpr (by decide)
  exact ⟨hne, summary_countedBlocks, shortRuns_countedSummary, hf, hsome, hrule, hmessage,
    measures_undashed, table, values, hmetrics, hvalues, hmem⟩

/-- That of the class is lost: its rule has a dash. -/
theorem metrics_summary_lacks_dashed :
    countedBlocks ≠ [] ∧ Request.summary countedBlocks = .ok countedSummary ∧
      ShortRuns countedSummary ∧ dashed ∈ Request.Summary.listed countedBlocks ∧
      dashed.rule ≠ [] ∧
      (∀ c ∈ dashed.rule, Report.isRuleChar c = true) ∧ '\n' ∉ dashed.message ∧
      Measures dashed.message "The class" "a total of" "9" " lines" ∧
      ¬ ∃ table values, metrics countedSummary = .ok table ∧
        table.get? dashed.rule = some values ∧ 9 ∈ values := by
  refine ⟨List.cons_ne_nil _ _, summary_countedBlocks, shortRuns_countedSummary,
    mem_listed_countedBlocks.1, by decide, List.all_eq_true.mp (by decide), by decide,
    measures_dashed, ?_⟩
  rintro ⟨table, values, hmetrics, hvalues, -⟩
  have hnone := get?_metrics_of_dash shortRuns_countedSummary hmetrics
    (by decide : '-' ∈ dashed.rule)
  rw [hnone] at hvalues
  cases hvalues

end Quality
end Refit

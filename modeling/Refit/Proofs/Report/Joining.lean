/-
Reports are read line by line, and two reports with a break between them give
the findings of the one and then those of the other.

A line that says nothing usable costs only itself, with one exception: a line
number with too many digits ends the reading of the whole report.  So reading
comes to an end exactly on the reports without such a line, `Legible`, and there
the findings are those of the single lines.  Everything follows from one
equation, `said_append`, and from what collecting makes of a list of lines.
-/
import Refit.Proofs.Data.Gather
import Refit.Proofs.Report.Notes

namespace Refit
namespace Report

open Text (isBreak)
open scoped Text

/-! ## What lines say -/

namespace Line

/-- The finding of a line with its path. -/
def located? : Line → Option (Text × Finding)
  | .finding path f => some (path, f)
  | _ => none

end Line

def located (report : Text) : List (Text × Finding) := (read report).filterMap Line.located?

/-- No line number of a report has more digits than are read. -/
def Legible (report : Text) : Prop :=
  ∀ line ∈ Text.reportLines report, ∀ path r, split? (Text.trim line) = some (path, r) →
    r.digits.length ≤ Number.digitLimit

/-- What the lines of a report say, the blank ones left out. -/
def said (report : Text) : List Line := (read report).filter fun l => l ≠ .blank

theorem readLine_of_blank {w : Text} (hw : ∀ c ∈ w, Text.isBlank c = true) :
    readLine w = .blank := by
  simp [readLine, Text.trim_of_blank hw]

theorem said_eq (report : Text) :
    said report = (((Text.reportLines report).filter fun l => !l.isEmpty).map readLine).filter
      fun l => l ≠ .blank := by
  rw [said, read, List.filter_map, List.filter_map, List.filter_filter]
  congr 1
  apply List.filter_congr
  intro line _
  cases line with
  | nil => rfl
  | cons c line => simp

theorem said_append {c : Char} (hc : isBreak c = true) (a b : Text) :
    said (a ++ c :: b) = said a ++ said b := by
  rw [said_eq, Text.filter_reportLines_append hc, List.map_append, List.filter_append, ← said_eq,
    ← said_eq]

theorem said_of_line {s : Text} (h : ∀ c ∈ s, isBreak c = false) (hne : s ≠ []) :
    said s = [readLine s].filter fun l => l ≠ .blank := by
  rw [said_eq, Text.filter_reportLines_of_line h hne, List.map_singleton]

theorem located_eq (report : Text) : located report = (said report).filterMap Line.located? := by
  rw [located, said, List.filterMap_filter]
  congr 1
  funext l
  cases l <;> rfl

theorem located_append {c : Char} (hc : isBreak c = true) (a b : Text) :
    located (a ++ c :: b) = located a ++ located b := by
  rw [located_eq, said_append hc, List.filterMap_append, ← located_eq, ← located_eq]

theorem readLine_eq_overlong_iff {line : Text} :
    readLine line = .overlong ↔
      ∃ path r, split? (Text.trim line) = some (path, r) ∧ Number.digitLimit < r.digits.length := by
  simp only [readLine]
  split
  · next h =>
    rw [List.isEmpty_iff.mp h]
    simp [split?]
  · split
    · next path r hsplit =>
      by_cases hlong : Number.digitLimit < r.digits.length
      · simp [readRemark, Number.ofDigits, hlong, hsplit]
      · have hread : readRemark (Text.trim line) path r ≠ .overlong := by
          simp only [readRemark, Number.ofDigits, if_neg hlong]
          split <;> simp
        simp [hread, hsplit, hlong]
    · next hsplit => simp [hsplit]

theorem legible_iff {report : Text} : Legible report ↔ .overlong ∉ said report := by
  have hread : .overlong ∈ said report ↔ .overlong ∈ read report := by simp [said]
  rw [hread, read, List.mem_map]
  simp only [readLine_eq_overlong_iff, not_exists, not_and, Nat.not_lt]
  rfl

theorem legible_append {c : Char} (hc : isBreak c = true) (a b : Text) :
    Legible (a ++ c :: b) ↔ Legible a ∧ Legible b := by
  rw [legible_iff, said_append hc, List.mem_append, not_or, ← legible_iff, ← legible_iff]

instance (report : Text) : Decidable (Legible report) := decidable_of_iff _ legible_iff.symm

/-! ## Collecting -/

/-- A line adds its finding, if it has one, to what is collected behind it. -/
theorem outcome_collect_cons {line : Line} (h : line ≠ .overlong) (lines : List Line) :
    (collect (line :: lines)).outcome =
      (collect lines).outcome.map fun found => line.located?.toList ++ found := by
  cases line with
  | overlong => exact absurd rfl h
  | finding path f =>
      rw [collect, Logged.outcome_bind]
      rfl
  | blank | unrecognised | misplaced =>
      rw [collect, Logged.outcome_bind]
      · show (collect lines).outcome = _
        cases (collect lines).outcome <;> rfl
      all_goals simp

theorem outcome_collect (lines : List Line) :
    (collect lines).outcome =
      if .overlong ∈ lines then .error .tooManyDigits
      else .ok (lines.filterMap Line.located?) := by
  induction lines with
  | nil => rfl
  | cons line lines ih =>
      by_cases hline : line = .overlong
      · subst hline
        rw [if_pos List.mem_cons_self]
        rfl
      · have hmem : .overlong ∈ line :: lines ↔ .overlong ∈ lines := by
          rw [List.mem_cons, or_iff_right (Ne.symm hline)]
        rw [outcome_collect_cons hline, ih]
        simp only [hmem]
        split
        · rfl
        · cases hfound : line.located? <;> simp [hfound, Except.map]

theorem outcome_collect_read (report : Text) :
    (collect (read report)).outcome =
      if Legible report then .ok (located report) else .error .tooManyDigits := by
  have hmem : .overlong ∈ read report ↔ ¬ Legible report := by
    rw [legible_iff, not_not]
    simp [said]
  rw [outcome_collect]
  simp only [hmem, ite_not]
  rfl

theorem outcome_findings (report : Text) :
    (findings report).outcome =
      if Legible report then .ok ((located report).map Prod.snd) else .error .tooManyDigits := by
  rw [findings, Logged.outcome_bind, outcome_collect_read]
  split <;> rfl

/-! ## By path -/

theorem byPath_eq_tabulate (found : List (Text × Finding)) :
    byPath found = Data.Pairs.tabulate (Data.Pairs.under found) (found.map Prod.fst).eraseDups :=
  Data.Pairs.gather_eq_tabulate (fun old f => old.getD [] ++ [f]) id
    (fun _ => rfl) (fun _ _ _ => rfl) found

theorem outcome_findingsByFile (report : Text) :
    (findingsByFile report).outcome =
      if Legible report then
        .ok (Data.Pairs.tabulate (Data.Pairs.under (located report))
          ((located report).map Prod.fst).eraseDups)
      else .error .tooManyDigits := by
  rw [findingsByFile, Logged.outcome_bind, outcome_collect_read]
  split
  · rw [← byPath_eq_tabulate]
    rfl
  · rfl

/-! ## Joined reports -/

/-- A report is read exactly if it is legible.  What two joined reports give is
then what the first gives and after it what the second gives, and a fault in
either is a fault of both.  By path the same findings are listed under the paths
in the order in which they come up, each path with its own findings in order. -/
theorem findings_of_joined_reports (a b : Text) :
    (findings (a ++ "\n" ++ b)).outcome =
        (do
          let found ← (findings a).outcome
          let more ← (findings b).outcome
          return found ++ more) ∧
      ((∃ found, (findings a).outcome = .ok found) ↔ Legible a) ∧
      (Legible (a ++ "\n" ++ b) ↔ Legible a ∧ Legible b) ∧
      ∀ found, (findings a).outcome = .ok found →
        found = (located a).map Prod.snd ∧ (∀ f ∈ found, 1 ≤ f.line) ∧
        (findingsByFile a).outcome = .ok (((located a).map Prod.fst).eraseDups.map fun path =>
          (path, ((located a).filter fun e => e.1 = path).map Prod.snd)) ∧
        ∀ path ∈ ((located a).map Prod.fst).eraseDups,
          ((located a).filter fun e => e.1 = path).map Prod.snd ≠ [] ∧
          (((located a).filter fun e => e.1 = path).map Prod.snd).Sublist found := by
  have hbreak : isBreak '\n' = true := by decide
  have hjoin : a ++ "\n" ++ b = a ++ '\n' :: b := by simp
  have hlegible := legible_append hbreak a b
  rw [hjoin]
  refine ⟨?_, ?_, hlegible, fun found hfound => ?_⟩
  · rw [outcome_findings, outcome_findings a, outcome_findings b]
    by_cases ha : Legible a
    · by_cases hb : Legible b
      · rw [if_pos (hlegible.mpr ⟨ha, hb⟩), if_pos ha, if_pos hb, located_append hbreak,
          List.map_append]
        rfl
      · rw [if_neg fun h => hb (hlegible.mp h).2, if_pos ha, if_neg hb]
        rfl
    · rw [if_neg fun h => ha (hlegible.mp h).1, if_neg ha]
      rfl
  · rw [outcome_findings]
    by_cases ha : Legible a
    · simp [ha]
    · simp [ha]
  · rw [outcome_findings] at hfound
    split at hfound
    · next ha =>
      obtain rfl := Except.ok.inj hfound
      refine ⟨rfl, fun f _ => f.line_pos, ?_, fun path hpath => ⟨?_, ?_⟩⟩
      · rw [outcome_findingsByFile, if_pos ha]
        rfl
      · exact Data.Pairs.under_ne_nil_iff.mpr (List.mem_eraseDups.mp hpath)
      · exact List.filter_sublist.map _
    · exact absurd hfound (by simp)

/-- A finding, a line that is none, and a finding before the first line. -/
def stockReport : Text := "Shop.java:3: Doc: missing\r\nC: 3 of 4 done\nShop.java:0: Doc: missing"

/-- Two findings in two files, the first with its number in other digits. -/
def tillReport : Text := "\n D:/Till.java:٤٢:\tLine-Count: has 9: too many \rShop.java:7: Size: 12"

theorem findings_of_joined_stock_reports :
    Legible stockReport ∧ Legible tillReport ∧
      (findings stockReport).outcome = .ok [⟨3, "Doc", "missing", by decide⟩] ∧
      (findings (stockReport ++ "\n" ++ tillReport)).outcome =
        .ok [⟨3, "Doc", "missing", by decide⟩, ⟨42, "Line-Count", "has 9: too many", by decide⟩,
          ⟨7, "Size", "12", by decide⟩] ∧
      (findingsByFile tillReport).outcome =
        .ok [("D:/Till.java", [⟨42, "Line-Count", "has 9: too many", by decide⟩]),
          ("Shop.java", [⟨7, "Size", "12", by decide⟩])] := by
  have ha : (findings stockReport).outcome = .ok [⟨3, "Doc", "missing", by decide⟩] := by
    decide +kernel
  have hb : (findings tillReport).outcome =
      .ok [⟨42, "Line-Count", "has 9: too many", by decide⟩, ⟨7, "Size", "12", by decide⟩] := by
    decide +kernel
  obtain ⟨hjoin, hlegible, -, -⟩ := findings_of_joined_reports stockReport tillReport
  obtain ⟨-, hlegible', -, hpaths⟩ := findings_of_joined_reports tillReport stockReport
  rw [ha, hb] at hjoin
  obtain ⟨-, -, hfiles, -⟩ := hpaths _ hb
  refine ⟨hlegible.mp ⟨_, ha⟩, hlegible'.mp ⟨_, hb⟩, ha, hjoin, hfiles.trans ?_⟩
  decide +kernel

/-- A line of a report whose number has one digit too many. -/
def endlessNote : Note where
  path := "Shop.java"
  digits := List.replicate 4301 '1'
  rule := "Doc"
  message := "missing"
  digits_ne_nil := List.ne_nil_of_length_pos (by rw [List.length_replicate]; decide)
  digits_only := by
    intro c hc
    rw [List.eq_of_mem_replicate hc]
    decide

theorem readLine_endlessNote : readLine endlessNote.text = .overlong := by
  rw [readLine_eq_overlong_iff, endlessNote.trim_text]
  refine ⟨_, _, endlessNote.split?_text, ?_⟩
  show Number.digitLimit < (List.replicate 4301 '1').length
  rw [List.length_replicate]
  decide

/-- The finding of the first line is lost with the number of the second. -/
theorem joined_report_not_read :
    (findings "Shop.java:3: Doc: missing").outcome = .ok [⟨3, "Doc", "missing", by decide⟩] ∧
      ¬ ∃ found, (findings ("Shop.java:3: Doc: missing" ++ "\n" ++ endlessNote.text)).outcome =
        .ok found := by
  have hbreak : isBreak '\n' = true := by decide
  have hjoin : ("Shop.java:3: Doc: missing" : Text) ++ "\n" ++ endlessNote.text =
      "Shop.java:3: Doc: missing" ++ '\n' :: endlessNote.text := by simp
  have hlast : .overlong ∈ said endlessNote.text := by
    rw [said_of_line endlessNote.unbroken endlessNote.text_ne_nil, readLine_endlessNote]
    decide
  have hillegible : ¬ Legible ("Shop.java:3: Doc: missing" ++ '\n' :: endlessNote.text) := by
    intro h
    exact legible_iff.mp ((legible_append hbreak _ _).mp h).2 hlast
  refine ⟨by decide +kernel, ?_⟩
  rintro ⟨found, hfound⟩
  rw [hjoin, outcome_findings, if_neg hillegible] at hfound
  exact absurd hfound (by simp)

end Report
end Refit

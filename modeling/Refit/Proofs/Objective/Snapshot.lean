/-
The kept table is a snapshot.

What a session reads through the kept table are the files and the path as they were at the first
reading that found a table, since it was last dropped.  A reading that fails keeps nothing, and the next
one reads afresh.  `Unfilled` and `FirstFound` say this about the steps taken and leave the store out;
the store is tied to them by what it keeps after each step.
-/
import Mathlib.Data.List.Induction
import Refit.Objective.Document
import Refit.Objective.Session

namespace Refit
namespace Objective

variable {α : Type}

/-! ## What is in force after some steps -/

def Step.files (files : Disk α) : Step α → Disk α
  | .write path content => (files.write (Path.ofText path) content).1
  | .delete path => (files.remove (Path.ofText path)).toOption.getD files
  | _ => files

def Step.newPath? : Step α → Option Text
  | .setPath path => some path
  | _ => none

def filesAfter (past : List (Step α)) : Disk α := past.foldl Step.files Disk.empty

/-- The path that was set last. -/
def pathAfter (past : List (Step α)) : Text :=
  (past.filterMap Step.newPath?).getLast?.getD Store.defaultPath

variable (reader : Reader α)

/-- The table that would be read after some steps, whatever is kept. -/
def inForce (past : List (Step α)) : Except Fault Table :=
  (Store.tableAt reader (filesAfter past) (Path.ofText (pathAfter past))).map Prod.fst

/-- No step since the last clear, or since the start, has found a table: those that asked for it have
failed. -/
def Unfilled (past : List (Step α)) : Prop :=
  ∃ older recent, past = older ++ recent ∧ (older = [] ∨ older.getLast? = some .clear) ∧
    ∀ before step later, recent = before ++ step :: later →
      step ≠ .clear ∧ (step.usesTable = true → ∀ t, inForce reader (older ++ before) ≠ .ok t)

/-- The first step since the last clear that found a table is the one after `before`, and `t` is what
it found. -/
def FirstFound (past before : List (Step α)) (t : Table) : Prop :=
  Unfilled reader before ∧ inForce reader before = .ok t ∧
    ∃ reading later, past = before ++ reading :: later ∧ reading.usesTable = true ∧
      ∀ step ∈ later, step ≠ .clear

/-! ## One step -/

/-- What a step that asks for the table answers from it. -/
def Step.answerFrom (t : Table) : Step α → Answer
  | .instruction => .text t.instruction
  | .rule name => .text (t.objective name)
  | .rules names => .text (t.combined names)
  | .payload blocks => .text (Request.payloadText t true blocks)
  | _ => .nothing

namespace Step

variable {reader} {s : Store α} {step : Step α}

theorem answer_of_usesTable (h : step.usesTable = true) :
    step.answer reader s = (s.table reader).map step.answerFrom := by
  cases step with
  | payload blocks =>
      have hne : blocks.isEmpty = false := by simpa [usesTable] using h
      simp only [answer, hne]
      rfl
  | instruction => rfl
  | rule name => rfl
  | rules names => rfl
  | _ => simp [usesTable] at h

theorem next_of_usesTable (h : step.usesTable = true) : step.next reader s = s.keep reader := by
  cases step with
  | payload blocks => simp [next, h]
  | instruction => rfl
  | rule name => rfl
  | rules names => rfl
  | _ => simp [usesTable] at h

/-- Only readings and clears touch what is kept. -/
theorem kept_next (h : step.usesTable = false) (hclear : step ≠ .clear) :
    (step.next reader s).kept = s.kept := by
  cases step with
  | payload blocks => simp [next, h]
  | clear => exact absurd rfl hclear
  | instruction => simp [usesTable] at h
  | rule name => simp [usesTable] at h
  | rules names => simp [usesTable] at h
  | _ => rfl

theorem kept_next_of_some {t : Table} (hkept : s.kept = some t) (hclear : step ≠ .clear) :
    (step.next reader s).kept = some t := by
  by_cases huses : step.usesTable = true
  · rw [next_of_usesTable huses, Store.keep, Store.table, hkept]
    rfl
  · rw [kept_next (by simpa using huses) hclear, hkept]

theorem kept_next_of_none (hkept : s.kept = none) (huses : step.usesTable = true) :
    (step.next reader s).kept = (s.load reader).toOption := by
  rw [next_of_usesTable huses, Store.keep, Store.table, hkept]

theorem files_next (s : Store α) (step : Step α) :
    (step.next reader s).files = step.files s.files := by
  cases step with
  | payload blocks =>
      simp only [next, files]
      split <;> rfl
  | _ => rfl

theorem path_next (s : Store α) (step : Step α) :
    (step.next reader s).path = step.newPath?.getD s.path := by
  cases step with
  | payload blocks =>
      simp only [next, newPath?]
      split <;> rfl
  | _ => rfl

end Step

/-! ## Whole sessions -/

def Store.after (s : Store α) (past : List (Step α)) : Store α := past.foldl (Step.next reader) s

variable {reader}

theorem session_append (s : Store α) (past rest : List (Step α)) :
    session reader s (past ++ rest) =
      session reader s past ++ session reader (s.after reader past) rest := by
  induction past generalizing s with
  | nil => rfl
  | cons step past ih =>
      rw [List.cons_append, session, session, ih, List.cons_append]
      rfl

theorem Store.after_append (s : Store α) (past later : List (Step α)) :
    s.after reader (past ++ later) = (s.after reader past).after reader later :=
  List.foldl_append

theorem Store.after_concat (s : Store α) (past : List (Step α)) (step : Step α) :
    s.after reader (past ++ [step]) = step.next reader (s.after reader past) :=
  s.after_append past [step]

theorem files_after (past : List (Step α)) :
    (Store.initial.after reader past).files = filesAfter past := by
  induction past using List.reverseRecOn with
  | nil => rfl
  | append_singleton past step ih =>
      rw [Store.after_concat, Step.files_next, ih, filesAfter, filesAfter, List.foldl_append]
      rfl

theorem path_after (past : List (Step α)) :
    (Store.initial.after reader past).path = pathAfter past := by
  induction past using List.reverseRecOn with
  | nil => rfl
  | append_singleton past step ih =>
      rw [Store.after_concat, Step.path_next, ih, pathAfter, pathAfter, List.filterMap_append]
      cases hpath : step.newPath? with
      | none => simp [hpath]
      | some path => simp [hpath]

theorem load_after (past : List (Step α)) :
    (Store.initial.after reader past).load reader = inForce reader past := by
  rw [Store.load, inForce, files_after, path_after]

theorem kept_after_of_some {s : Store α} {t : Table} {later : List (Step α)}
    (hkept : s.kept = some t) (hlater : ∀ step ∈ later, step ≠ .clear) :
    (s.after reader later).kept = some t := by
  induction later generalizing s with
  | nil => exact hkept
  | cons step later ih =>
      rw [List.forall_mem_cons] at hlater
      exact ih (Step.kept_next_of_some hkept hlater.1) hlater.2

theorem kept_after_of_cleared {older : List (Step α)}
    (h : older = [] ∨ older.getLast? = some .clear) :
    (Store.initial.after reader older).kept = none := by
  rcases h with rfl | hlast
  · rfl
  · obtain ⟨before, rfl⟩ := List.getLast?_eq_some_iff.mp hlast
    rw [Store.after_concat]
    rfl

theorem Unfilled.kept_after {past : List (Step α)} (h : Unfilled reader past) :
    (Store.initial.after reader past).kept = none := by
  obtain ⟨older, recent, rfl, holder, hrecent⟩ := h
  -- Along the recent steps: each leaves the empty place empty, for want of a table.
  induction recent using List.reverseRecOn with
  | nil =>
      rw [List.append_nil]
      exact kept_after_of_cleared holder
  | append_singleton recent step ih =>
      have hkept := ih fun before other later heq =>
        hrecent before other (later ++ [step]) (by rw [heq]; simp)
      obtain ⟨hclear, hfails⟩ := hrecent recent step [] rfl
      rw [← List.append_assoc, Store.after_concat]
      by_cases huses : step.usesTable = true
      · rw [Step.kept_next_of_none hkept huses, load_after]
        cases hforce : inForce reader (older ++ recent) with
        | error fault => rfl
        | ok t => exact absurd hforce (hfails huses t)
      · rw [Step.kept_next (by simpa using huses) hclear, hkept]

theorem FirstFound.kept_after {past before : List (Step α)} {t : Table}
    (h : FirstFound reader past before t) : (Store.initial.after reader past).kept = some t := by
  obtain ⟨hunfilled, hforce, reading, later, rfl, hreading, hlater⟩ := h
  rw [List.append_cons, Store.after_append, Store.after_concat]
  refine kept_after_of_some ?_ hlater
  rw [Step.kept_next_of_none hunfilled.kept_after hreading, load_after, hforce]
  rfl

/-! ## What is kept has been found -/

theorem unfilled_nil : Unfilled reader [] := by
  refine ⟨[], [], rfl, .inl rfl, fun before step later heq => ?_⟩
  simp at heq

theorem unfilled_clear (past : List (Step α)) : Unfilled reader (past ++ [.clear]) := by
  refine ⟨past ++ [.clear], [], by simp, .inr (by simp), fun before step later heq => ?_⟩
  simp at heq

theorem Unfilled.concat {past : List (Step α)} {step : Step α} (h : Unfilled reader past)
    (hclear : step ≠ .clear)
    (hfails : step.usesTable = true → ∀ t, inForce reader past ≠ .ok t) :
    Unfilled reader (past ++ [step]) := by
  obtain ⟨older, recent, rfl, holder, hrecent⟩ := h
  refine ⟨older, recent ++ [step], List.append_assoc .., holder, fun before other later heq => ?_⟩
  -- The step at hand is the new one, or stands among the recent ones.
  rcases List.eq_nil_or_concat later with rfl | ⟨later, last, rfl⟩
  · obtain ⟨rfl, hlast⟩ := List.append_inj' heq rfl
    rw [← List.singleton_inj.mp hlast]
    exact ⟨hclear, hfails⟩
  · rw [List.concat_eq_append, ← List.cons_append, ← List.append_assoc] at heq
    exact hrecent before other later (List.append_inj' heq rfl).1

theorem Unfilled.firstFound {past : List (Step α)} {step : Step α} {t : Table}
    (h : Unfilled reader past) (hstep : step.usesTable = true) (ht : inForce reader past = .ok t) :
    FirstFound reader (past ++ [step]) past t :=
  ⟨h, ht, step, [], rfl, hstep, by simp⟩

theorem FirstFound.concat {past before : List (Step α)} {step : Step α} {t : Table}
    (h : FirstFound reader past before t) (hclear : step ≠ .clear) :
    FirstFound reader (past ++ [step]) before t := by
  obtain ⟨hunfilled, hforce, reading, later, rfl, hreading, hlater⟩ := h
  refine ⟨hunfilled, hforce, reading, later ++ [step], by simp, hreading, ?_⟩
  rw [List.forall_mem_append, List.forall_mem_singleton]
  exact ⟨hlater, hclear⟩

theorem unfilled_or_firstFound (past : List (Step α)) :
    Unfilled reader past ∨ ∃ before t, FirstFound reader past before t := by
  induction past using List.reverseRecOn with
  | nil => exact .inl unfilled_nil
  | append_singleton past step ih =>
      by_cases hclear : step = .clear
      · exact .inl (hclear ▸ unfilled_clear past)
      · rcases ih with hunfilled | ⟨before, t, hfirst⟩
        · by_cases hfound : step.usesTable = true ∧ ∃ t, inForce reader past = .ok t
          · obtain ⟨huses, t, ht⟩ := hfound
            exact .inr ⟨past, t, hunfilled.firstFound huses ht⟩
          · exact .inl (hunfilled.concat hclear fun huses t ht => hfound ⟨huses, t, ht⟩)
        · exact .inr ⟨before, t, hfirst.concat hclear⟩

/-- Through a session of any steps, whatever has failed in it, a step that asks for the table is
answered from the one found first since the last clear, or reads the one in force if none has been
found; a load reads the one in force at that moment; and nothing but readings and clears touches what is
kept. -/
theorem session_answers_from_first_reading (reader : Reader α) (past rest : List (Step α))
    (step : Step α) :
    ∃ entries outcome,
      session reader .initial (past ++ step :: rest) =
        session reader .initial past ++ ⟨entries, outcome⟩ ::
          session reader (Store.initial.after reader (past ++ [step])) rest ∧
      (step.usesTable = true →
        (Unfilled reader past → outcome = (inForce reader past).map step.answerFrom) ∧
        (∀ before t, FirstFound reader past before t → outcome = .ok (step.answerFrom t)) ∧
        (Unfilled reader past ∨ ∃ before t, FirstFound reader past before t)) ∧
      (step = .load → outcome = (inForce reader past).map .table) ∧
      (step.usesTable = false → step ≠ .clear →
        (Store.initial.after reader (past ++ [step])).kept =
          (Store.initial.after reader past).kept) := by
  refine ⟨step.entries reader (Store.initial.after reader past),
    step.answer reader (Store.initial.after reader past), ?_, fun huses => ⟨fun hunfilled => ?_,
      fun before t hfirst => ?_, unfilled_or_firstFound past⟩, ?_, fun huses hclear => ?_⟩
  · rw [session_append, session, Store.after_concat]
  · rw [Step.answer_of_usesTable huses, Store.table, hunfilled.kept_after, load_after]
  · rw [Step.answer_of_usesTable huses, Store.table, hfirst.kept_after]
    rfl
  · rintro rfl
    rw [← load_after]
    rfl
  · rw [Store.after_concat, Step.kept_next huses hclear]

def instructionFile (instruction : Text) : Text :=
  "instruction: " ++ instruction ++ "\nobjectives: \x7b\x7d"

/-- A file with a date that no calendar has cannot be read. The table of the next one can, and that file
changes under it. -/
def rewrittenFile : List (Step Text) :=
  [.write Store.defaultPath "objectives: \x7bDoc: 2023-02-29\x7d", .instruction,
   .write Store.defaultPath (instructionFile "First."), .instruction,
   .write Store.defaultPath (instructionFile "Second.")]

theorem exists_firstFound_rewrittenFile :
    ∃ t, FirstFound yamlReader rewrittenFile (rewrittenFile.take 3) t ∧
      t.instruction = "First.".toList := by
  have hfails : inForce yamlReader (rewrittenFile.take 1) = .error .invalidNumber := by
    decide +kernel
  have hread : (inForce yamlReader (rewrittenFile.take 3)).map Table.instruction =
      .ok "First.".toList := by
    decide +kernel
  have hfirst : Unfilled yamlReader (rewrittenFile.take 1) :=
    unfilled_nil.concat nofun fun h => absurd h (by decide)
  have hfailed : Unfilled yamlReader (rewrittenFile.take 2) :=
    hfirst.concat nofun fun _ t ht => by simp [hfails] at ht
  have hwritten : Unfilled yamlReader (rewrittenFile.take 3) :=
    hfailed.concat nofun fun h => absurd h (by decide)
  cases hforce : inForce yamlReader (rewrittenFile.take 3) with
  | error fault => simp [hforce, Except.map] at hread
  | ok t =>
      rw [hforce] at hread
      refine ⟨t, ⟨hwritten, hforce, .instruction, rewrittenFile.drop 4, rfl, rfl, ?_⟩,
        Except.ok.inj hread⟩
      simp [rewrittenFile]

theorem session_answers_from_rewrittenFile :
    (inForce yamlReader rewrittenFile).map Table.instruction = .ok "Second.".toList ∧
      (session yamlReader .initial (rewrittenFile ++ [.instruction])).map Logged.outcome =
        [.ok .nothing, .error .invalidNumber, .ok .nothing, .ok (.text "First."), .ok .nothing,
         .ok (.text "First.")] := by
  obtain ⟨entries, outcome, hsession, htable, -⟩ :=
    session_answers_from_first_reading yamlReader rewrittenFile [] .instruction
  obtain ⟨t, hfirst, ht⟩ := exists_firstFound_rewrittenFile
  have houtcome : outcome = .ok (.text t.instruction) := (htable rfl).2.1 _ t hfirst
  have hbefore : (session yamlReader .initial rewrittenFile).map Logged.outcome =
      [.ok .nothing, .error .invalidNumber, .ok .nothing, .ok (.text "First."), .ok .nothing] := by
    decide +kernel
  refine ⟨by decide +kernel, ?_⟩
  rw [hsession, List.map_append, hbefore, houtcome, ht, session]
  rfl

end Objective
end Refit

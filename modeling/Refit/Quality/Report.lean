/-
Quality reports: a file before and after its flagged code was refactored.
-/
import Refit.Decl.Group
import Refit.Quality.Comparison
import Refit.Quality.Metric
import Refit.Report
import Refit.Request.Summary

namespace Refit
namespace Quality

structure QualityReport where
  fileName : Text
  summaryBefore : Text
  summaryAfter : Text
  comparison : Comparison
  metricsBefore : Data.Pairs Text Text
  metricsAfter : Data.Pairs Text Text
  deriving Repr, DecidableEq

/-- One analyzer run: the source, what the analyzer said of it, and how it parses. -/
structure Analysis where
  source : Text
  output : Text
  parse : Text → Except Fault DeclTree

def summarizeRun (file : Text) (a : Analysis) (findings : List Finding) : Logged Text := do
  let blocks ← Decl.extract file findings (.ok (.ok a.source)) a.parse
  Request.summaryLogged blocks

def resultsEntry (which summary : Text) : Entry :=
  ⟨.debug, .quality, "Analysis results for " ++ which ++ " file:\n" ++ summary⟩

def report (file : Text) (before after : Analysis) : Logged QualityReport := do
  let findingsBefore ← Report.findings before.output
  let findingsAfter ← Report.findings after.output
  let summaryBefore ← summarizeRun file before findingsBefore
  let summaryAfter ← summarizeRun file after findingsAfter
  .notes [resultsEntry "original" summaryBefore, resultsEntry "processed" summaryAfter]
  let comparison ← Comparison.logged findingsBefore findingsAfter
  let metricsBefore ← .ofExcept (summarizeMetrics summaryBefore)
  let metricsAfter ← .ofExcept (summarizeMetrics summaryAfter)
  return ⟨Path.fileName file, summaryBefore, summaryAfter, comparison, metricsBefore, metricsAfter⟩

end Quality
end Refit

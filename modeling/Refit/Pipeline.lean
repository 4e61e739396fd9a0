/-
The way of one file: from the analyzer's report through blocks, batches and requests to the file with
the response spliced in.
-/
import Refit.Decl.Group
import Refit.Marker.Resolve
import Refit.Objective.Store
import Refit.Plan
import Refit.Replacement
import Refit.Report
import Refit.Request.Payload
import Refit.Request.Summary

namespace Refit
namespace Pipeline

structure Input where
  file : Text
  /-- What the analyzer said. -/
  output : Text
  source : Text
  parse : Text → Except Fault DeclTree
  budget : Int
  response : Text
  /-- The objective table to use in place of the configured one. -/
  table : Option Objective.Table

structure Result where
  findings : List Finding
  blocks : List Block
  plan : Plan
  requests : List Text
  summary : Text
  marked : Text
  replacements : Data.Pairs Text Text
  processed : Text

variable {α : Type} (reader : Objective.Reader α)

def tableFor (table : Option Objective.Table) (s : Objective.Store α) (batch : List Block) :
    Logged (Objective.Table × Objective.Store α) :=
  match table with
  | some t => pure (t, s)
  | none =>
    if batch.isEmpty then pure (.default, s)
    else ⟨s.tableEntries reader, (s.table reader).map fun t => (t, s.keep reader)⟩

/-- The request of each batch. The configured table is read for the first one and kept. -/
def requests (table : Option Objective.Table) (s : Objective.Store α) :
    List (List Block) → Logged (List Text)
  | [] => pure []
  | batch :: batches => do
    let (t, s) ← tableFor reader table s batch
    let text ← .leaving (Request.payloadEntries batch) (Request.payloadText t true batch)
    let more ← requests table s batches
    return text :: more

def run (s : Objective.Store α) (i : Input) : Logged Result := do
  let findings ← Report.findings i.output
  let blocks ← Decl.extract i.file findings (.ok (.ok i.source)) i.parse
  let plan ← Plan.logged blocks i.budget
  let texts ← requests reader i.table s (plan.batches.map fun b => b.map Data.Placed.item)
  let summary ← Request.summaryLogged blocks
  let marked ← Marker.markLogged i.source blocks
  let replacements ← Replacement.parseLogged i.response
  let processed ← Marker.processLogged replacements marked
  return ⟨findings, blocks, plan, texts, summary, marked, replacements, processed⟩

end Pipeline
end Refit

/-
The journal: what the library has to say about its work, as data.

A computation that reports is a value with the entries it leaves, in order. A computation that fails
keeps the entries written before the failure.
-/
import Refit.Fault

namespace Refit

inductive Level where
  | debug
  | info
  | warning
  | error
  deriving Repr, DecidableEq

namespace Level

def number : Level → Nat
  | .debug => 10
  | .info => 20
  | .warning => 30
  | .error => 40

def name : Level → Text
  | .debug => "DEBUG"
  | .info => "INFO"
  | .warning => "WARNING"
  | .error => "ERROR"

end Level

inductive Reporter where
  | findings
  | grouping
  | planning
  | splicing
  | replacements
  | objectives
  | requests
  | quality
  deriving Repr, DecidableEq

namespace Reporter

def logger : Reporter → Text
  | .findings => "codesplice.finding_extractor"
  | .grouping => "codesplice.violation_grouper"
  | .planning => "codesplice.batch_planner"
  | .splicing => "codesplice.marker_splice"
  | .replacements => "codesplice.replacement_parser"
  | .objectives => "codesplice.objectives"
  | .requests => "codesplice.request_formatter"
  | .quality => "codesplice.quality_report"

def tag : Reporter → Text
  | .findings => "[FindingExtractor] "
  | .grouping => "[ViolationGrouper] "
  | .planning => "[BatchPlanner] "
  | .splicing => "[MarkerSplice] "
  | .replacements => "[ReplacementParser] "
  | .objectives => "[Objectives] "
  | .requests => "[RequestFormatter] "
  | .quality => "[QualityReport] "

end Reporter

structure Entry where
  level : Level
  reporter : Reporter
  /-- The message without the reporter's tag. -/
  body : Text
  deriving Repr, DecidableEq

def Entry.message (e : Entry) : Text := e.reporter.tag ++ e.body

/-- The entries a computation leaves, and how it ends. -/
structure Logged (α : Type) where
  entries : List Entry
  outcome : Except Fault α

namespace Logged

variable {α β : Type}

instance : Monad Logged where
  pure a := ⟨[], .ok a⟩
  bind x f :=
    match x.outcome with
    | .ok a => ⟨x.entries ++ (f a).entries, (f a).outcome⟩
    | .error e => ⟨x.entries, .error e⟩

def leaving (entries : List Entry) (a : α) : Logged α := ⟨entries, .ok a⟩

def note (e : Entry) : Logged Unit := ⟨[e], .ok ()⟩

def notes (es : List Entry) : Logged Unit := ⟨es, .ok ()⟩

def fail (e : Fault) : Logged α := ⟨[], .error e⟩

def ofExcept (x : Except Fault α) : Logged α := ⟨[], x⟩

/-- The journal plays no part in how a computation ends. -/
theorem outcome_bind (x : Logged α) (f : α → Logged β) :
    (x >>= f).outcome = x.outcome >>= fun a => (f a).outcome := by
  cases x with
  | mk entries outcome => cases outcome <;> rfl

end Logged
end Refit

/-
Sessions: files come and go, the path is set, the kept table is dropped, and answers are given from
the table in force.
-/
import Refit.Objective.Store
import Refit.Request.Payload

namespace Refit
namespace Objective

inductive Step (α : Type) where
  | write (path : Text) (content : α)
  | delete (path : Text)
  | setPath (path : Text)
  | clear
  | load
  | instruction
  /-- The objective of one rule. -/
  | rule (name : Text)
  /-- The objective of several rules together. -/
  | rules (names : List Text)
  | payload (blocks : List Block)

inductive Answer where
  | nothing
  | table (t : Table)
  | text (s : Text)
  deriving Repr, DecidableEq

variable {α : Type} (reader : Reader α)

namespace Step

def answer (s : Store α) : Step α → Except Fault Answer
  | .load => do return .table (← s.load reader)
  | .instruction => do return .text (← s.table reader).instruction
  | .rule name => do return .text ((← s.table reader).objective name)
  | .rules names => do return .text ((← s.table reader).combined names)
  | .payload blocks =>
    if blocks.isEmpty then .ok (.text (Request.payloadText .default true blocks))
    else do return .text (Request.payloadText (← s.table reader) true blocks)
  | .write path content =>
    match (s.files.write (Path.ofText path) content).2 with
    | some f => .error (.unusable f)
    | none => .ok .nothing
  | .delete path =>
    match s.files.remove (Path.ofText path) with
    | .error f => .error (.unusable f)
    | .ok _ => .ok .nothing
  | _ => .ok .nothing

def usesTable : Step α → Bool
  | .instruction => true
  | .rule _ => true
  | .rules _ => true
  | .payload blocks => !blocks.isEmpty
  | _ => false

/-- The store after a step, also after one that fails. -/
def next (s : Store α) : Step α → Store α
  | .write path content => ⟨(s.files.write (Path.ofText path) content).1, s.path, s.kept⟩
  | .delete path => ⟨(s.files.remove (Path.ofText path)).toOption.getD s.files, s.path, s.kept⟩
  | .setPath path => ⟨s.files, path, s.kept⟩
  | .clear => ⟨s.files, s.path, none⟩
  | .load => s
  | step => if step.usesTable then s.keep reader else s

def entries (s : Store α) (step : Step α) : List Entry :=
  match step with
  | .load => s.loadEntries reader
  | .payload blocks =>
    (if step.usesTable then s.tableEntries reader else []) ++
      (if (step.answer reader s).toOption.isSome then Request.payloadEntries blocks else [])
  | _ => if step.usesTable then s.tableEntries reader else []

end Step

/-- How each step of a session ends, with the entries it leaves. -/
def session (s : Store α) : List (Step α) → List (Logged Answer)
  | [] => []
  | step :: steps =>
    ⟨step.entries reader s, step.answer reader s⟩ :: session (step.next reader s) steps

end Objective
end Refit

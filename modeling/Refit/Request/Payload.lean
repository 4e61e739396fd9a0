/-
Request documents: one batch of blocks, as the service that refactors them gets it.

Each container has an entry with the members that start inside it; a member inside several goes with
the shortest. Members outside all containers go into a last entry.
-/
import Refit.Block
import Refit.Data.Json
import Refit.Data.Least
import Refit.Data.Placed
import Refit.Journal
import Refit.Objective.Table
import Refit.Path

namespace Refit
namespace Request

open Data (Value Placed)
open Objective (Table)

structure Issues where
  findings : List Finding
  objective : Text
  deriving Repr, DecidableEq

structure Violation where
  kind : Kind
  code : Option Text
  issues : Option Issues
  deriving Repr, DecidableEq

structure ClassEntry where
  signature : Option Text
  violations : List Violation
  issues : Option Issues
  deriving Repr, DecidableEq

structure Payload where
  instruction : Text
  file : Text
  classes : List ClassEntry
  deriving Repr, DecidableEq

namespace Payload

def issuesOf (table : Table) (b : Block) : Issues :=
  ⟨b.findings, table.combined (b.findings.map Finding.rule)⟩

def violation (table : Table) (withIssues : Bool) (b : Block) : Violation :=
  ⟨b.kind, b.text, if withIssues then some (issuesOf table b) else none⟩

/-- The position of the shortest container whose lines cover the first line of a block, the first of
those equally short. -/
def ownerIndex (containers : List Block) (b : Block) : Option Nat :=
  ((Placed.list containers).foldl
    (Data.better (fun c => c.item.span.containsLine b.span.start)
      fun c d => c.item.span.length < d.item.span.length) none).map Placed.place

/-- The entries while they are filled, and the violations of the members outside all containers. -/
structure Draft where
  classes : List ClassEntry
  unknown : List Violation
  deriving Repr, DecidableEq

def Draft.append (d : Draft) (index : Option Nat) (v : Violation) : Draft :=
  match index with
  | none => ⟨d.classes, d.unknown ++ [v]⟩
  | some i => ⟨d.classes.modify i fun e => ⟨e.signature, e.violations ++ [v], e.issues⟩, d.unknown⟩

def openEntry (table : Table) (withIssues : Bool) (c : Block) : ClassEntry :=
  ⟨c.text, [], if withIssues && c.hasFindings then some (issuesOf table c) else none⟩

/-- What a block adds to the draft: a container nothing, since its entry is there. -/
def addBlock (table : Table) (withIssues : Bool) (containers : List Block) (d : Draft) (b : Block) :
    Draft :=
  if b.isContainer then d
  else d.append (ownerIndex containers b) (violation table withIssues b)

def draft (table : Table) (withIssues : Bool) (blocks : List Block) : Draft :=
  let containers := blocks.filter Block.isContainer
  blocks.foldl (addBlock table withIssues containers)
    ⟨containers.map (openEntry table withIssues), []⟩

/-- The entries in the order they are sent; the last one only if something is outside. -/
def Draft.entries (d : Draft) : List ClassEntry :=
  d.classes ++ if d.unknown.isEmpty then [] else [⟨some "Unknown".toList, d.unknown, none⟩]

def make (table : Table) (withIssues : Bool) (blocks : List Block) : Payload :=
  ⟨table.instruction, Block.fileName blocks, (draft table withIssues blocks).entries⟩

/-! ### Document -/

def optional (s : Option Text) : Value := (s.map Value.text).getD .null

def findingValue (f : Finding) : Value :=
  .object [("rule", .text f.rule), ("message", .text f.message)]

def issueFields (issues : Option Issues) : List (Text × Value) :=
  match issues with
  | none => []
  | some i =>
    [("issues", .list (i.findings.map findingValue)), ("refactoring_objective", .text i.objective)]

def violationValue (v : Violation) : Value :=
  .object (("block_type", .text v.kind.name) :: ("extracted_code", optional v.code) ::
    issueFields v.issues)

def classValue (c : ClassEntry) : Value :=
  .object (("type_signature", optional c.signature) ::
    ("violations", .list (c.violations.map violationValue)) :: issueFields c.issues)

def value (p : Payload) : Value :=
  .object [("instruction", .text p.instruction), ("file", .text p.file),
    ("classes", .list (p.classes.map classValue))]

end Payload

def payloadText (table : Table) (withIssues : Bool) (blocks : List Block) : Text :=
  if blocks.isEmpty then ['[', ']']
  else Data.Json.pretty (Payload.make table withIssues blocks).value

def payloadEntries (blocks : List Block) : List Entry :=
  if blocks.isEmpty then []
  else [⟨.info, .requests, "Generated request payload for file: " ++ Block.fileName blocks⟩]

end Request
end Refit

/-
Where the objective table comes from: a file at a path that can be set, read once and kept until the
kept table is dropped.

How the content of a file becomes a value is left open: all that reads a file takes a reader.
-/
import Refit.Journal
import Refit.Objective.Table
import Refit.Source

namespace Refit
namespace Objective

open Data (Value)

inductive Unread where
  /-- The content breaks a rule of its format. -/
  | refused (why : Text)
  | fault (cause : Fault)
  deriving Repr, DecidableEq

abbrev Reader (α : Type) := Path → α → Except Unread Value

structure Store (α : Type) where
  files : Disk α
  path : Text
  kept : Option Table

namespace Store

def defaultPath : Text := "config/refactoring_objectives.yaml"

variable {α : Type}

def initial : Store α := ⟨Disk.empty, defaultPath, none⟩

inductive Note where
  | read
  | absent
  | unreadable (why : Text)
  | withoutObjectives
  deriving Repr, DecidableEq

def Note.entries (path : Text) : Note → List Entry
  | .read => []
  | .absent => [⟨.debug, .objectives, path ++ " not found, using default objectives"⟩]
  | .unreadable why =>
    [⟨.warning, .objectives, "Error loading " ++ path ++ ": " ++ why ++ ", using defaults"⟩]
  | .withoutObjectives =>
    [⟨.warning, .objectives, "No 'objectives' section in " ++ path ++ ", using defaults"⟩]

variable (reader : Reader α)

/-- The table that the file at a path describes, or the default one and why. A reader that fails
otherwise than by a refusal, or a value that has no text, leaves no table at all. -/
def tableOf (path : Path) (content : α) : Except Fault (Table × Note) :=
  match reader path content with
  | .error (.fault cause) => .error cause
  | .error (.refused why) => .ok (.default, .unreadable why)
  | .ok v => do
    match ← Table.ofDocument? v with
    | some t => return (t, .read)
    | none => return (.default, .withoutObjectives)

def tableAt (files : Disk α) (path : Path) : Except Fault (Table × Note) :=
  match files.hasPath path with
  | .error f => .error (.unusable f)
  | .ok false => .ok (.default, .absent)
  | .ok true =>
    match files.read path with
    | .ok content => tableOf reader path content
    | .error f => .ok (.default, .unreadable (Source.faultText path f))

def load (s : Store α) : Except Fault Table :=
  (tableAt reader s.files (Path.ofText s.path)).map Prod.fst

def loadEntries (s : Store α) : List Entry :=
  let path := Path.ofText s.path
  match tableAt reader s.files path with
  | .ok r => r.2.entries path.text
  | .error _ => []

/-- The kept table, or else the one read now, to be kept. -/
def table (s : Store α) : Except Fault Table :=
  match s.kept with
  | some t => .ok t
  | none => s.load reader

def tableEntries (s : Store α) : List Entry := if s.kept.isSome then [] else s.loadEntries reader

/-- The store once its table has been asked for. A reading that fails leaves nothing to keep. -/
def keep (s : Store α) : Store α := ⟨s.files, s.path, (s.table reader).toOption⟩

end Store
end Objective
end Refit

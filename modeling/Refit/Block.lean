/-
Blocks of code: a declaration of some kind, its line range, and the findings inside it.
-/
import Refit.Finding
import Refit.Path
import Refit.Span

namespace Refit

/-- The kinds of declaration that can enclose a finding; `unknown` stands for a whole file. -/
inductive Kind where
  | method
  | type
  | lambda
  | initializer
  | unknown
  deriving Repr, DecidableEq

namespace Kind

def name : Kind → Text
  | .method => "Method"
  | .type => "Type"
  | .lambda => "Lambda"
  | .initializer => "StaticInitializer"
  | .unknown => "Unknown"

def all : List Kind := [.method, .type, .lambda, .initializer, .unknown]

def ofName? (s : Text) : Option Kind := all.find? fun k => k.name == s

theorem mem_all (k : Kind) : k ∈ all := by
  cases k <;> simp [all]

end Kind

structure Block where
  file : Text
  kind : Kind
  span : Span
  /-- The source of a member, or the summary of a type. -/
  text : Option Text
  findings : List Finding
  /-- The declared name, if the declaration has one. -/
  name : Option Text
  deriving Repr, DecidableEq

namespace Block

def size (b : Block) : Nat := (b.text.getD []).length

def hasFindings (b : Block) : Bool := !b.findings.isEmpty

def isContainer (b : Block) : Bool := b.kind == .type

def fileName (blocks : List Block) : Text := (blocks.head?.map fun b => Path.fileName b.file).getD []

end Block
end Refit

/-
Declarations: the nodes of a source file that can enclose findings, and their summaries.

A type is summarised by its signature, its fields and the signatures of its methods, so that it can be
shown as context without any body. Every other declaration is shown as it stands.
-/
import Refit.Block
import Refit.Data.Placed
import Refit.Tree

namespace Refit

structure Outline where
  signature : Text
  fields : List Text
  methods : List Text
  deriving Repr, DecidableEq

/-- A declaration. Its line numbers are taken as given and may be any integers. -/
structure Decl where
  kind : Kind
  start : Int
  stop : Int
  text : Text
  name : Option Text
  outline : Option Outline
  deriving Repr, DecidableEq

namespace Decl

inductive Detail where
  /-- Signature, fields and method signatures. -/
  | full
  /-- Signature and fields. -/
  | minimal
  deriving Repr, DecidableEq

def section_ (title : Text) (items : List Text) : Text :=
  if items.isEmpty then []
  else "\n  " ++ title ++ ":\n    " ++ Text.join "\n    " items

def summarizeOutline (detail : Detail) (o : Outline) : Text :=
  o.signature ++ " \x7b" ++ section_ "Fields" o.fields ++
    (if detail = .full then section_ "Methods" o.methods else []) ++ "\n\x7d"

def title (d : Decl) : Text :=
  match d.name with
  | some (c :: cs) => c :: cs
  | _ => d.kind.name

def summarize (detail : Detail) (d : Decl) : Text :=
  if d.kind = .type then
    match d.outline with
    | some o => summarizeOutline detail o
    | none => d.title ++ " \x7b\n\x7d"
  else d.text

def span (d : Decl) : Except Fault Span := Span.of d.start d.stop

end Decl

abbrev DeclTree := Tree Decl

namespace DeclTree

/-- The declarations with their places in document order, which tell equal ones apart. -/
def placed (t : DeclTree) : List (Data.Placed Decl) := Data.Placed.list t.walk

def types (t : DeclTree) : List (Data.Placed Decl) :=
  (placed t).filter fun p => p.item.kind == .type

end DeclTree
end Refit

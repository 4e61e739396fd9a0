/-
Parses of Java sources, and the declarations in them.

A parse is what a grammar makes of a source: a tree of parts that know their ranges of bytes and
rows. Only some parts are declarations; the others are passed through, so a declaration hangs below
the nearest one around it.
-/
import Refit.Decl
import Refit.Text.Utf8

namespace Refit

inductive Construct where
  | typeDeclaration
  | methodDeclaration
  | fieldDeclaration
  | lambda
  | staticInitializer
  | block
  | classBody
  | enumMembers
  | other
  deriving Repr, DecidableEq

namespace Construct

def names : List (Text × Construct) :=
  [("class_declaration", .typeDeclaration), ("interface_declaration", .typeDeclaration),
   ("enum_declaration", .typeDeclaration), ("record_declaration", .typeDeclaration),
   ("annotation_type_declaration", .typeDeclaration),
   ("method_declaration", .methodDeclaration), ("constructor_declaration", .methodDeclaration),
   ("compact_constructor_declaration", .methodDeclaration),
   ("field_declaration", .fieldDeclaration), ("constant_declaration", .fieldDeclaration),
   ("lambda_expression", .lambda), ("static_initializer", .staticInitializer), ("block", .block),
   ("class_body", .classBody), ("enum_body_declarations", .enumMembers)]

def ofName (s : Text) : Construct := ((names.find? fun e => e.1 == s).map Prod.snd).getD .other

/-- The kind of a declaration under a parent. A block right inside a type is an initializer. -/
def kind? (parent : Construct) : Construct → Option Kind
  | .typeDeclaration => some .type
  | .methodDeclaration => some .method
  | .lambda => some .lambda
  | .staticInitializer => some .initializer
  | .block =>
    match parent with
    | .classBody => some .initializer
    | .enumMembers => some .initializer
    | _ => none
  | _ => none

end Construct

inductive Role where
  | name
  | body
  | type
  | declarator
  | other
  deriving Repr, DecidableEq

namespace Role

def names : List (Text × Role) :=
  [("name", .name), ("body", .body), ("type", .type), ("declarator", .declarator)]

def ofName (s : Text) : Role := ((names.find? fun e => e.1 == s).map Prod.snd).getD .other

end Role

/-- A part of a source, by its bytes and its rows, both counted from zero. -/
structure Part where
  /-- The grammar's name for what it is. -/
  type : Text
  /-- The grammar's name for its place under its parent, if it has one. -/
  field : Option Text
  startByte : Nat
  stopByte : Nat
  startRow : Nat
  stopRow : Nat
  deriving Repr, DecidableEq

namespace Part

def construct (p : Part) : Construct := .ofName p.type

def role (p : Part) : Role := (p.field.map Role.ofName).getD .other

end Part

structure Parse where
  hasErrors : Bool
  root : Tree Part

namespace Parse

abbrev Bytes := List UInt8

def textBetween (bytes : Bytes) (start stop : Nat) : Text :=
  Text.Utf8.decodeReplacing (Text.Utf8.slice bytes start stop)

def partText (bytes : Bytes) (p : Part) : Text := textBetween bytes p.startByte p.stopByte

def withRole (role : Role) (parts : List (Tree Part)) : List (Tree Part) :=
  parts.filter fun t => t.label.role == role

def child? (role : Role) (t : Tree Part) : Option (Tree Part) := (withRole role t.children).head?

def childText? (bytes : Bytes) (role : Role) (t : Tree Part) : Option Text :=
  (child? role t).map fun c => partText bytes c.label

/-- A declaration up to its body, or without the semicolons at its end, on one line. -/
def header (bytes : Bytes) (t : Tree Part) : Text :=
  match child? .body t with
  | some body => Text.collapse (textBetween bytes t.label.startByte body.label.startByte)
  | none =>
    Text.trimEnd Text.isBlank
      (Text.trimEnd (· == ';') (Text.collapse (partText bytes t.label)))

def fieldText (bytes : Bytes) (t : Tree Part) : Text :=
  let names := (withRole .declarator t.children).filterMap (childText? bytes .name)
  Text.collapse ((childText? bytes .type t).getD [] ++ " " ++ Text.join ", " names)

/-- The members of a body. Those after the constants of an enum come last. -/
def members (body : Tree Part) : List (Tree Part) :=
  body.children ++
    (body.children.filter fun t => t.label.construct == .enumMembers).flatMap Tree.children

def outline (bytes : Bytes) (t : Tree Part) : Outline :=
  let parts := ((child? .body t).map members).getD []
  let having (c : Construct) := parts.filter fun t => t.label.construct == c
  ⟨header bytes t, (having .fieldDeclaration).map (fieldText bytes),
    (having .methodDeclaration).map (header bytes)⟩

def declare (bytes : Bytes) (kind : Kind) (t : Tree Part) : Decl :=
  ⟨kind, t.label.startRow + 1, t.label.stopRow + 1, partText bytes t.label, childText? bytes .name t,
    if kind = .type then some (outline bytes t) else none⟩

/-- A part still to be read, with what holds it and the path of its owner in the tree so far. -/
structure Pending where
  holder : Construct
  part : Tree Part
  owner : List Nat

def pendingIn (t : Tree Part) (owner : List Nat) : List Pending :=
  t.children.map fun c => ⟨t.label.construct, c, owner⟩

/-- Reads at most `fuel` parts from a stack. A part with a kind is appended to the children of its
owner and owns the parts in it; any other leaves them to its own owner. -/
def build (bytes : Bytes) : Nat → List Pending → DeclTree → DeclTree
  | 0, _, tree => tree
  | _, [], tree => tree
  | fuel + 1, p :: stack, tree =>
    match Construct.kind? p.holder p.part.label.construct with
    | none => build bytes fuel (pendingIn p.part p.owner ++ stack) tree
    | some kind =>
      let place := p.owner ++ [tree.childCount p.owner]
      build bytes fuel (pendingIn p.part place ++ stack)
        (tree.appendAt [.node (declare bytes kind p.part) []] p.owner)

def fileDecl (source : Text) : Decl :=
  ⟨.unknown, 1, (source.count '\n' : Int) + 1, source, none, none⟩

def tree (p : Parse) (source : Text) (file : Option Text) : Except Fault DeclTree :=
  if p.hasErrors then .error (.syntaxErrors file)
  else
    .ok (build (Text.Utf8.encode source) (Tree.sizeAll p.root.children) (pendingIn p.root [])
      (.node (fileDecl source) []))

end Parse
end Refit

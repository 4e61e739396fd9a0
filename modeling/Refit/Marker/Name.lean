/-
The names of blocks, and of the code between two markers.

A name that the parse recorded wins. Without one it is read off the text: the identifier before the
parenthesis of a method declaration, or the one after the word that introduces a type.
-/
import Refit.Block
import Refit.Replacement.Signature

namespace Refit
namespace Marker

open Text Text.Ways

def isDeclarationChar (c : Char) : Bool :=
  isIdentChar c || c == '<' || c == '>' || c == '[' || c == ']' || c == ',' || c == '.' || c == '?'

def declarationLead : Ways :=
  seq [run isGap, many Replacement.Signature.inlineAnnotation,
    many1 (seq [run1 isDeclarationChar, run1 isGap])]

/-- An identifier and, after characters of the class `p`, an opening parenthesis. -/
def beforeParenthesis? (p : Char → Bool) (s : Text) : Option (Text × Text) :=
  match identifier? s with
  | none => none
  | some (name, rest) =>
    match rest.dropWhile p with
    | '(' :: rest => some (name, rest)
    | _ => none

def methodDeclaration : Recogniser Text := fun before s =>
  if atLineStart before then
    ((declarationLead s).findSome? (beforeParenthesis? isGap)).map fun r =>
      (s.length - r.2.length, r.1)
  else none

def call : Recogniser Text := fun _ s =>
  (beforeParenthesis? isBlank s).map fun r => (s.length - r.2.length, r.1)

def typeWords : List Text := ["class", "interface", "enum", "record"]

def afterBlanks? (s : Text) : Option (Text × Text) :=
  match s with
  | [] => none
  | c :: rest => if isBlank c then identifier? (rest.dropWhile isBlank) else none

def typeDeclaration : Recogniser Text := fun before s =>
  if atWordStart before then
    (typeWords.findSome? fun w => (after? w s).bind afterBlanks?).map fun r =>
      (s.length - r.2.length, r.1)
  else none

def declaredName? (kind : Kind) (text : Text) : Option Text :=
  match kind with
  | .method => ((firstHit? methodDeclaration text).or (firstHit? call text)).map Hit.value
  | .type => (firstHit? typeDeclaration text).map Hit.value
  | _ => none

/-- The name of the entity that a block declares; the name of its kind where it has none. -/
def entityName (b : Block) : Text :=
  match b.name with
  | some (c :: cs) => c :: cs
  | _ => (declaredName? b.kind (b.text.getD [])).getD b.kind.name

def entityPart (id : Text) : Text :=
  match cutLast? '-' id with
  | some (entity, _) => entity
  | none => id

/-- The first type or method that a text declares; a type where both start at one place. -/
def firstDeclared? (region : Text) : Option Text :=
  match firstHit? typeDeclaration region, firstHit? methodDeclaration region with
  | some t, some m => some (if m.start < t.start then m.value else t.value)
  | some t, none => some t.value
  | none, some m => some m.value
  | none, none => none

/-- Whether an entity stands for the region between its markers: it names a kind, as that of a block
without a name, or the region mentions it. -/
def stands (entity region : Text) : Bool :=
  Kind.all.any (fun k => k.name == entity) ||
    (!entity.isEmpty && (firstHit? (wholeWord entity) region).isSome)

/-- The name of the code between two markers. The entity part of the id is used where it stands for
the region, and otherwise the first declaration in the region, if there is one. -/
def enclosedName (region : Text) (id : Option Text) : Option Text :=
  let entity := match id with
    | some (c :: cs) => some (entityPart (c :: cs))
    | _ => none
  if entity.any (stands · region) then entity
  else (firstDeclared? region).or entity

end Marker
end Refit

/-
Method signatures at the start of a line: annotations, modifiers, type parameters, a return type, the
name, the parameters in parentheses, a throws clause and the opening brace.

What stands before the name can be read in more than one way, since modifiers, a return type and the
name are all words. From the name on there is only one.
-/
import Refit.Text.Ways

namespace Refit
namespace Replacement
namespace Signature

open Text Text.Ways

/-- Words that open statements and so never name a method or its return type. -/
def keywords : List Text :=
  ["if", "else", "for", "while", "do", "switch", "case", "catch", "try", "finally", "return", "new",
   "throw", "synchronized", "assert"]

def modifiers : List Text :=
  ["public", "protected", "private", "static", "final", "abstract", "synchronized", "native",
   "strictfp", "default"]

def opensWithKeyword (s : Text) : Bool :=
  keywords.any fun k =>
    match after? k s with
    | none => false
    | some [] => true
    | some (c :: _) => !isWord c

def isPathChar (c : Char) : Bool := isIdentChar c || c == '.'

def annotationMark : Ways :=
  seq [lit "@", run1 isPathChar, opt (seq [lit "(", run (fun c => c != ')' && c != '\n'), lit ")"])]

def annotationLine : Ways := seq [run isGap, annotationMark, run isGap, lit "\n"]

def inlineAnnotation : Ways := seq [annotationMark, run1 isGap]

def modifier : Ways := seq [alt (modifiers.map lit), run1 isGap]

def isPlainParameter (c : Char) : Bool := c != '<' && c != '>' && c != '\n'

/-- Type parameters, whose bounds may have arguments of their own. -/
def typeParameters : Ways :=
  seq [lit "<", many1 (alt [one isPlainParameter, seq [lit "<", run isPlainParameter, lit ">"]]),
    lit ">", run1 isGap]

def isTypeArgument (c : Char) : Bool :=
  c != '(' && c != ')' && c != '\n' && c != '\x7b' && c != '\x7d' && c != ';' && c != '='

def returnType : Ways :=
  seq [guard (fun s => !opensWithKeyword s), run1 isPathChar,
    opt (seq [lit "<", run isTypeArgument, lit ">"]), many (lit "[]"), run1 isGap]

def lead : Ways :=
  seq [many annotationLine, run isGap, many inlineAnnotation, many modifier, opt typeParameters,
    opt returnType]

def isThrowsChar (c : Char) : Bool := isIdentChar c || c == '.' || c == ',' || isBlank c

/-- What follows the opening brace after a throws clause of at least one character. -/
def throwsClause? (s : Text) : Option Text :=
  match after? "throws" (s.dropWhile isBlank) with
  | none => none
  | some s =>
    match s.takeWhile isThrowsChar, s.dropWhile isThrowsChar with
    | c :: _ :: _, '\x7b' :: rest => if isBlank c then some rest else none
    | _, _ => none

def opening? (s : Text) : Option Text :=
  match throwsClause? s with
  | some rest => some rest
  | none =>
    match s.dropWhile isBlank with
    | '\x7b' :: rest => some rest
    | _ => none

def parameters? (s : Text) : Option Text :=
  match s.dropWhile isGap with
  | '(' :: s =>
    match s.dropWhile (· != ')') with
    | ')' :: s => opening? s
    | _ => none
  | _ => none

def named? (s : Text) : Option (Text × Text) :=
  if opensWithKeyword s then none
  else match identifier? s with
    | none => none
    | some (name, rest) => (parameters? rest).map fun rest => (name, rest)

/-- A signature up to and with its opening brace, read for the name. -/
def recogniser : Recogniser Text := fun before s =>
  if atLineStart before then
    ((lead s).findSome? named?).map fun r => (s.length - r.2.length, r.1)
  else none

end Signature
end Replacement
end Refit

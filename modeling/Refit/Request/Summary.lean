/-
Summaries for people: the findings of a file, type by type.
-/
import Refit.Block
import Refit.Journal

namespace Refit
namespace Request
namespace Summary

def findingLines (b : Block) : List Text :=
  b.findings.map fun f => "    - " ++ f.rule ++ ": " ++ f.message

def lineRange (s : Span) : Text := " (Lines " ++ s.text ++ ")"

/-- The first line of a type's summary, without the brace that opens it. -/
def signature (text : Text) : Text :=
  Text.trimEnd (fun c => c == ' ' || c == '\x7b') (text.takeWhile (· != '\n'))

def memberHeading (m : Block) : Text := "  " ++ m.kind.name ++ lineRange m.span

def memberLines (m : Block) : List Text := [[], memberHeading m] ++ findingLines m

def typeHeading (text : Text) (span : Span) : Text :=
  "Type Signature: " ++ signature text ++ lineRange span

/-- A type with its findings and the members inside its span. Its text has to be there. -/
def typeLines (members : List Block) (t : Block) : Except Fault (List Text) :=
  match t.text with
  | none => .error .missingPart
  | some text =>
    let owned := members.filter fun m => t.span.contains m.span
    let none : List Text :=
      if owned.isEmpty && t.findings.isEmpty then ["  No violations detected in this type."] else []
    .ok ([[], typeHeading text t.span] ++ findingLines t ++ none ++ owned.flatMap memberLines)

def types (blocks : List Block) : List Block :=
  (blocks.filter Block.isContainer).mergeSort fun a b => a.span.start ≤ b.span.start

def lines (blocks : List Block) : Except Fault (List Text) := do
  let members := blocks.filter fun b => !b.isContainer
  let parts ← (types blocks).mapM (typeLines members)
  return ("Analysis Summary for file: " ++ Block.fileName blocks) :: parts.flatten

end Summary

def summary (blocks : List Block) : Except Fault Text :=
  if blocks.isEmpty then .ok "No violations detected in the analyzed file."
  else (Summary.lines blocks).map fun lines => Text.ofFileLines lines ++ "\n"

def summaryLogged (blocks : List Block) : Logged Text := do
  let text ← .ofExcept (summary blocks)
  .leaving
    (if blocks.isEmpty then []
     else [⟨.info, .requests, "Generated analysis summary for file: " ++ Block.fileName blocks⟩])
    text

end Request
end Refit

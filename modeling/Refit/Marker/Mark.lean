/-
Marking the flagged blocks of a file with a pair of sentinel lines each.

Pairs never enclose one another: a flagged member stands for all that is flagged inside it, and a
flagged type gives way to what is marked inside it. Blocks are marked from the bottom of the file up,
so that the line numbers of those still to be marked stay right.
-/
import Refit.Journal
import Refit.Marker.Name

namespace Refit
namespace Marker

def startLead : Text := "// <start-flagged:"

def endLead : Text := "// <end-flagged:"

def startFlagged (id : Text) : Text := startLead ++ id ++ ">"

def endFlagged (id : Text) : Text := endLead ++ id ++ ">"

def firstOfSpan : List Block → List Block
  | [] => []
  | b :: bs => b :: (firstOfSpan bs).filter fun c => c.span ≠ b.span

/-- The blocks with findings that end within the file, one for each span. -/
def flagged (lineCount : Nat) (blocks : List Block) : List Block :=
  firstOfSpan (blocks.filter fun b => b.hasFindings && b.span.stop ≤ lineCount)

def isCovered (flagged : List Block) (b : Block) : Bool :=
  flagged.any fun o => o.span != b.span && !o.isContainer && o.span.contains b.span

def uncovered (flagged : List Block) : List Block := flagged.filter fun b => !isCovered flagged b

/-- Whether the block is a type that holds another one of the blocks. -/
def isEnclosing (outer : List Block) (b : Block) : Bool :=
  b.isContainer && outer.any fun o => o.span != b.span && b.span.contains o.span

def markable (lineCount : Nat) (blocks : List Block) : List Block :=
  let outer := uncovered (flagged lineCount blocks)
  outer.filter fun b => !isEnclosing outer b

def bottomUp (blocks : List Block) : List Block :=
  blocks.mergeSort fun a b => !a.span.before b.span

/-- The marked blocks with their ids, numbered from one in the order given. -/
def numbered (blocks : List Block) : List (Block × Text) :=
  (blocks.zipIdx 1).map fun e => (e.1, entityName e.1 ++ "-" ++ Text.ofNat e.2)

def insertLine {α : Type} (at_ : Nat) (line : α) (lines : List α) : List α :=
  lines.take at_ ++ line :: lines.drop at_

def markBlock (lines : List Text) (marked : Block × Text) : List Text :=
  insertLine (marked.1.span.start - 1) (startFlagged marked.2)
    (insertLine marked.1.span.stop (endFlagged marked.2) lines)

/-- The blocks of a file that are marked, with their ids, in the order of marking. -/
def marks (text : Text) (blocks : List Block) : List (Block × Text) :=
  numbered (bottomUp (markable (Text.fileLines text).length blocks))

def mark (text : Text) (blocks : List Block) : Text :=
  if text.isEmpty || blocks.isEmpty then text
  else Text.ofFileLines ((marks text blocks).foldl markBlock (Text.fileLines text))

/-! ### Journal -/

def markEntries (text : Text) (blocks : List Block) : List Entry :=
  let count := (Text.fileLines text).length
  let all := flagged count blocks
  let outer := uncovered all
  let outside := blocks.filter fun b => b.hasFindings && count < b.span.stop
  outside.map (fun b => ⟨.warning, .splicing,
    "Block " ++ b.span.text ++ " is outside the file (" ++ Text.ofNat count ++
      " lines); not marked"⟩) ++
  (all.filter (isCovered all)).map (fun b => ⟨.debug, .splicing,
    "Not marking " ++ b.kind.name ++ " block " ++ b.span.text ++
      ": covered by an enclosing flagged block"⟩) ++
  (outer.filter (isEnclosing outer)).map (fun b => ⟨.debug, .splicing,
    "Not marking Type block " ++ b.span.text ++ ": it encloses other flagged blocks"⟩) ++
  (marks text blocks).map (fun m => ⟨.debug, .splicing,
    "Marked lines " ++ m.1.span.text ++ " as " ++ m.2⟩)

def markLogged (text : Text) (blocks : List Block) : Logged Text :=
  .leaving (if text.isEmpty || blocks.isEmpty then [] else markEntries text blocks)
    (mark text blocks)

end Marker
end Refit

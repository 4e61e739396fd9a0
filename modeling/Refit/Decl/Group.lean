/-
Findings grouped into blocks.

Findings in the same smallest declaration share a block. Every type without findings of its own adds a
block with a minimal summary, as context for what is flagged inside it.
-/
import Refit.Data.Pairs
import Refit.Decl.Locate
import Refit.Journal

namespace Refit
namespace Decl

def block (file : Text) (detail : Detail) (findings : List Finding) (d : Decl) (span : Span) : Block :=
  ⟨file, d.kind, span, some (d.summarize detail), findings, d.name⟩

/-- Adds a finding to the block at a span, which a declaration opens if there is none yet. -/
def addFinding (file : Text) (f : Finding) (d : Decl) (span : Span)
    (blocks : Data.Pairs Span Block) : Data.Pairs Span Block :=
  blocks.alter span fun
    | some b => ⟨b.file, b.kind, b.span, b.text, b.findings ++ [f], b.name⟩
    | none => d.block file .full [f] span

def flag (t : DeclTree) (file : Text) :
    List Finding → Data.Pairs Span Block → Logged (Data.Pairs Span Block)
  | [], blocks => pure blocks
  | f :: fs, blocks =>
    match t.locate f.line with
    | none => do
      .note ⟨.warning, .grouping,
        "No enclosing block found for " ++ f.rule ++ " at line " ++ Text.ofNat f.line⟩
      flag t file fs blocks
    | some p => do
      let span ← .ofExcept p.item.span
      flag t file fs (addFinding file f p.item span blocks)

/-- The blocks of the types at spans that are not flagged, one for each span. -/
def contexts (file : Text) (flagged : Data.Pairs Span Block) :
    List Decl → Data.Pairs Span Block → Except Fault (Data.Pairs Span Block)
  | [], blocks => .ok blocks
  | d :: ds, blocks => do
    let span ← d.span
    if flagged.hasKey span || blocks.hasKey span then contexts file flagged ds blocks
    else contexts file flagged ds (blocks ++ [(span, d.block file .minimal [] span)])

/-- The blocks of a file by span: context first, then what is flagged. -/
def group (t : DeclTree) (findings : List Finding) (file : Text) :
    Logged (Data.Pairs Span Block) := do
  let flagged ← flag t file findings []
  let context ← .ofExcept (contexts file flagged (t.types.map Data.Placed.item) [])
  return context ++ flagged

/-- The blocks of a file whose text has been read, or could not be for the reason given. A file that
cannot be read or parsed has none. -/
def extract (file : Text) (findings : List Finding) (source : Except Fault (Except Text Text))
    (parse : Text → Except Fault DeclTree) : Logged (List Block) :=
  if findings.isEmpty then return []
  else match source with
    | .error fault => .fail fault
    | .ok (.error why) =>
      .leaving [⟨.error, .grouping, "Could not read " ++ file ++ ": " ++ why⟩] []
    | .ok (.ok text) =>
      match parse text with
      | .error fault =>
        .leaving [⟨.error, .grouping, "Error parsing " ++ file ++ ": " ++ fault.message⟩] []
      | .ok tree => do
        let blocks ← group tree findings file
        .note ⟨.info, .grouping,
          "Extracted " ++ Text.ofNat blocks.length ++ " code blocks from " ++ file⟩
        return blocks.values

end Decl
end Refit

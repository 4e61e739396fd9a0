/-
Resolving the markers of a file with refactored code.

Every pair of markers is replaced: by the implementation of the name between them, the first time
that name comes up, and by a notice of removal otherwise. Implementations that no pair called for are
added before the last closing brace.
-/
import Refit.Data.Pairs
import Refit.Marker.Mark

namespace Refit
namespace Marker

open Text

def startReplaced (id : Text) : Text := "// <start-replaced:" ++ id ++ ">"

def endReplaced (id : Text) : Text := "// <end-replaced:" ++ id ++ ">"

/-- A pair of markers: the id that both carry, and the text between them. -/
structure Pair where
  id : Text
  region : Text
  deriving Repr, DecidableEq

/-- A start marker with the nearest end marker of the same id. -/
def pair : Recogniser Pair := fun _ s =>
  match after? startLead s with
  | none => none
  | some s' =>
    match s'.takeWhile (· != '>'), s'.dropWhile (· != '>') with
    | c :: cs, '>' :: rest =>
      (cut? (endFlagged (c :: cs)) rest).map fun parts =>
        (s.length - parts.2.length, ⟨c :: cs, parts.1⟩)
    | _, _ => none

def pairs (text : Text) : List (Hit Pair) := hits pair text

inductive Resolution where
  /-- The implementation of its name takes its place. -/
  | placed (text : Text)
  /-- Its name has been placed before. -/
  | repeated
  /-- There is no implementation of its name. -/
  | unmatched
  deriving Repr, DecidableEq

structure Resolved where
  hit : Hit Pair
  name : Text
  resolution : Resolution
  deriving Repr, DecidableEq

def removalNotice (name id reason : Text) : Text :=
  "// <removed-method: " ++ name ++ " from marker " ++ id ++ ">\n// Original method was removed as " ++
    reason

def Resolved.text (r : Resolved) : Text :=
  let id := r.hit.value.id
  match r.resolution with
  | .placed body => startReplaced id ++ "\n" ++ body ++ "\n" ++ endReplaced id
  | .repeated =>
    removalNotice r.name id "its refactored implementation was placed at an earlier marker"
  | .unmatched => removalNotice r.name id "no matching refactored implementation was found"

def pairName (p : Pair) : Text := (enclosedName p.region (some p.id)).getD []

def choose (map : Data.Pairs Text Text) (used : List Text) (name : Text) : Resolution :=
  if used.contains name then .repeated
  else match map.get? name with
    | some body => .placed body
    | none => .unmatched

/-- The pairs resolved in order, a name being placed once only. -/
def resolvePairs (map : Data.Pairs Text Text) : List Text → List (Hit Pair) → List Resolved
  | _, [] => []
  | used, h :: hs =>
    let name := pairName h.value
    let r : Resolved := ⟨h, name, choose map used name⟩
    match r.resolution with
    | .placed _ => r :: resolvePairs map (used ++ [name]) hs
    | _ => r :: resolvePairs map used hs

def resolved (map : Data.Pairs Text Text) (text : Text) : List Resolved :=
  resolvePairs map [] (pairs text)

def placedNames (rs : List Resolved) : List Text :=
  rs.filterMap fun r => match r.resolution with
    | .placed _ => some r.name
    | _ => none

/-- Replaces pieces of a text one after the other. The positions are those in the text before any
replacement; `offset` is how far the earlier ones have moved what follows. -/
def spliceFrom (buffer : Text) (offset : Int) : List (Nat × Nat × Text) → Text
  | [] => buffer
  | (start, stop, new) :: rest =>
    let a := ((start : Int) + offset).toNat
    let b := ((stop : Int) + offset).toNat
    spliceFrom (buffer.take a ++ new ++ buffer.drop b)
      (offset + new.length - ((stop : Int) - start)) rest

def splice (text : Text) (edits : List (Nat × Nat × Text)) : Text := spliceFrom text 0 edits

def replaceMarked (map : Data.Pairs Text Text) (text : Text) : Text :=
  splice text ((resolved map text).map fun r => (r.hit.start, r.hit.stop, r.text))

def extras (map : Data.Pairs Text Text) (used : List Text) : Data.Pairs Text Text :=
  map.filter fun e => !used.contains e.1

def extraText (e : Text × Text) : Text :=
  "\n\n    // Additional helper method generated by LLM: " ++ e.1 ++ "\n    " ++ e.2

/-- The file with the entries that were not placed added before its last closing brace, or at its end
if it has none. -/
def appendExtras (map : Data.Pairs Text Text) (used : List Text) (content : Text) : Text :=
  let more := extras map used
  if more.isEmpty then content
  else
    let snippet := more.flatMap extraText
    match cutLast? '\x7d' content with
    | some (before, rest) => before ++ snippet ++ "\n" ++ rest
    | none => content ++ snippet ++ "\n"

def process (map : Data.Pairs Text Text) (text : Text) : Text :=
  if text.isEmpty then text
  else appendExtras map (placedNames (resolved map text)) (replaceMarked map text)

/-! ### Journal -/

def Resolved.entry (r : Resolved) : Entry :=
  let id := r.hit.value.id
  match r.resolution with
  | .placed _ =>
    ⟨.debug, .splicing, "Replaced marked block " ++ id ++ " containing '" ++ r.name ++ "'"⟩
  | .repeated =>
    ⟨.warning, .splicing, "'" ++ r.name ++ "' already spliced; marker block " ++ id ++ " removed"⟩
  | .unmatched =>
    ⟨.warning, .splicing, "No replacement found for '" ++ r.name ++ "' in marker block " ++ id ++
      ". Method removed."⟩

def extrasEntries (map : Data.Pairs Text Text) (used : List Text) (content : Text) : List Entry :=
  let count := (extras map used).length
  if count = 0 then []
  else if content.contains '\x7d' then
    [⟨.info, .splicing,
      "Added " ++ Text.ofNat count ++ " extra helper method(s) from LLM response"⟩]
  else
    [⟨.warning, .splicing,
      "No closing brace found; appending " ++ Text.ofNat count ++
        " extra method(s) at end of file"⟩]

def replaceMarkedLogged (map : Data.Pairs Text Text) (text : Text) : Logged (Text × List Text) :=
  let rs := resolved map text
  .leaving (rs.map Resolved.entry) (replaceMarked map text, placedNames rs)

def appendExtrasLogged (map : Data.Pairs Text Text) (used : List Text) (content : Text) :
    Logged Text :=
  .leaving (extrasEntries map used content) (appendExtras map used content)

def processLogged (map : Data.Pairs Text Text) (text : Text) : Logged Text :=
  if text.isEmpty then
    .leaving [⟨.warning, .splicing, "Attempted to process null or empty file content"⟩] text
  else
    let rs := resolved map text
    .leaving
      (rs.map Resolved.entry ++ extrasEntries map (placedNames rs) (replaceMarked map text))
      (process map text)

end Marker
end Refit

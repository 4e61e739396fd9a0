/-
Refactored methods in the free text of a response.

A method runs from a signature to the brace that closes its body. Signatures inside a body belong to
it, and a text without closing brace runs to the end of the response.
-/
import Refit.Data.Pairs
import Refit.Journal
import Refit.Replacement.Signature

namespace Refit

structure Replacement where
  name : Text
  text : Text
  deriving Repr, DecidableEq

namespace Replacement

/-- How many characters there are up to and with the brace that brings the depth back to zero. -/
def closing? : Int → Text → Option Nat
  | _, [] => none
  | depth, c :: s =>
    if c = '\x7b' then (closing? (depth + 1) s).map (· + 1)
    else if c = '\x7d' then
      if depth - 1 = 0 then some 1 else (closing? (depth - 1) s).map (· + 1)
    else (closing? depth s).map (· + 1)

/-- The position after the brace that closes the one at `pos`, or the end of the text. -/
def blockEnd (s : Text) (pos : Nat) : Nat :=
  match closing? 0 (s.drop pos) with
  | some n => pos + n
  | none => s.length

/-- The same for a position that may count from the end of the text: such a search reads the text from
there and then once more from its start. -/
def blockEndAt (s : Text) (pos : Int) : Except Fault Int :=
  if 0 ≤ pos then .ok (blockEnd s pos.toNat)
  else if pos < -(s.length : Int) then .error .outOfText
  else match closing? 0 (s.drop (s.length - pos.natAbs) ++ s) with
    | some n => .ok (pos + n)
    | none => .ok s.length

def slice (s : Text) (start stop : Nat) : Text := (s.drop start).take (stop - start)

def tidy (s : Text) : Text :=
  Text.trimEnd Text.isBlank (Text.trimEnd (· == '\n') (Text.trimStart (· == '\n') s))

/-- The methods at the given signatures, those before `consumed` passed over. -/
def collect (s : Text) : Nat → List (Text.Hit Text) → List Replacement
  | _, [] => []
  | consumed, h :: hs =>
    if h.start < consumed then collect s consumed hs
    else
      let stop := blockEnd s (h.stop - 1)
      ⟨h.value, tidy (slice s h.start stop)⟩ :: collect s stop hs

def scan (response : Text) : List Replacement :=
  collect response 0 (Text.hits Signature.recogniser response)

/-- The methods by name. Those that share a name are kept together, a blank line between them. -/
def byName (found : List Replacement) : Data.Pairs Text Text :=
  found.foldl (fun m r => m.alter r.name fun
    | some old => old ++ "\n\n" ++ r.text
    | none => r.text) []

def parse (response : Text) : Data.Pairs Text Text := byName (scan response)

def parseLogged (response : Text) : Logged (Data.Pairs Text Text) :=
  let found := parse response
  .leaving [⟨.info, .replacements,
    "Parsed " ++ Text.ofNat found.length ++ " method implementation(s) from response"⟩] found

end Replacement
end Refit

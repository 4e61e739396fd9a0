/-
File paths: a root, if the path is absolute, and the names below it. Empty names and single dots say
nothing and are dropped; double dots stay.
-/
import Refit.Text.Basic

namespace Refit

structure Path where
  root : Text
  parts : List Text
  deriving Repr, DecidableEq

namespace Path

def isPart (s : Text) : Bool := !s.isEmpty && s != ['.']

/-- The root of a path as written: two slashes are a root of their own, three or more are one. -/
def rootOf : Text → Text
  | '/' :: '/' :: '/' :: _ => ['/']
  | '/' :: '/' :: _ => ['/', '/']
  | '/' :: _ => ['/']
  | _ => []

def ofText (s : Text) : Path := ⟨rootOf s, (Text.splitOn '/' s).filter isPart⟩

def isAbsolute (p : Path) : Bool := !p.root.isEmpty

def text (p : Path) : Text :=
  if p.root.isEmpty && p.parts.isEmpty then ['.'] else p.root ++ Text.join "/" p.parts

def name (p : Path) : Text := p.parts.getLast?.getD []

def parentName : Text := ['.', '.']

def parent (p : Path) : Path := ⟨p.root, p.parts.dropLast⟩

def join (p q : Path) : Path := if q.isAbsolute then q else ⟨p.root, p.parts ++ q.parts⟩

def fileName (s : Text) : Text := (ofText s).name

end Path
end Refit

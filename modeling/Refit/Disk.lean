/-
A small file store: files by the places they stand at, and the directories that have been made.

The directories on the way to a file exist with it. Paths start in the working directory, and may lead
above it or to the root; of what stands there nothing is known but that these places themselves are
directories.
-/
import Refit.Data.Pairs
import Refit.Fault
import Refit.Path

namespace Refit

/-- A place: the names from the root, or from a number of levels above the working directory. -/
structure Spot where
  above : Option Nat
  names : List Text
  deriving Repr, DecidableEq

namespace Spot

def start (p : Path) : Spot := ⟨if p.isAbsolute then none else some 0, []⟩

def up (s : Spot) : Spot :=
  if s.names.isEmpty then ⟨s.above.map (· + 1), []⟩ else ⟨s.above, s.names.dropLast⟩

def below (s : Spot) (name : Text) : Spot := ⟨s.above, s.names ++ [name]⟩

/-- Whether a place is on the way to another one, or that one itself. -/
def leadsTo (s t : Spot) : Bool := s.above == t.above && s.names.isPrefixOf t.names

def ofPath (p : Path) : Spot :=
  p.parts.foldl (fun s name => if name = Path.parentName then s.up else s.below name) (start p)

def text (s : Spot) : Text :=
  match s.above with
  | none => '/' :: Text.join "/" s.names
  | some n => Text.join "/" (List.replicate n Path.parentName ++ s.names)

end Spot

structure Disk (α : Type) where
  files : Data.Pairs Spot α
  made : List Spot

namespace Disk

variable {α : Type}

def empty : Disk α := ⟨[], []⟩

def isFile (d : Disk α) (s : Spot) : Bool := d.files.hasKey s

def isDirectory (d : Disk α) (s : Spot) : Bool :=
  s.names.isEmpty || d.made.any (s.leadsTo ·) || d.files.keys.any fun f => s.leadsTo f && f != s

/-- The most bytes in a name, and in a path. -/
def nameLimit : Nat := 255

def pathLimit : Nat := 4095

/-- Where the names lead from a directory, which each but the last has to go through. -/
def resolve (d : Disk α) : Spot → List Text → Except FileFault Spot
  | here, [] => .ok here
  | here, p :: ps =>
    if p = Path.parentName then resolve d here.up ps
    else if nameLimit < Text.byteCount p then .error .tooLong
    else
      let next := here.below p
      if ps.isEmpty || d.isDirectory next then resolve d next ps
      else if d.isFile next then .error .notDirectory
      else .error .missing

def locate (d : Disk α) (p : Path) : Except FileFault Spot :=
  if p.text.contains '\x00' then .error .nullName
  else if pathLimit < Text.byteCount p.text then .error .tooLong
  else d.resolve (.start p) p.parts

def read (d : Disk α) (p : Path) : Except FileFault α := do
  let at_ ← d.locate p
  match d.files.get? at_ with
  | some content => return content
  | none => if d.isDirectory at_ then .error .isDirectory else .error .missing

/-- Whether there is a file or a directory at a path. A name that is too long is no answer. -/
def hasPath (d : Disk α) (p : Path) : Except FileFault Bool :=
  match d.locate p with
  | .ok at_ => .ok (d.isFile at_ || d.isDirectory at_)
  | .error .tooLong => .error .tooLong
  | .error _ => .ok false

def hasDirectory (d : Disk α) (p : Path) : Bool :=
  match d.locate p with
  | .ok at_ => d.isDirectory at_
  | .error _ => false

def makeOne (d : Disk α) (p : Path) : Except FileFault (Disk α) := do
  let at_ ← d.locate p
  if d.isFile at_ || d.isDirectory at_ then .error .taken
  else return ⟨d.files, d.made ++ [at_]⟩

/-- Makes the directory at the names, the last one first, with those on the way to it; one that is
there already is kept. What has been made before a fault stays. -/
def makeNames (root : Text) (d : Disk α) : List Text → Disk α × Option FileFault
  | [] => (d, none)
  | name :: before =>
    let p : Path := ⟨root, (name :: before).reverse⟩
    let unlessThere (d : Disk α) (f : FileFault) : Disk α × Option FileFault :=
      (d, if d.hasDirectory p then none else some f)
    match d.makeOne p with
    | .ok d => (d, none)
    | .error .missing =>
      match makeNames root d before with
      | (d, some f) => (d, some f)
      | (d, none) =>
        match d.makeOne p with
        | .ok d => (d, none)
        | .error f => unlessThere d f
    | .error f => unlessThere d f

def makeDirectory (d : Disk α) (p : Path) : Disk α × Option FileFault :=
  makeNames p.root d p.parts.reverse

def place (d : Disk α) (p : Path) : Except FileFault Spot := do
  let at_ ← d.locate p
  if d.isDirectory at_ then .error .isDirectory else return at_

def write (d : Disk α) (p : Path) (content : α) : Disk α × Option FileFault :=
  match d.makeDirectory p.parent with
  | (d, some f) => (d, some f)
  | (d, none) =>
    match d.place p with
    | .ok at_ => (⟨d.files.put at_ content, d.made⟩, none)
    | .error f => (d, some f)

/-- Removes a file. The directory it stood in stays. -/
def remove (d : Disk α) (p : Path) : Except FileFault (Disk α) := do
  let at_ ← d.place p
  if d.isFile at_ then return ⟨d.files.erase at_, d.made ++ [at_.up]⟩ else .error .missing

end Disk
end Refit

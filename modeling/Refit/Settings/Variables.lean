/-
Files of variables: a name, an equals sign and a value on each line, with quotes, comments and
references to other variables.
-/
import Refit.Data.Pairs
import Refit.Text.Search

namespace Refit
namespace Settings

open Data (Pairs)

def isInnerBlank (c : Char) : Bool := Text.isBlank c && c != '\n' && c != '\r'

def isLineEnd (c : Char) : Bool := c == '\n' || c == '\r'

/-! ### Values -/

/-- A value without quotes, up to a comment that a blank goes before. -/
def unquoted (s : Text) : Text :=
  Text.trim (go none s)
where
  /-- `before` is the character before the text. -/
  go (before : Option Char) : Text → Text
    | [] => []
    | c :: rest =>
      if c == '#' && before.any Text.isBlank then [] else c :: go (some c) rest

/-- The length of quoted text up to its closing quote. A quote after a backslash is passed, unless no
other one closes the text. -/
def quotedLength? (quote : Char) : Text → Option Nat
  | [] => none
  | '\\' :: c :: rest =>
    if c = quote then
      match quotedLength? quote rest with
      | some n => some (n + 2)
      | none => some 1
    else (quotedLength? quote (c :: rest)).map (· + 1)
  | c :: rest => if c = quote then some 0 else (quotedLength? quote rest).map (· + 1)

def controls : List (Char × Char) :=
  [('a', '\x07'), ('b', '\x08'), ('f', '\x0c'), ('n', '\n'), ('r', '\r'), ('t', '\t'), ('v', '\x0b')]

def escape? (quote c : Char) : Option Char :=
  if c = '\\' ∨ c = '\'' then some c
  else if quote = '"' then
    if c = '"' then some c else (controls.find? fun e => e.1 == c).map Prod.snd
  else none

def unescaped (quote : Char) : Text → Text
  | '\\' :: c :: rest =>
    match escape? quote c with
    | some d => d :: unescaped quote rest
    | none => '\\' :: unescaped quote (c :: rest)
  | c :: rest => c :: unescaped quote rest
  | [] => []

/-- The value after an equals sign, and what follows it; nothing if a quote is left open. -/
def value? (s : Text) : Option (Text × Text) :=
  match s.dropWhile isInnerBlank with
  | q :: rest =>
    if q = '\'' ∨ q = '"' then
      (quotedLength? q rest).map fun n => (unescaped q (rest.take n), rest.drop (n + 1))
    else
      let line := s.takeWhile fun c => !isLineEnd c
      some (unquoted line, s.drop line.length)
  | [] => some ([], [])

/-! ### Lines -/

def afterExport (s : Text) : Text :=
  match Text.after? "export" s with
  | some rest => if rest.head?.any isInnerBlank then rest.dropWhile isInnerBlank else s
  | none => s

/-- A name, in single quotes or without; none before a comment. Nothing if there is no name. -/
def name? (s : Text) : Option (Option Text × Text) :=
  match s with
  | '#' :: _ => some (none, s)
  | '\'' :: rest =>
    let name := rest.takeWhile (· != '\'')
    if name.isEmpty || name.length = rest.length then none
    else some (some name, rest.drop (name.length + 1))
  | _ =>
    let name := s.takeWhile fun c => c != '=' && c != '#' && !Text.isBlank c
    if name.isEmpty then none else some (some name, s.drop name.length)

def lineRest? (s : Text) : Option Text :=
  let s := match s.dropWhile isInnerBlank with
    | '#' :: rest => rest.dropWhile fun c => !isLineEnd c
    | _ => s
  match s.dropWhile isInnerBlank with
  | [] => some []
  | '\n' :: rest => some rest
  | _ => none

def skipLine (s : Text) : Text := (s.dropWhile fun c => !isLineEnd c).drop 1

abbrev Binding := Text × Option Text

/-- The line at the start of a text, and what follows it. A line that breaks the rules gives nothing
and is skipped from where it does. -/
def line (s : Text) : Option Binding × Text :=
  match name? (afterExport s) with
  | none => (none, skipLine (afterExport s))
  | some (name, rest) =>
    let rest := rest.dropWhile isInnerBlank
    let given : Option (Option Text × Text) := match rest with
      | '=' :: after => (value? after).map fun r => (some r.1, r.2)
      | _ => some (none, rest)
    match given with
    | none => (none, skipLine rest)
    | some (value, after) =>
      match lineRest? after with
      | none => (none, skipLine after)
      | some after => (name.map fun n => (n, value), after)

def lines : Nat → Text → List Binding
  | 0, _ => []
  | fuel + 1, s =>
    match s.dropWhile Text.isBlank with
    | [] => []
    | s =>
      let r := line s
      r.1.toList ++ lines fuel r.2

/-! ### References -/

/-- A reference after its opening brace: a name, and what stands for it where it has no value. -/
def reference? (s : Text) : Option ((Text × Text) × Text) :=
  let name := s.takeWhile fun c => c != '\x7d' && c != ':'
  match s.drop name.length with
  | '\x7d' :: rest => some ((name, []), rest)
  | ':' :: '-' :: rest =>
    let default := rest.takeWhile (· != '\x7d')
    if default.length = rest.length then none
    else some ((name, default), rest.drop (default.length + 1))
  | _ => none

/-- `s` with the values of the variables it refers to, of which `fuel` bounds the number. -/
def resolve (value : Text → Option (Option Text)) : Nat → Text → Text
  | 0, s => s
  | fuel + 1, s =>
    match s with
    | '$' :: '\x7b' :: rest =>
      match reference? rest with
      | some ((name, default), rest) =>
        ((value name).getD (some default)).getD [] ++ resolve value fuel rest
      | none => '$' :: resolve value fuel ('\x7b' :: rest)
    | c :: rest => c :: resolve value fuel rest
    | [] => []

/-- The variables of a file, each with the values of those before it and of an environment. A name
without a value has none. -/
def variablesFrom (environment : Pairs Text Text) (known : Pairs Text (Option Text)) :
    List Binding → Pairs Text (Option Text)
  | [] => known
  | (name, value) :: more =>
    let look (n : Text) : Option (Option Text) :=
      (known.get? n).or ((environment.get? n).map some)
    let value := value.map fun s => resolve look (s.length + 1) s
    variablesFrom environment (known.put name value) more

/-- The variables of a file. A byte order mark before them says nothing. -/
def variablesOf (environment : Pairs Text Text) (file : Text) : Pairs Text (Option Text) :=
  let s := Text.unifyBreaks file
  let s := if s.head? = some '\ufeff' then s.drop 1 else s
  variablesFrom environment [] (lines (s.length + 1) s)

end Settings
end Refit

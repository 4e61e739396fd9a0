/-
The JSON text of a value, and the value of a JSON text.

The writer uses printable ASCII only, escaping every other character by its UTF-16 units. The reader
takes any JSON text, keeps the order of an object's entries, and tells whole numbers from others.
-/
import Refit.Data.Value
import Refit.Fault
import Refit.Number.Whole
import Refit.Text.Search

namespace Refit
namespace Data
namespace Json

/-! ### Writing -/

def hex4 (n : Nat) : Text :=
  [Nat.digitChar (n / 4096 % 16), Nat.digitChar (n / 256 % 16), Nat.digitChar (n / 16 % 16),
   Nat.digitChar (n % 16)]

def escapeUnit (n : Nat) : Text := '\\' :: 'u' :: hex4 n

def escapeChar (c : Char) : Text :=
  if c = '"' then ['\\', '"']
  else if c = '\\' then ['\\', '\\']
  else if c = '\n' then ['\\', 'n']
  else if c = '\r' then ['\\', 'r']
  else if c = '\t' then ['\\', 't']
  else if c = '\x08' then ['\\', 'b']
  else if c = '\x0c' then ['\\', 'f']
  else
    let n := c.toNat
    if 0x20 ≤ n ∧ n ≤ 0x7E then [c]
    else if n < 0x10000 then escapeUnit n
    else escapeUnit (0xD800 + (n - 0x10000) / 1024) ++ escapeUnit (0xDC00 + (n - 0x10000) % 1024)

def quote (s : Text) : Text := '"' :: s.flatMap escapeChar ++ ['"']

/-- Where the parts of a document go: on one line, or each on a line of its own, a given number of
spaces deeper at every level. -/
inductive Layout where
  | line
  | block (step : Nat)
  deriving Repr, DecidableEq

namespace Layout

def edge (l : Layout) (depth : Nat) : Text :=
  match l with
  | .line => []
  | .block step => '\n' :: List.replicate (step * depth) ' '

def gap (l : Layout) (depth : Nat) : Text :=
  match l with
  | .line => [' ']
  | .block step => '\n' :: List.replicate (step * depth) ' '

end Layout

def numberNames : Number.Decimal.Names := ⟨"Infinity", "NaN"⟩

def scalar : Value → Text
  | .null => "null"
  | .bool true => "true"
  | .bool false => "false"
  | .int n => Text.ofInt n
  | .float x => Number.Decimal.text numberNames x
  | .text s => quote s
  | .stamp s => quote s.text
  | .list _ => "[]"
  | .map _ => ['\x7b', '\x7d']

/-- A key is written as a text whatever its kind. -/
def key : Value → Text
  | .text s => quote s
  | v => quote (scalar v)

mutual

def write (l : Layout) (depth : Nat) : Value → Text
  | .list (v :: vs) =>
    ['['] ++ l.edge (depth + 1) ++ write l (depth + 1) v ++ writeItems l (depth + 1) vs ++
      l.edge depth ++ [']']
  | .map ((k, v) :: es) =>
    ['\x7b'] ++ l.edge (depth + 1) ++ key k ++ [':', ' '] ++ write l (depth + 1) v ++
      writeEntries l (depth + 1) es ++ l.edge depth ++ ['\x7d']
  | v => scalar v

def writeItems (l : Layout) (depth : Nat) : List Value → Text
  | [] => []
  | v :: vs => [','] ++ l.gap depth ++ write l depth v ++ writeItems l depth vs

def writeEntries (l : Layout) (depth : Nat) : List (Value × Value) → Text
  | [] => []
  | (k, v) :: es =>
    [','] ++ l.gap depth ++ key k ++ [':', ' '] ++ write l depth v ++ writeEntries l depth es

end

def checkNumber (n : Int) : Except Fault Unit :=
  if Number.isWritable n then .ok () else .error .tooManyDigits

def checkKey : Value → Except Fault Unit
  | .int n => checkNumber n
  | .stamp _ => .error .messageArguments
  | .list _ => .error .messageArguments
  | .map _ => .error .messageArguments
  | _ => .ok ()

mutual

/-- The first fault, in the order of the document, that keeps a value from being written. -/
def check : Value → Except Fault Unit
  | .int n => checkNumber n
  | .list vs => checkItems vs
  | .map es => checkEntries es
  | _ => .ok ()

def checkItems : List Value → Except Fault Unit
  | [] => .ok ()
  | v :: vs => do
    check v
    checkItems vs

def checkEntries : List (Value × Value) → Except Fault Unit
  | [] => .ok ()
  | (k, v) :: es => do
    checkKey k
    check v
    checkEntries es

end

def pretty (v : Value) : Text := write (.block 2) 0 v

def compact (v : Value) : Text := write .line 0 v

/-! ### Reading -/

def isSpace (c : Char) : Bool := c == ' ' || c == '\n' || c == '\r' || c == '\t'

def skipSpace (s : Text) : Text := s.dropWhile isSpace

def hexValue? (c : Char) : Option Nat :=
  let n := c.toNat
  if 48 ≤ n ∧ n ≤ 57 then some (n - 48)
  else if 97 ≤ n ∧ n ≤ 102 then some (n - 87)
  else if 65 ≤ n ∧ n ≤ 70 then some (n - 55)
  else none

def readUnit : Text → Option (Nat × Text)
  | a :: b :: c :: d :: rest => do
    let a ← hexValue? a
    let b ← hexValue? b
    let c ← hexValue? c
    let d ← hexValue? d
    some (4096 * a + 256 * b + 16 * c + d, rest)
  | _ => none

def scalarChar? (n : Nat) : Option Char :=
  if h : n.isValidChar then some (Char.ofNatAux n h) else none

/-- The character escaped by a unit, or by a pair of units of which the first has been read. -/
def readEscapedUnit (unit : Nat) (rest : Text) : Option (Char × Text) :=
  if 0xD800 ≤ unit ∧ unit < 0xDC00 then
    match rest with
    | '\\' :: 'u' :: rest => do
      let (low, rest) ← readUnit rest
      if 0xDC00 ≤ low ∧ low < 0xE000 then
        let c ← scalarChar? (0x10000 + 1024 * (unit - 0xD800) + (low - 0xDC00))
        some (c, rest)
      else none
    | _ => none
  else do
    let c ← scalarChar? unit
    some (c, rest)

def readChar : Text → Option (Char × Text)
  | [] => none
  | '\\' :: 'u' :: rest => do
    let (unit, rest) ← readUnit rest
    readEscapedUnit unit rest
  | '\\' :: c :: rest =>
    match c with
    | '"' => some ('"', rest)
    | '\\' => some ('\\', rest)
    | '/' => some ('/', rest)
    | 'n' => some ('\n', rest)
    | 'r' => some ('\r', rest)
    | 't' => some ('\t', rest)
    | 'b' => some ('\x08', rest)
    | 'f' => some ('\x0c', rest)
    | _ => none
  | c :: rest => if c.toNat < 0x20 ∨ c = '\\' ∨ c = '"' then none else some (c, rest)

def readQuoted : Nat → Text → Option (Text × Text)
  | _, '"' :: rest => some ([], rest)
  | 0, _ => none
  | fuel + 1, s => do
    let (c, rest) ← readChar s
    let (more, rest) ← readQuoted fuel rest
    some (c :: more, rest)

def isAsciiDigit (c : Char) : Bool := 48 ≤ c.toNat && c.toNat ≤ 57

/-- A number: whole if it has neither a fraction nor a power of ten. -/
def readNumber (s : Text) : Option (Value × Text) :=
  let (negative, s) := match s with
    | '-' :: rest => (true, rest)
    | _ => (false, s)
  let whole := s.takeWhile isAsciiDigit
  let s := s.dropWhile isAsciiDigit
  if whole.isEmpty ∨ (whole.length ≠ 1 ∧ whole.head? = some '0') then none
  else
    let (places, s) := match s with
      | '.' :: rest =>
        if (rest.takeWhile isAsciiDigit).isEmpty then ([], s)
        else (rest.takeWhile isAsciiDigit, rest.dropWhile isAsciiDigit)
      | _ => ([], s)
    let (power, s) := match s with
      | e :: rest =>
        if e = 'e' ∨ e = 'E' then
          let (down, digits) := match rest with
            | '-' :: more => (true, more)
            | '+' :: more => (false, more)
            | _ => (false, rest)
          let n := digits.takeWhile isAsciiDigit
          if n.isEmpty then (none, s)
          else
            let p : Int := Text.digitsValue n
            (some (if down then -p else p), digits.dropWhile isAsciiDigit)
        else (none, s)
      | [] => (none, s)
    if places.isEmpty ∧ power.isNone then
      let n : Int := Text.digitsValue whole
      some (.int (if negative then -n else n), s)
    else
      let mantissa := Text.digitsValue (whole ++ places)
      some (.float (.ofDecimal negative mantissa (power.getD 0 - places.length)), s)

def wordValues : List (Text × Value) :=
  [("null", .null), ("true", .bool true), ("false", .bool false), ("NaN", .float .nan),
   ("Infinity", .float (.infinite false)), ("-Infinity", .float (.infinite true))]

def readWord (s : Text) : Option (Value × Text) :=
  wordValues.findSome? fun w => (Text.after? w.1 s).map fun rest => (w.2, rest)

mutual

def readValue : Nat → Text → Option (Value × Text)
  | 0, _ => none
  | fuel + 1, s =>
    match skipSpace s with
    | '"' :: rest => (readQuoted rest.length rest).map fun r => (.text r.1, r.2)
    | '[' :: rest =>
      match skipSpace rest with
      | ']' :: rest => some (.list [], rest)
      | rest => (readItems fuel rest).map fun r => (.list r.1, r.2)
    | '\x7b' :: rest =>
      match skipSpace rest with
      | '\x7d' :: rest => some (.map [], rest)
      | rest => (readEntries fuel rest).map fun r => (.map r.1, r.2)
    | s => (readWord s).or (readNumber s)

def readItems : Nat → Text → Option (List Value × Text)
  | 0, _ => none
  | fuel + 1, s => do
    let (v, rest) ← readValue fuel s
    match skipSpace rest with
    | ']' :: rest => some ([v], rest)
    | ',' :: rest =>
      let (vs, rest) ← readItems fuel rest
      some (v :: vs, rest)
    | _ => none

def readEntries : Nat → Text → Option (List (Value × Value) × Text)
  | 0, _ => none
  | fuel + 1, s =>
    match skipSpace s with
    | '"' :: rest => do
      let (k, rest) ← readQuoted rest.length rest
      match skipSpace rest with
      | ':' :: rest =>
        let (v, rest) ← readValue fuel rest
        match skipSpace rest with
        | '\x7d' :: rest => some ([(.text k, v)], rest)
        | ',' :: rest =>
          let (es, rest) ← readEntries fuel rest
          some ((.text k, v) :: es, rest)
        | _ => none
      | _ => none
    | _ => none

end

/-- The value of a whole text. Every value and every item takes at least one character, so twice the
length of the text bounds the depth of the reading. -/
def parse? (s : Text) : Option Value :=
  match readValue (2 * s.length + 2) s with
  | some (v, rest) => if (skipSpace rest).isEmpty then some v else none
  | none => none

end Json
end Data
end Refit

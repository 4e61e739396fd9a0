/-
Messages with arguments: each directive of a message takes the next argument, or names an entry of the
one argument there is.
-/
import Refit.Data.Display
import Refit.Fault

namespace Refit
namespace Log

open Data (Value)
open Number (Binary64)

/-- The arguments of a message: several, or one value for all of it. -/
inductive Arguments where
  | several (values : List Value)
  | single (v : Value)

namespace Arguments

/-- The arguments in a list. One mapping alone, unless it is empty, is for all of the message. -/
def ofList : List Value → Arguments
  | [.map (e :: es)] => .single (.map (e :: es))
  | values => .several values

def isVacant : Arguments → Bool
  | .several vs => vs.isEmpty
  | .single v => v.isVacant

def values : Arguments → List Value
  | .several vs => vs
  | .single v => [v]

/-- The argument whose entries may be named. A list counts as one, though it has none. -/
def named? : Arguments → Option Value
  | .single (.list vs) => some (.list vs)
  | .single (.map es) => some (.map es)
  | _ => none

end Arguments

structure Directive where
  left : Bool
  zero : Bool
  plus : Bool
  space : Bool
  alternate : Bool
  width : Nat
  places : Option Nat
  conversion : Char
  deriving Repr, DecidableEq

/-! ### Conversions -/

namespace Directive

def pad (d : Directive) (s : Text) : Text :=
  let fill := List.replicate (d.width - s.length) ' '
  if d.left then s ++ fill else fill ++ s

/-- Digits under a sign and a mark of their base. Zeros go between these and the digits. -/
def signed (d : Directive) (negative : Bool) (mark digits : Text) : Text :=
  let sign : Text :=
    if negative then ['-'] else if d.plus then ['+'] else if d.space then [' '] else []
  let lead := sign ++ mark
  if d.zero && !d.left then lead ++ Text.padZeros (d.width - lead.length) digits
  else d.pad (lead ++ digits)

def whole (d : Directive) (base : Nat) (mark : Text) (n : Int) : Text :=
  let digits := Text.padZeros (d.places.getD 0) (Nat.toDigits base n.natAbs)
  d.signed (n < 0) (if d.alternate then mark else []) digits

def number (d : Directive) (n : Int) : Text := d.whole 10 [] n

def text (d : Directive) (s : Text) : Text :=
  d.pad (match d.places with
    | some n => s.take n
    | none => s)

def point (d : Directive) (x : Binary64) : Text :=
  let places := d.places.getD 6
  let lower := d.conversion.toLower
  let cased (s : Text) : Text := if d.conversion = lower then s else s.map Char.toUpper
  match x with
  | .nan => d.signed false [] (cased "nan")
  | .infinite negative => d.signed negative [] (cased "inf")
  | .finite negative m e =>
    let f := Binary64.fraction m e
    let digits :=
      if lower = 'f' then Number.Decimal.fixed d.alternate places f.1 f.2
      else if lower = 'e' then Number.Decimal.scientific d.alternate places f.1 f.2
      else Number.Decimal.general d.alternate places f.1 f.2
    d.signed negative [] (cased digits)

end Directive

def integer? : Value → Option Int
  | .int n => some n
  | .bool b => some (if b then 1 else 0)
  | _ => none

def wholePart : Value → Except Fault Int
  | .float (.finite negative m e) =>
    let f := Binary64.fraction m e
    let n : Int := (f.1 / f.2 : Nat)
    .ok (if negative then -n else n)
  | .float (.infinite _) => .error .numberOutOfRange
  | .float .nan => .error .invalidNumber
  | v =>
    match integer? v with
    | some n => .ok n
    | none => .error .messageArguments

def pointNumber : Value → Except Fault Binary64
  | .float x => .ok x
  | v =>
    match integer? v with
    | none => .error .messageArguments
    | some n =>
      match Binary64.ofFraction (n < 0) n.natAbs 1 with
      | .infinite _ => .error .numberOutOfRange
      | x => .ok x

def character : Value → Except Fault Text
  | .text [c] => .ok [c]
  | v =>
    match integer? v with
    | none => .error .messageArguments
    | some n =>
      if n < 0 ∨ 0x10FFFF < n then .error .numberOutOfRange else .ok [Char.ofNat n.toNat]

def writable (n : Int) : Except Fault Int :=
  if Number.isWritable n then .ok n else .error .tooManyDigits

def integer (v : Value) : Except Fault Int :=
  match integer? v with
  | some n => .ok n
  | none => .error .messageArguments

def nestedText (v : Value) : Except Fault Text :=
  if Data.Display.hasText v then .ok (Data.Display.nested v) else .error .tooManyDigits

def asciiText (s : Text) : Text :=
  s.flatMap fun c => if c.toNat < 0x80 then [c] else Text.Quoted.escapeCode c.toNat

def Directive.apply (d : Directive) (v : Value) : Except Fault Text :=
  match d.conversion with
  | 's' => do return d.text (← Data.Display.text? v)
  | 'r' => do return d.text (← nestedText v)
  | 'a' => do return d.text (asciiText (← nestedText v))
  | 'c' => do return d.pad (← character v)
  | 'o' => do return d.whole 8 ['0', 'o'] (← integer v)
  | 'x' => do return d.whole 16 ['0', 'x'] (← integer v)
  | 'X' => do return (d.whole 16 ['0', 'X'] (← integer v)).map Char.toUpper
  | c =>
    if c = 'd' ∨ c = 'i' ∨ c = 'u' then do return d.number (← writable (← wholePart v))
    else if ['e', 'E', 'f', 'F', 'g', 'G'].contains c then do return d.point (← pointNumber v)
    else .error .unknownDirective

/-! ### Directives -/

structure Filling where
  rest : Text
  args : List Value

def Filling.next (s : Filling) : Except Fault (Value × Filling) :=
  match s.args with
  | [] => .error .messageArguments
  | v :: args => .ok (v, { s with args := args })

/-- The length of a name up to the bracket that closes it; names may hold pairs of brackets. -/
def nameLength? (depth : Nat) : Text → Option Nat
  | [] => none
  | ')' :: rest => if depth = 0 then some 0 else (nameLength? (depth - 1) rest).map (· + 1)
  | '(' :: rest => (nameLength? (depth + 1) rest).map (· + 1)
  | _ :: rest => (nameLength? depth rest).map (· + 1)

/-- A name in brackets takes the place of the arguments by the entry it names. -/
def naming (named : Option Value) (s : Filling) : Except Fault Filling :=
  match s.rest with
  | '(' :: rest =>
    match named with
    | none => .error .messageArguments
    | some v =>
      match nameLength? 0 rest with
      | none => .error .unknownDirective
      | some n =>
        match v, v.field? (rest.take n) with
        | .map _, some entry => .ok ⟨rest.drop (n + 1), [entry]⟩
        | .map _, none => .error .missingEntry
        | _, _ => .error .messageArguments
  | _ => .ok s

def isFlag (c : Char) : Bool := c == '-' || c == '0' || c == '+' || c == ' ' || c == '#'

def widthLimit : Nat := Nat.pow 2 63 - 1

def placesLimit : Nat := Nat.pow 2 31 - 1

/-- A number in a directive: a star takes it from the arguments. -/
def measure (limit : Nat) (s : Filling) : Except Fault (Option Int × Filling) :=
  match s.rest with
  | '*' :: rest => do
    let (v, s) ← { s with rest := rest }.next
    let n ← integer v
    if (limit : Int) < n ∨ n < -(limit : Int) - 1 then .error .numberOutOfRange else return (some n, s)
  | _ =>
    let digits := s.rest.takeWhile Char.isDigit
    let n := Text.digitsValue digits
    if digits.isEmpty then .ok (none, s)
    else if limit < n then .error .unknownDirective
    else .ok (some n, { s with rest := s.rest.drop digits.length })

def placesOf (s : Filling) : Except Fault (Option Nat × Filling) :=
  match s.rest with
  | '.' :: rest => do
    let (n, s) ← measure placesLimit { s with rest := rest }
    return (some (n.getD 0).toNat, s)
  | _ => .ok (none, s)

def directive (named : Option Value) (s : Filling) : Except Fault (Directive × Filling) := do
  let s ← naming named s
  let flags := s.rest.takeWhile isFlag
  let (width, s) ← measure widthLimit { s with rest := s.rest.drop flags.length }
  let (places, s) ← placesOf s
  let rest := match s.rest with
    | c :: rest => if c = 'h' ∨ c = 'l' ∨ c = 'L' then rest else c :: rest
    | [] => []
  match rest with
  | [] => .error .unknownDirective
  | c :: rest =>
    let width := width.getD 0
    return (⟨flags.contains '-' || width < 0, flags.contains '0', flags.contains '+',
      flags.contains ' ', flags.contains '#', width.natAbs, places, c⟩, ⟨rest, s.args⟩)

/-- Fills in the arguments. Some may remain at the end only if there are named ones; at most `fuel`
characters and directives are read. -/
def fill (named : Option Value) : Nat → Filling → Except Fault Text
  | 0, s => .ok s.rest
  | fuel + 1, s =>
    match s.rest with
    | [] => if s.args.isEmpty || named.isSome then .ok [] else .error .messageArguments
    | '%' :: '%' :: rest => do
      let more ← fill named fuel { s with rest := rest }
      return '%' :: more
    | '%' :: rest => do
      let (d, s) ← directive named { s with rest := rest }
      let (v, s) ← s.next
      let t ← d.apply v
      let more ← fill named fuel s
      return t ++ more
    | c :: rest => do
      let more ← fill named fuel { s with rest := rest }
      return c :: more

def formatMessage (message : Text) (args : Arguments) : Except Fault Text :=
  if args.isVacant then .ok message
  else fill args.named? (message.length + 1) ⟨message, args.values⟩

end Log
end Refit

/-
Quoted texts: in single quotes, or in double ones where that avoids escaping, with everything escaped
that does not print.
-/
import Refit.Text.Basic

namespace Refit
namespace Text
namespace Quoted

def isUnprintable (c : Char) : Bool := covers unprintableRanges c.toNat

def hexDigits : Nat → Nat → Text
  | 0, _ => []
  | count + 1, n => hexDigits count (n / 16) ++ [Nat.digitChar (n % 16)]

def escapeCode (n : Nat) : Text :=
  if n < 0x100 then "\\x" ++ hexDigits 2 n
  else if n < 0x10000 then "\\u" ++ hexDigits 4 n
  else "\\U" ++ hexDigits 8 n

def escapeChar (quote c : Char) : Text :=
  if c = quote ∨ c = '\\' then ['\\', c]
  else if c = '\n' then ['\\', 'n']
  else if c = '\r' then ['\\', 'r']
  else if c = '\t' then ['\\', 't']
  else if isUnprintable c then escapeCode c.toNat
  else [c]

def quoteFor (s : Text) : Char := if s.contains '\'' && !s.contains '"' then '"' else '\''

def encode (s : Text) : Text :=
  let quote := quoteFor s
  quote :: s.flatMap (escapeChar quote) ++ [quote]

end Quoted
end Text
end Refit

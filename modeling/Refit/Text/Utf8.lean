/-
UTF-8: the bytes of a text, and the text of some bytes.

Bytes that are no encoding fall into pieces: a byte that starts nothing, or the longest start of a
character that the next byte does not go on with. The strict decoder stops at the first piece; the
other one puts one replacement character for each.
-/
import Refit.Text.Basic

namespace Refit
namespace Text
namespace Utf8

def encodeChar (c : Char) : List UInt8 :=
  let n := c.toNat
  if n < 0x80 then [.ofNat n]
  else if n < 0x800 then [.ofNat (0xC0 + n / 64), .ofNat (0x80 + n % 64)]
  else if n < 0x10000 then
    [.ofNat (0xE0 + n / 4096), .ofNat (0x80 + n / 64 % 64), .ofNat (0x80 + n % 64)]
  else
    [.ofNat (0xF0 + n / 262144), .ofNat (0x80 + n / 4096 % 64), .ofNat (0x80 + n / 64 % 64),
     .ofNat (0x80 + n % 64)]

def encode (s : Text) : List UInt8 := s.flatMap encodeChar

inductive Defect where
  | invalidStart
  | invalidContinuation
  | endOfData
  deriving Repr, DecidableEq

/-- What the first byte of a character says: how many bytes follow, the bounds of the next one, and
the bits it gives. -/
structure Lead where
  more : Nat
  low : Nat
  high : Nat
  bits : Nat
  deriving Repr, DecidableEq

def lead? (n : Nat) : Option Lead :=
  if n < 0x80 then some ⟨0, 0x80, 0xBF, n⟩
  else if n < 0xC2 then none
  else if n < 0xE0 then some ⟨1, 0x80, 0xBF, n - 0xC0⟩
  else if n = 0xE0 then some ⟨2, 0xA0, 0xBF, 0⟩
  else if n = 0xED then some ⟨2, 0x80, 0x9F, 0xD⟩
  else if n < 0xF0 then some ⟨2, 0x80, 0xBF, n - 0xE0⟩
  else if n = 0xF0 then some ⟨3, 0x90, 0xBF, 0⟩
  else if n < 0xF4 then some ⟨3, 0x80, 0xBF, n - 0xF0⟩
  else if n = 0xF4 then some ⟨3, 0x80, 0x8F, 4⟩
  else none

structure Piece where
  length : Nat
  defect : Defect
  deriving Repr, DecidableEq

/-- The bytes that go on with a character of which `taken` have been read. -/
def goOn (taken bits : Nat) : Nat → Nat → Nat → List UInt8 → Except Piece (Nat × List UInt8)
  | 0, _, _, rest => .ok (bits, rest)
  | _ + 1, _, _, [] => .error ⟨taken, .endOfData⟩
  | more + 1, low, high, b :: rest =>
    if low ≤ b.toNat ∧ b.toNat ≤ high then
      goOn (taken + 1) (64 * bits + (b.toNat - 0x80)) more 0x80 0xBF rest
    else .error ⟨taken, .invalidContinuation⟩

def decodeChar (b : UInt8) (rest : List UInt8) : Except Piece (Char × List UInt8) :=
  match lead? b.toNat with
  | none => .error ⟨1, .invalidStart⟩
  | some l => do
    let (n, rest) ← goOn 1 l.bits l.more l.low l.high rest
    return (Char.ofNat n, rest)

def replacement : Char := '�'

def decodeReplacingUpTo : Nat → List UInt8 → Text
  | 0, _ => []
  | _, [] => []
  | fuel + 1, b :: rest =>
    match decodeChar b rest with
    | .ok (c, rest) => c :: decodeReplacingUpTo fuel rest
    | .error piece => replacement :: decodeReplacingUpTo fuel ((b :: rest).drop piece.length)

/-- The text of some bytes, with one replacement character for each defective piece. -/
def decodeReplacing (bytes : List UInt8) : Text := decodeReplacingUpTo bytes.length bytes

structure Failure where
  start : Nat
  byte : UInt8
  piece : Piece
  deriving Repr, DecidableEq

def decodeUpTo (pos : Nat) : Nat → List UInt8 → Except Failure Text
  | 0, _ => .ok []
  | _, [] => .ok []
  | fuel + 1, b :: rest =>
    match decodeChar b rest with
    | .ok (c, after) => do
      let more ← decodeUpTo (pos + ((b :: rest).length - after.length)) fuel after
      return c :: more
    | .error piece => .error ⟨pos, b, piece⟩

/-- The text that some bytes encode, if they are an encoding throughout. -/
def decode (bytes : List UInt8) : Except Failure Text := decodeUpTo 0 bytes.length bytes

def Defect.text : Defect → Text
  | .invalidStart => "invalid start byte"
  | .invalidContinuation => "invalid continuation byte"
  | .endOfData => "unexpected end of data"

def hexByte (b : UInt8) : Text :=
  [Nat.digitChar (b.toNat / 16), Nat.digitChar (b.toNat % 16)]

def Failure.message (f : Failure) : Text :=
  let place : Text :=
    if f.piece.length = 1 then
      "byte 0x" ++ hexByte f.byte ++ " in position " ++ ofNat f.start
    else "bytes in position " ++ ofNat f.start ++ "-" ++ ofNat (f.start + f.piece.length - 1)
  "'utf-8' codec can't decode " ++ place ++ ": " ++ f.piece.defect.text

def slice (bytes : List UInt8) (start stop : Nat) : List UInt8 :=
  (bytes.drop start).take (stop - start)

end Utf8
end Text
end Refit

/-
The grammar of JSON texts, with the value that each text stands for.

The rules are those of the format and know nothing of how texts are written or
read here.  Every nonterminal is a relation between a text and its meaning, and a
text is put together from its parts by appending, so a derivation shows where one
part ends and the next begins.  Values, items and entries refer to each other;
they are the cases of one relation, so that an induction goes through all three.
-/
import Refit.Data.Json

namespace Refit
namespace Data
namespace Json

def Spaces (w : Text) : Prop := ∀ c ∈ w, c ∈ [' ', '\n', '\r', '\t']

theorem Spaces.nil : Spaces [] := List.forall_mem_nil _

/-! ## Characters of a quoted text -/

inductive HexDigit (c : Char) : Nat → Prop
  | decimal {n : Nat} (range : n < 10) (code : c.toNat = '0'.toNat + n) : HexDigit c n
  | lower {n : Nat} (range : n < 6) (code : c.toNat = 'a'.toNat + n) : HexDigit c (10 + n)
  | upper {n : Nat} (range : n < 6) (code : c.toNat = 'A'.toNat + n) : HexDigit c (10 + n)

inductive UnitText : Text → Nat → Prop
  | mk {a b c d : Char} {i j k l : Nat} (first : HexDigit a i) (second : HexDigit b j)
      (third : HexDigit c k) (fourth : HexDigit d l) :
      UnitText [a, b, c, d] (4096 * i + 256 * j + 16 * k + l)

def shortEscapes : List (Char × Char) :=
  [('"', '"'), ('\\', '\\'), ('/', '/'), ('b', '\x08'), ('f', '\x0c'), ('n', '\n'), ('r', '\r'),
    ('t', '\t')]

/-- A character as it is, or escaped by a letter, by its unit or by its pair of units. -/
inductive CharText : Text → Char → Prop
  | plain {c : Char} (printable : 0x20 ≤ c.toNat) (unquoted : c ≠ '"') (unescaped : c ≠ '\\') :
      CharText [c] c
  | short {letter c : Char} (escape : (letter, c) ∈ shortEscapes) : CharText ['\\', letter] c
  | unit {u : Text} {c : Char} (unit : UnitText u c.toNat) : CharText ('\\' :: 'u' :: u) c
  | pair {u v : Text} {high low : Nat} {c : Char} (first : UnitText u (0xD800 + high))
      (second : UnitText v (0xDC00 + low)) (high_lt : high < 1024) (low_lt : low < 1024)
      (code : c.toNat = 0x10000 + 1024 * high + low) :
      CharText ('\\' :: 'u' :: u ++ '\\' :: 'u' :: v) c

inductive CharsText : Text → Text → Prop
  | nil : CharsText [] []
  | cons {s t cs : Text} {c : Char} (first : CharText s c) (rest : CharsText t cs) :
      CharsText (s ++ t) (c :: cs)

/-! ## Numbers -/

def Digits (s : Text) : Prop := s ≠ [] ∧ ∀ c ∈ s, '0'.toNat ≤ c.toNat ∧ c.toNat ≤ '9'.toNat

inductive SignText : Text → Bool → Prop
  | none : SignText [] false
  | plus : SignText ['+'] false
  | minus : SignText ['-'] true

inductive PlacesText : Text → Text → Prop
  | none : PlacesText [] []
  | some {s : Text} (digits : Digits s) : PlacesText ('.' :: s) s

inductive PowerText : Text → Option Int → Prop
  | none : PowerText [] none
  | some {e : Char} {sign s : Text} {down : Bool} (mark : e = 'e' ∨ e = 'E')
      (signed : SignText sign down) (digits : Digits s) :
      PowerText (e :: (sign ++ s))
        (some (if down then -(Text.digitsValue s : Int) else Text.digitsValue s))

/-- A number with a point or a power of ten in it is not a whole one, whatever its value. -/
def numberValue (negative : Bool) (whole places : Text) (power : Option Int) : Value :=
  if places = [] ∧ power = none then
    .int (if negative then -(Text.digitsValue whole : Int) else Text.digitsValue whole)
  else
    .float (.ofDecimal negative (Text.digitsValue (whole ++ places)) (power.getD 0 - places.length))

inductive NumberText : Text → Value → Prop
  | mk {whole point rise places : Text} {power : Option Int} (negative : Bool)
      (digits : Digits whole) (leading : whole.head? = some '0' → whole = ['0'])
      (fraction : PlacesText point places) (exponent : PowerText rise power) :
      NumberText ((if negative then ['-'] else []) ++ (whole ++ (point ++ rise)))
        (numberValue negative whole places power)

/-! ## Values -/

/-- What a stretch of a text can stand for: a value, the items of a list or the entries of an object. -/
inductive Part where
  | value (v : Value)
  | items (vs : List Value)
  | entries (es : List (Value × Value))

inductive Denotes : Text → Part → Prop
  | nullWord : Denotes "null" (.value .null)
  | trueWord : Denotes "true" (.value (.bool true))
  | falseWord : Denotes "false" (.value (.bool false))
  | number {s : Text} {v : Value} (number : NumberText s v) : Denotes s (.value v)
  | text {s cs : Text} (chars : CharsText s cs) :
      Denotes ('"' :: (s ++ ['"'])) (.value (.text cs))
  | noItems {w : Text} (spaces : Spaces w) : Denotes ('[' :: (w ++ [']'])) (.value (.list []))
  | list {s : Text} {vs : List Value} (items : Denotes s (.items vs)) :
      Denotes ('[' :: (s ++ [']'])) (.value (.list vs))
  | noEntries {w : Text} (spaces : Spaces w) :
      Denotes ('\x7b' :: (w ++ ['\x7d'])) (.value (.map []))
  | map {s : Text} {es : List (Value × Value)} (entries : Denotes s (.entries es)) :
      Denotes ('\x7b' :: (s ++ ['\x7d'])) (.value (.map es))
  | item {a s b : Text} {v : Value} (before : Spaces a) (first : Denotes s (.value v))
      (after : Spaces b) : Denotes (a ++ (s ++ b)) (.items [v])
  | items {a s b t : Text} {v : Value} {vs : List Value} (before : Spaces a)
      (first : Denotes s (.value v)) (after : Spaces b) (rest : Denotes t (.items vs)) :
      Denotes (a ++ (s ++ (b ++ ',' :: t))) (.items (v :: vs))
  | entry {a k b c s d name : Text} {v : Value} (before : Spaces a) (key : CharsText k name)
      (behind : Spaces b) (between : Spaces c) (first : Denotes s (.value v)) (after : Spaces d) :
      Denotes (a ++ '"' :: (k ++ '"' :: (b ++ ':' :: (c ++ (s ++ d))))) (.entries [(.text name, v)])
  | entries {a k b c s d t name : Text} {v : Value} {es : List (Value × Value)} (before : Spaces a)
      (key : CharsText k name) (behind : Spaces b) (between : Spaces c)
      (first : Denotes s (.value v)) (after : Spaces d) (rest : Denotes t (.entries es)) :
      Denotes (a ++ '"' :: (k ++ '"' :: (b ++ ':' :: (c ++ (s ++ (d ++ ',' :: t))))))
        (.entries ((.text name, v) :: es))

inductive Document : Text → Value → Prop
  | mk {a s b : Text} {v : Value} (before : Spaces a) (value : Denotes s (.value v))
      (after : Spaces b) : Document (a ++ (s ++ b)) v

end Json
end Data
end Refit

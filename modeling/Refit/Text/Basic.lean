/-
Text as a list of characters, and the classes of characters that the readers of this library go by.

Positions and lengths count characters, and every reader is a function from the characters still to
come, so a list serves better than a packed string: its view is itself.
-/
import Refit.Text.Classes

namespace Refit

abbrev Text := List Char

scoped instance : Coe String Text := ⟨String.toList⟩

namespace Text

def isBlank (c : Char) : Bool :=
  let n := c.toNat
  (9 ≤ n && n ≤ 13) || (0x1C ≤ n && n ≤ 0x20) || n == 0x85 || n == 0xA0 || n == 0x1680 ||
    (0x2000 ≤ n && n ≤ 0x200A) || n == 0x2028 || n == 0x2029 || n == 0x202F || n == 0x205F ||
    n == 0x3000

/-- Characters that end a line of a report; a carriage return and a line feed together end one. -/
def isBreak (c : Char) : Bool :=
  let n := c.toNat
  (10 ≤ n && n ≤ 13) || (0x1C ≤ n && n ≤ 0x1E) || n == 0x85 || n == 0x2028 || n == 0x2029

def digitValue? (c : Char) : Option Nat := digitFrom? digitZeros c.toNat

def isDigit (c : Char) : Bool := (digitValue? c).isSome

/-- Characters a word is made of: letters, digits and the low line. -/
def isWord (c : Char) : Bool :=
  c.isAlphanum || c == '_' || isDigit c || covers letterRanges c.toNat

def isIdentChar (c : Char) : Bool := isWord c || c == '$'

def isIdentStart (c : Char) : Bool := c.isAlpha || c == '_' || c == '$'

def isGap (c : Char) : Bool := c == ' ' || c == '\t'

theorem isIdentChar_of_isIdentStart {c : Char} (h : isIdentStart c = true) :
    isIdentChar c = true := by
  simp only [isIdentStart, isIdentChar, isWord, Char.isAlphanum, Bool.or_eq_true] at h ⊢
  rcases h with (h | h) | h
  · exact .inl (.inl (.inl (.inl (.inl h))))
  · exact .inl (.inl (.inl (.inr h)))
  · exact .inr h

/-- Whether `s` comes no later than `t` in the order of code points. -/
def noLater : Text → Text → Bool
  | [], _ => true
  | _ :: _, [] => false
  | c :: s, d :: t => c.toNat < d.toNat || (c == d && noLater s t)

def byteCount (s : Text) : Nat := (s.map Char.utf8Size).foldr (· + ·) 0

/-! ### Numbers -/

/-- The value of a run of decimal digits; a character that is none counts as zero. -/
def digitsValue (digits : Text) : Nat :=
  digits.foldl (fun n c => 10 * n + (digitValue? c).getD 0) 0

def ofNat (n : Nat) : Text := Nat.toDigits 10 n

def ofInt : Int → Text
  | .ofNat n => ofNat n
  | .negSucc n => '-' :: ofNat (n + 1)

def padZeros (width : Nat) (digits : Text) : Text :=
  List.replicate (width - digits.length) '0' ++ digits

/-! ### Trimming and words -/

def trimStart (p : Char → Bool) (s : Text) : Text := s.dropWhile p

def trimEnd (p : Char → Bool) (s : Text) : Text := (s.reverse.dropWhile p).reverse

def trim (s : Text) : Text := trimEnd isBlank (trimStart isBlank s)

/-- The maximal runs of characters that are not blank. -/
def words (s : Text) : List Text :=
  go [] s
where
  /-- `word` holds the characters of the word being read, last first. -/
  go (word : Text) : Text → List Text
    | [] => if word.isEmpty then [] else [word.reverse]
    | c :: rest =>
      if isBlank c then
        if word.isEmpty then go [] rest else word.reverse :: go [] rest
      else go (c :: word) rest

def join (sep : Text) (parts : List Text) : Text := List.flatten (parts.intersperse sep)

def collapse (s : Text) : Text := join " " (words s)

/-! ### Lines -/

/-- The pieces of `s` between its occurrences of `sep`; one more than there are occurrences. -/
def splitOn (sep : Char) : Text → List Text
  | [] => [[]]
  | c :: rest =>
    if c = sep then [] :: splitOn sep rest
    else match splitOn sep rest with
      | [] => [[c]]
      | line :: lines => (c :: line) :: lines

def fileLines (s : Text) : List Text := splitOn '\n' s

def ofFileLines (lines : List Text) : Text := join "\n" lines

/-- The lines of a report. Every break ends a line, and the end of the text starts none. -/
def reportLines (s : Text) : List Text :=
  go [] s
where
  /-- `line` holds the characters of the line being read, last first. -/
  go (line : Text) : Text → List Text
    | [] => if line.isEmpty then [] else [line.reverse]
    | '\r' :: '\n' :: rest => line.reverse :: go [] rest
    | c :: rest => if isBreak c then line.reverse :: go [] rest else go (c :: line) rest

/-- `s` with every carriage return, alone or before a line feed, as one line feed. -/
def unifyBreaks : Text → Text
  | [] => []
  | '\r' :: '\n' :: rest => '\n' :: unifyBreaks rest
  | '\r' :: rest => '\n' :: unifyBreaks rest
  | c :: rest => c :: unifyBreaks rest

end Text
end Refit

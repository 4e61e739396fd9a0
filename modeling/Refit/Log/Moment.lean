/-
Moments in time, as seconds since the start of 1970, and their texts in a format.

A format is text with fields. A field is a percent sign, flags, a width, a modifier and a letter; what
has no such letter stands for itself.
-/
import Refit.Calendar
import Refit.Text.Basic

namespace Refit
namespace Log

/-- A moment in the calendar. Days of the week are counted from Sunday. -/
structure Moment where
  seconds : Int
  date : Date
  hour : Nat
  minute : Nat
  second : Nat
  weekday : Nat
  deriving Repr, DecidableEq

namespace Moment

def ofSeconds (seconds : Int) : Moment :=
  let days := seconds.fdiv 86400
  let rest := (seconds - days * 86400).toNat
  { seconds, date := .ofDays days, hour := rest / 3600, minute := rest / 60 % 60,
    second := rest % 60, weekday := ((days + 4) % 7).toNat }

def weekdays : List Text :=
  ["Sunday", "Monday", "Tuesday", "Wednesday", "Thursday", "Friday", "Saturday"]

def months : List Text :=
  ["January", "February", "March", "April", "May", "June", "July", "August", "September",
   "October", "November", "December"]

def hour12 (m : Moment) : Nat := if m.hour % 12 = 0 then 12 else m.hour % 12

def weekdayName (m : Moment) : Text := (weekdays[m.weekday]?).getD []

def monthName (m : Moment) : Text := (months[m.date.month - 1]?).getD []

/-! ### Weeks -/

def mondayDay (m : Moment) : Nat := (m.weekday + 6) % 7

def daysInYear (year : Int) : Int := if Date.isLeap year then 366 else 365

/-- The year and the number of the week, counted from one. A week belongs to the year of its
Thursday. -/
def week (m : Moment) : Int × Nat :=
  let thursday : Int := m.date.yearDay - m.mondayDay + 3
  let year := m.date.year
  if thursday < 0 then (year - 1, ((thursday + daysInYear (year - 1)) / 7).toNat + 1)
  else if daysInYear year ≤ thursday then (year + 1, ((thursday - daysInYear year) / 7).toNat + 1)
  else (year, (thursday / 7).toNat + 1)

/-! ### Fields -/

structure Field where
  /-- What fills a field: a low line for spaces, a zero for zeros, a dash for nothing. -/
  filler : Option Char
  upper : Bool
  otherCase : Bool
  width : Option Nat
  modifier : Option Char
  deriving Repr, DecidableEq

namespace Field

def pad (f : Field) (s : Text) : Text :=
  let fill := if f.filler = some '0' then '0' else ' '
  List.replicate (f.width.getD 0 - s.length) fill ++ s

def cased (f : Field) (s : Text) : Text := if f.upper then s.map Char.toUpper else s

def text (f : Field) (s : Text) : Text := f.pad (f.cased s)

def name (f : Field) (s : Text) : Text :=
  f.pad (if f.upper || f.otherCase then s.map Char.toUpper else s)

/-- A field without a meaning, as it is written. The name of a month keeps the flag for the other case
even there. -/
def unknown (f : Field) (raw : Text) (c : Char) : Text :=
  let s : Text := if c = '%' then ['%'] else raw ++ [c]
  if c = 'b' ∨ c = 'h' then f.name s else f.text s

def number (f : Field) (digits : Nat) (n : Int) : Text :=
  let sign : Text := if n < 0 then ['-'] else []
  let body := Text.ofNat n.natAbs
  let least := max digits (f.width.getD 0)
  if f.filler = some '-' then f.pad (sign ++ body)
  else if f.filler = some '_' then
    List.replicate (least - (sign ++ body).length) ' ' ++ sign ++ body
  else sign ++ Text.padZeros (least - sign.length) body

def spaced (f : Field) (n : Int) : Text :=
  if f.filler = some '0' ∨ f.filler = some '-' then f.number 2 n
  else { f with filler := some '_' }.number 2 n

end Field

def compounds : List (Char × Text) :=
  [('c', "%a %b %e %H:%M:%S %Y"), ('x', "%m/%d/%y"), ('D', "%m/%d/%y"), ('F', "%Y-%m-%d"),
   ('R', "%H:%M"), ('r', "%I:%M:%S %p"), ('X', "%H:%M:%S"), ('T', "%H:%M:%S")]

def modified : Char → Text
  | 'E' => "cCxXyYnPprRtTusZz".toList
  | _ => "bBhCdeHIklMmSuUVgGWwyjnPprRtTsZz".toList

def allows (modifier : Option Char) (c : Char) : Bool := modifier.all fun e => (modified e).contains c

def simple (m : Moment) (f : Field) (c : Char) : Option Text :=
  let year := m.date.year
  match c with
  | '%' => some (f.pad ['%'])
  | 'n' => some (f.pad ['\n'])
  | 't' => some (f.pad ['\t'])
  | 'a' => some (f.name (m.weekdayName.take 3))
  | 'A' => some (f.name m.weekdayName)
  | 'b' => some (f.name (m.monthName.take 3))
  | 'h' => some (f.name (m.monthName.take 3))
  | 'B' => some (f.name m.monthName)
  | 'C' => some (f.number 1 (year.fdiv 100))
  | 'd' => some (f.number 2 m.date.day)
  | 'e' => some (f.spaced m.date.day)
  | 'H' => some (f.number 2 m.hour)
  | 'I' => some (f.number 2 m.hour12)
  | 'k' => some (f.spaced m.hour)
  | 'l' => some (f.spaced m.hour12)
  | 'j' => some (f.number 3 (m.date.yearDay + 1))
  | 'M' => some (f.number 2 m.minute)
  | 'm' => some (f.number 2 m.date.month)
  | 'p' =>
    let half : Text := if m.hour < 12 then "AM" else "PM"
    some (f.pad (if f.otherCase then half.map Char.toLower else half))
  | 'P' => some (f.pad (if m.hour < 12 then "am" else "pm"))
  | 'S' => some (f.number 2 m.second)
  | 's' => some (f.pad (Text.ofInt m.seconds))
  | 'u' => some (f.number 1 (m.mondayDay + 1))
  | 'w' => some (f.number 1 m.weekday)
  | 'U' => some (f.number 2 ((m.date.yearDay + 7 - m.weekday) / 7 : Nat))
  | 'W' => some (f.number 2 ((m.date.yearDay + 7 - m.mondayDay) / 7 : Nat))
  | 'V' => some (f.number 2 m.week.2)
  | 'g' => some (f.number 2 (m.week.1 % 100))
  | 'G' => some (f.number 1 m.week.1)
  | 'Y' => some (f.number 1 year)
  | 'y' => some (f.number 2 (year % 100))
  | 'Z' => some (if f.filler = some '-' then "UTC" else f.pad "UTC")
  | 'z' => some (f.pad ['+'] ++ f.number 4 0)
  | _ => none

/-- What a field with a letter stands for. The formats of `compounds` have plain fields only. -/
def field (m : Moment) (f : Field) (c : Char) : Option Text :=
  if !allows f.modifier c then none
  else match compounds.find? fun e => e.1 == c with
    | some e => some (f.text (plain e.2))
    | none => m.simple f c
where
  /-- A format with fields of a letter only. -/
  plain : Text → Text
    | '%' :: c :: rest => (m.simple ⟨none, false, false, none, none⟩ c).getD [] ++ plain rest
    | c :: rest => c :: plain rest
    | [] => []

def isFlag (c : Char) : Bool := c == '_' || c == '-' || c == '0' || c == '^' || c == '#'

/-- The parts of a field before its letter, and what follows them. No width is read past `limit`. -/
def field? (limit : Nat) (s : Text) : Field × Text :=
  let flags := s.takeWhile isFlag
  let s := s.drop flags.length
  let digits := s.takeWhile Char.isDigit
  let s := s.drop digits.length
  let filler := (flags.filter fun c => c != '^' && c != '#').getLast?
  let width := if digits.isEmpty then none else some (min limit (Text.digitsValue digits))
  let f : Field := ⟨filler, flags.contains '^', flags.contains '#', width, none⟩
  match s with
  | c :: rest => if c = 'E' ∨ c = 'O' then ({ f with modifier := some c }, rest) else (f, s)
  | [] => (f, s)

def fill (m : Moment) (limit : Nat) : Nat → Text → Text
  | 0, s => s
  | _ + 1, [] => []
  | fuel + 1, '%' :: s =>
    let (f, rest) := field? limit s
    let raw := '%' :: s.take (s.length - rest.length)
    match rest with
    | [] => f.cased (f.pad raw)
    | c :: rest =>
      (m.field f c).getD (f.unknown raw c) ++ m.fill limit fuel rest
  | fuel + 1, c :: s => c :: m.fill limit fuel s

/-- The room for a text in a format of some length: a power of two, at least 256 times that length. -/
def room (length : Nat) : Nat :=
  ((List.range 64).map fun k => 1024 * Nat.pow 2 k).find? (256 * length ≤ ·) |>.getD 1024

/-- The text of a moment in a format; nothing if there is no room for it. -/
def format (m : Moment) (s : Text) : Text :=
  let limit := room s.length
  let text := m.fill limit (s.length + 1) s
  if text.length < limit then text else []

end Moment
end Log
end Refit

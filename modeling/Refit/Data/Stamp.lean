/-
Dates and times as values of a document, and their texts.
-/
import Refit.Calendar
import Refit.Text.Basic

namespace Refit
namespace Data

/-- A time of day. The zone is in minutes east, where one is given. -/
structure Clock where
  hour : Nat
  minute : Nat
  second : Nat
  micro : Nat
  zone : Option Int
  deriving Repr, DecidableEq

structure Stamp where
  date : Date
  clock : Option Clock
  deriving Repr, DecidableEq

namespace Clock

/-- Whether there is such a time; a zone is less than a day away. -/
def isValid (c : Clock) : Bool :=
  c.hour ≤ 23 && c.minute ≤ 59 && c.second ≤ 59 && c.zone.all fun z => z.natAbs < 1440

/-- Microseconds since midnight in the zone of no offset. -/
def instant (c : Clock) : Int :=
  ((c.hour * 60 + c.minute : Int) - c.zone.getD 0) * 60000000 + (c.second * 1000000 + c.micro : Nat)

end Clock

namespace Stamp

def isValid (s : Stamp) : Bool := s.date.isValid && s.clock.all Clock.isValid

/-- Whether two stamps are one point in time. Times in a zone are compared by the instant, and a time
without one is never the same as a time in one. -/
def same (s t : Stamp) : Bool :=
  match s.clock, t.clock with
  | some c, some d =>
    if c.zone.isSome && d.zone.isSome then
      s.date.days * 86400000000 + c.instant == t.date.days * 86400000000 + d.instant
    else s == t
  | _, _ => s == t

def two (n : Nat) : Text := Text.padZeros 2 (Text.ofNat n)

def dateText (d : Date) : Text :=
  Text.padZeros 4 (Text.ofInt d.year) ++ "-" ++ two d.month ++ "-" ++ two d.day

def zoneText (minutes : Int) : Text :=
  (if minutes < 0 then ['-'] else ['+']) ++ two (minutes.natAbs / 60) ++ ":" ++
    two (minutes.natAbs % 60)

def clockText (c : Clock) : Text :=
  let fraction : Text :=
    if c.micro = 0 then [] else '.' :: Text.padZeros 6 (Text.ofNat c.micro)
  two c.hour ++ ":" ++ two c.minute ++ ":" ++ two c.second ++ fraction ++ c.zone.elim [] zoneText

def text (s : Stamp) : Text :=
  match s.clock with
  | none => dateText s.date
  | some c => dateText s.date ++ " " ++ clockText c

def zoneCall (minutes : Int) : Text :=
  let days := minutes.fdiv 1440
  let seconds := (minutes - days * 1440) * 60
  let parts : List Text :=
    (if days = 0 then [] else ["days=".toList ++ Text.ofInt days]) ++
      (if seconds = 0 then [] else ["seconds=".toList ++ Text.ofInt seconds])
  if minutes = 0 then "datetime.timezone.utc"
  else "datetime.timezone(datetime.timedelta(" ++ Text.join ", " parts ++ "))"

/-- The parts of a time, without the seconds and their fraction where they are zero at the end. -/
def clockParts (c : Clock) : List Nat :=
  if c.micro ≠ 0 then [c.hour, c.minute, c.second, c.micro]
  else if c.second ≠ 0 then [c.hour, c.minute, c.second]
  else [c.hour, c.minute]

def call (s : Stamp) : Text :=
  let date : List Text := [Text.ofInt s.date.year, Text.ofNat s.date.month, Text.ofNat s.date.day]
  match s.clock with
  | none => "datetime.date(" ++ Text.join ", " date ++ ")"
  | some c =>
    let zone : List Text := (c.zone.map fun z => "tzinfo=".toList ++ zoneCall z).toList
    "datetime.datetime(" ++ Text.join ", " (date ++ (clockParts c).map Text.ofNat ++ zone) ++ ")"

end Stamp
end Data
end Refit

/-
Log records and the lines they are written as: plain lines, and JSON objects with the extra fields of
the record.
-/
import Refit.Data.Json
import Refit.Data.Pairs
import Refit.Log.Message
import Refit.Log.Moment

namespace Refit
namespace Log

open Data (Value Pairs)

def levelNames : List (Int × Text) :=
  [(0, "NOTSET"), (10, "DEBUG"), (20, "INFO"), (30, "WARNING"), (40, "ERROR"), (50, "CRITICAL")]

def levelName (level : Int) : Text :=
  match levelNames.find? fun e => e.1 == level with
  | some e => e.2
  | none => "Level " ++ Text.ofInt level

def standardFields : List Text :=
  ["name", "msg", "args", "created", "filename", "funcName", "levelname", "levelno", "lineno",
   "module", "msecs", "pathname", "process", "processName", "relativeCreated", "thread",
   "threadName", "exc_info", "exc_text", "stack_info", "message", "taskName"]

def thousandths : Directive :=
  { left := false, zero := true, plus := false, space := false, alternate := false, width := 3,
    places := none, conversion := 'd' }

/-- What a record holds of an exception: nothing, its text, or a value in its place. -/
inductive Cause where
  | none
  | text (s : Text)
  | value (v : Value)

/-- The text of an exception. A value in its place is read as a kind, an exception and its trace, of
which only the absence has a text. -/
def Cause.read : Cause → Except Fault (Option Text)
  | .none => .ok Option.none
  | .text s => .ok (some s)
  | .value v =>
    if v.isVacant then .ok Option.none
    else match v with
      | .text s => .error (if s.length < 3 then .outOfText else .missingPart)
      | .list (_ :: .null :: .null :: _) => .ok (some "NoneType: None".toList)
      | .list vs => .error (if vs.length < 3 then .outOfText else .missingPart)
      | .map _ => .error .missingEntry
      | _ => .error .messageArguments

structure Record where
  name : Value
  levelName : Value
  message : Value
  args : Arguments
  /-- Seconds since the start of 1970, and the thousandths beyond them. -/
  created : Value
  msecs : Value
  cause : Cause
  extras : Pairs Text Value

/-! ### Moments -/

/-- The seconds that are counted with, those of the calendar, and the last ones of its years. -/
def secondsLimit : Int := Nat.pow 2 63

def calendarStart : Int := -67768040609740800

def calendarEnd : Int := 67768036191676800

def lastYearEnd : Int := 67767976233532800

def secondsOf : Value → Except Fault Int
  | .float (.finite negative m e) =>
    let f := Number.Binary64.fraction m e
    let n : Int := if negative then -(f.1 : Int) else f.1
    .ok (n.fdiv f.2)
  | v => wholePart v

def momentOf (v : Value) : Except Fault Moment := do
  let n ← secondsOf v
  if n < -secondsLimit ∨ secondsLimit ≤ n then .error .numberOutOfRange
  else if n < calendarStart ∨ calendarEnd ≤ n then .error .outOfCalendar
  else if lastYearEnd ≤ n then .error .numberOutOfRange
  else return .ofSeconds n

def momentText (m : Moment) (format : Text) : Except Fault Text :=
  if format.contains '\x00' then .error .invalidNumber else .ok (m.format format)

def defaultFormat : Text := "%Y-%m-%d %H:%M:%S"

namespace Record

def make (name : Text) (level : Int) (message : Text) (args : List Value) (created msecs : Value) :
    Record :=
  ⟨.text name, .text (Log.levelName level), .text message, .ofList args, created, msecs, .none, []⟩

/-- Sets a field. A standard one takes the place of the record's own value. -/
def set (r : Record) (key : Text) (v : Value) : Record :=
  if standardFields.contains key then
    match String.ofList key with
    | "name" => { r with name := v }
    | "levelname" => { r with levelName := v }
    | "msg" => { r with message := v }
    | "args" => { r with args := .single v }
    | "created" => { r with created := v }
    | "msecs" => { r with msecs := v }
    | "exc_info" => { r with cause := .value v }
    | _ => r
  else { r with extras := r.extras.put key v }

def setAll (r : Record) (extras : List (Text × Value)) : Record :=
  extras.foldl (fun r e => r.set e.1 e.2) r

def refusal? (key : Text) (v : Value) : Option Fault :=
  match String.ofList key, v with
  | "__class__", _ => some .messageArguments
  | "__dict__", .map _ => some .missingPart
  | "__dict__", _ => some .messageArguments
  | "__weakref__", _ => some .missingPart
  | _, _ => none

def assignAll (r : Record) (extras : List (Text × Value)) : Except Fault Record :=
  match extras.findSome? fun e => refusal? e.1 e.2 with
  | some fault => .error fault
  | none => .ok (r.setAll extras)

/-- The name under which a record gives its message. An extra field of that name hides it. -/
def messageName : Text := "getMessage"

def text (r : Record) : Except Fault Text :=
  if r.extras.hasKey messageName then .error .messageArguments
  else do
    formatMessage (← Data.Display.text? r.message) r.args

/-- When the record was made, to the thousandth of a second unless a format is given. -/
def timestamp (r : Record) (format : Option Text) : Except Fault Text := do
  let moment ← momentOf r.created
  match format with
  | some (c :: cs) => momentText moment (c :: cs)
  | _ =>
    let beyond ← writable (← wholePart r.msecs)
    return moment.format defaultFormat ++ "," ++ thousandths.number beyond

/-- The fields of a structured line: the core ones, then the extra ones. An extra field named like a
core one takes its place. -/
def fields (r : Record) (format : Option Text) : Except Fault (Pairs Text Value) := do
  let timestamp ← r.timestamp format
  let message ← r.text
  let cause ← r.cause.read
  let core : Pairs Text Value :=
    [("timestamp", .text timestamp), ("level", r.levelName), ("logger", r.name),
     ("message", .text message)]
  let exception : Pairs Text Value := match cause with
    | some text => [("exception", .text text)]
    | none => []
  return Pairs.update (core ++ exception) r.extras

def structured (r : Record) (format : Option Text) : Except Fault Text := do
  let line := Value.object (← r.fields format)
  Data.Json.check line
  return Data.Json.compact line

def plain (r : Record) : Except Fault Text := do
  let message ← r.text
  let timestamp ← r.timestamp (some defaultFormat)
  let level ← Data.Display.text? r.levelName
  let name ← Data.Display.text? r.name
  return timestamp ++ " [" ++ level ++ "] " ++ name ++ ": " ++ message

end Record

def exceptionText (kind message : Text) : Text :=
  "codesplice.exceptions." ++ kind ++ (if message.isEmpty then [] else [':', ' '] ++ message)

end Log
end Refit

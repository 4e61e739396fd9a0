/-
Logging sessions: the handlers of the logger are set up anew, and records go to the console and to
log files.
-/
import Refit.Disk
import Refit.Log.Record
import Refit.Plan

namespace Refit
namespace Log

open Data (Value)

inductive Style where
  | plain
  | structured
  deriving Repr, DecidableEq

inductive Target where
  | console
  | file (at_ : Spot)
  deriving Repr, DecidableEq

structure Handler where
  target : Target
  level : Int
  style : Style
  deriving Repr, DecidableEq

/-- The time in a session: the moment that names log files, and the stamp of every record. -/
structure Clock where
  now : Int
  created : Int
  msecs : Int
  deriving Repr, DecidableEq

structure Session where
  clock : Clock
  level : Int
  handlers : List Handler
  /-- The level in the settings. -/
  defaultLevel : Text
  /-- The log directory in the environment. -/
  directory : Option Text
  disk : Disk Text
  /-- What has been written to the console. -/
  console : Text

namespace Session

def initial (clock : Clock) : Session := ⟨clock, 0, [], "INFO", none, Disk.empty, []⟩

def loggerName : Text := "codesplice"

def rootLevel : Int := 30

def levels : List (Text × Int) :=
  [("DEBUG", 10), ("INFO", 20), ("WARN", 30), ("WARNING", 30), ("ERROR", 40), ("CRITICAL", 50),
   ("FATAL", 50), ("NOTSET", 0)]

def formatName : Text := "BASIC_FORMAT"

def stylesName : Text := "_STYLES"

/-- The upper case of a letter, of those that have one letter of ASCII for it: the dotless i and the
long s have one too. -/
def upperCase (c : Char) : Char :=
  if c = '\u0131' then 'I' else if c = '\u017f' then 'S' else c.toUpper

/-- The level of a name in any case. Unknown names give the level of information. -/
def levelOf (name : Text) : Except Fault Int :=
  let upper := name.map upperCase
  if upper = formatName then .error .notALevel
  else if upper = stylesName then .error .notALevelKind
  else .ok (((levels.find? fun e => e.1 == upper).map Prod.snd).getD 20)

def reaches (name : Text) : Bool :=
  name == loggerName || loggerName.isPrefixOf name && (name.drop loggerName.length).head? == some '.'

def effectiveLevel (s : Session) : Int := if s.level = 0 then rootLevel else s.level

/-- Writes a line with one handler. A record that cannot be formatted leaves nothing. -/
def handle (r : Record) (s : Session) (h : Handler) : Session :=
  let line := match h.style with
    | .plain => r.plain
    | .structured => r.structured none
  match line with
  | .error _ => s
  | .ok line =>
    match h.target with
    | .console => { s with console := s.console ++ line ++ ['\n'] }
    | .file at_ =>
      let files := s.disk.files.alter at_ fun old => old.getD [] ++ line ++ ['\n']
      { s with disk := { s.disk with files := files } }

/-- A standard field that a record does not have yet when its extra fields are set. -/
def laterField : Text := "taskName"

def hides (key : Text) : Bool :=
  (standardFields.contains key && key != laterField) || key == "asctime".toList

/-- Logs a record through a logger. Below the level of the logger nothing happens; else the extra
fields are checked, also where no handler is reached. -/
def log (s : Session) (name : Text) (level : Int) (message : Text) (args : List Value)
    (extras : List (Text × Value)) : Except Fault Session :=
  let threshold := if reaches name then s.effectiveLevel else rootLevel
  if level < threshold then .ok s
  else if extras.any fun e => hides e.1 then .error .reservedField
  else if !reaches name then .ok s
  else
    let r := (Record.make name level message args (.int s.clock.created) (.int s.clock.msecs)).setAll
      extras
    .ok ((s.handlers.filter fun h => h.level ≤ level).foldl (handle r) s)

def logEntry (s : Session) (e : Entry) : Session :=
  match s.log e.reporter.logger e.level.number e.message [] [] with
  | .ok s => s
  | .error _ => s

structure Configuration where
  level : Option Text
  directory : Option Text
  toConsole : Bool
  toFile : Bool
  fileName : Option Text

def defaultFileName (now : Int) : Text :=
  "codesplice_" ++ (Moment.ofSeconds now).format "%Y%m%d_%H%M%S" ++ ".log"

/-- Opens a log file for more lines, making it if it is not there. The path is taken as it is written:
double dots undo the name before them, whether that is there or not. -/
def openFile (disk : Disk Text) (path : Path) : Except FileFault (Disk Text × Spot) := do
  let spot := Spot.ofPath path
  if path.text.contains '\x00' then .error .nullName
  else
    let at_ ← disk.resolve ⟨spot.above, []⟩ spot.names
    if disk.isDirectory at_ then .error .isDirectory
    else return ({ disk with files := disk.files.alter at_ fun old => old.getD [] }, at_)

def addFile (s : Session) (c : Configuration) : Session × Option Fault :=
  let directory := Path.ofText ((c.directory.or s.directory).getD "logs")
  match s.disk.makeDirectory directory with
  | (disk, some f) => ({ s with disk := disk }, some (.unusable f))
  | (disk, none) =>
    let s := { s with disk := disk }
    let path := directory.join (Path.ofText (c.fileName.getD (defaultFileName s.clock.now)))
    match openFile s.disk path with
    | .error f => (s, some (.unusable f))
    | .ok (disk, at_) =>
      let handler : Handler := ⟨.file at_, 10, .plain⟩
      let s := { s with disk := disk, handlers := s.handlers ++ [handler] }
      match s.log loggerName 20 ("Logging to: " ++ path.text) [] [] with
      | .ok s => (s, none)
      | .error f => (s, some f)

def configure (s : Session) (c : Configuration) : Session × Option Fault :=
  let s := { s with handlers := [] }
  match levelOf (c.level.getD s.defaultLevel) with
  | .error f => (s, some f)
  | .ok level =>
    let console : List Handler := if c.toConsole then [⟨.console, 0, .plain⟩] else []
    let s := { s with level := level, handlers := console }
    if c.toFile then s.addFile c else (s, none)

def useStructured (s : Session) (level : Option Text) : Session × Option Fault :=
  match levelOf (level.getD s.defaultLevel) with
  | .error f => (s, some f)
  | .ok level => ({ s with level := level, handlers := [⟨.console, level, .structured⟩] }, none)

def plan (s : Session) (blocks : List Block) (budget : Int) : Session × Option Fault :=
  let p := Plan.logged blocks budget
  let s := p.entries.foldl logEntry s
  match p.outcome with
  | .ok _ => (s, none)
  | .error f => (s, some f)

def read (s : Session) (path : Text) : Except Fault Text :=
  match s.disk.read (Path.ofText path) with
  | .ok content => .ok content
  | .error f => .error (.unusable f)

end Session

inductive Step where
  | configure (c : Session.Configuration)
  | structured (level : Option Text)
  | setLevel (level : Text)
  | setDirectory (directory : Text)
  | log (name : Text) (level : Int) (message : Text) (args : List Value)
      (extras : List (Text × Value))
  | plan (blocks : List Block) (budget : Int)
  | read (path : Text)

/-- What a step leaves: the session, the fault if it failed, and the content that it read. -/
structure StepResult where
  session : Session
  fault : Option Fault
  content : Option Text

def Step.run (s : Session) : Step → StepResult
  | .configure c =>
    let r := s.configure c
    ⟨r.1, r.2, none⟩
  | .structured level =>
    let r := s.useStructured level
    ⟨r.1, r.2, none⟩
  | .setLevel level => ⟨{ s with defaultLevel := level }, none, none⟩
  | .setDirectory directory =>
    if directory.contains '\x00' then ⟨s, some (.unusable .nullName), none⟩
    else ⟨{ s with directory := some directory }, none, none⟩
  | .log name level message args extras =>
    match s.log name level message args extras with
    | .ok s => ⟨s, none, none⟩
    | .error f => ⟨s, some f, none⟩
  | .plan blocks budget =>
    let r := s.plan blocks budget
    ⟨r.1, r.2, none⟩
  | .read path =>
    match s.read path with
    | .ok content => ⟨s, none, some content⟩
    | .error f => ⟨s, some f, none⟩

end Log
end Refit

/-
What can go wrong, as causes. The wording of each cause is in one place.
-/
import Refit.Text.Basic

namespace Refit

inductive FileFault where
  | missing
  | isDirectory
  | notDirectory
  | taken
  | tooLong
  /-- A name with a null in it, which no file has. -/
  | nullName
  deriving Repr, DecidableEq

inductive Fault where
  /-- A line range that starts before line one or ends before it starts. -/
  | invalidSpan (start stop : Int)
  /-- A finding that points before line one. -/
  | invalidFinding (line : Int)
  /-- A batch budget that is not positive. -/
  | invalidBudget (given : Int)
  /-- A source that did not parse, with its path if it has one. -/
  | syntaxErrors (file : Option Text)
  /-- A number written with more digits than are read. -/
  | tooManyDigits
  /-- A word in the shape of a number or a date that is none. -/
  | invalidNumber
  /-- A number past the range of the numbers it is computed in. -/
  | numberOutOfRange
  /-- A setting whose text is not of its kind. -/
  | invalidSetting
  /-- Arguments that do not fit the directives of a message. -/
  | messageArguments
  /-- A directive of a message that stands for nothing. -/
  | unknownDirective
  /-- A name that no entry of an argument has. -/
  | missingEntry
  /-- A value without the parts that are asked of it. -/
  | missingPart
  /-- A moment that the calendar does not reach. -/
  | outOfCalendar
  /-- The name of something other than a log level. -/
  | notALevel
  /-- The name of something that no level could be. -/
  | notALevelKind
  /-- An extra field that would hide a field every record has. -/
  | reservedField
  /-- A position outside a text. -/
  | outOfText
  | unusable (cause : FileFault)
  deriving Repr, DecidableEq

namespace Fault

def message : Fault → Text
  | .invalidSpan start stop => "Invalid span " ++ Text.ofInt start ++ "-" ++ Text.ofInt stop
  | .invalidFinding line => "Finding line must be >= 1, got " ++ Text.ofInt line
  | .invalidBudget given => "Batch budget must be positive, got " ++ Text.ofInt given
  | .syntaxErrors file =>
    "Syntax errors in " ++ (match file with
      | some (c :: path) => c :: path
      | _ => "<source>")
  | .tooManyDigits => "number has too many digits"
  | .invalidNumber => "not a number"
  | .numberOutOfRange => "number is out of range"
  | .invalidSetting => "setting is not a whole number"
  | .messageArguments => "arguments do not fit the message"
  | .unknownDirective => "unknown directive in message"
  | .missingEntry => "argument has no such entry"
  | .missingPart => "value has no such part"
  | .outOfCalendar => "moment is outside the calendar"
  | .notALevel => "unknown level"
  | .notALevelKind => "not a level"
  | .reservedField => "extra field hides a field of the record"
  | .outOfText => "position is outside the text"
  | .unusable .missing => "No such file or directory"
  | .unusable .isDirectory => "Is a directory"
  | .unusable .notDirectory => "Not a directory"
  | .unusable .taken => "File exists"
  | .unusable .tooLong => "File name too long"
  | .unusable .nullName => "embedded null byte"

end Fault

theorem bind_eq_ok_iff {α β : Type} {x : Except Fault α} {f : α → Except Fault β} {b : β} :
    x >>= f = .ok b ↔ ∃ a, x = .ok a ∧ f a = .ok b := by
  cases x with
  | error fault => simp [bind, Except.bind]
  | ok a => simp [bind, Except.bind]

end Refit

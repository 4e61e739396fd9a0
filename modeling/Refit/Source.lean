/-
Source files on disk, read as UTF-8 with all line ends as line feeds.
-/
import Refit.Disk
import Refit.Text.Quoted
import Refit.Text.Utf8

namespace Refit
namespace Source

def faultNumber : FileFault → Nat
  | .missing => 2
  | .taken => 17
  | .notDirectory => 20
  | .isDirectory => 21
  | .nullName => 22
  | .tooLong => 36

def faultText (path : Path) (f : FileFault) : Text :=
  "[Errno " ++ Text.ofNat (faultNumber f) ++ "] " ++ (Fault.unusable f).message ++ ": " ++
    Text.Quoted.encode path.text

/-- The text of the file at a path, or why it cannot be read. A name that no file can have is a fault
of its own. -/
def read (disk : Disk (List UInt8)) (file : Text) : Except Fault (Except Text Text) :=
  let path := Path.ofText file
  match disk.read path with
  | .error .nullName => .error (.unusable .nullName)
  | .error f => .ok (.error (faultText path f))
  | .ok bytes =>
    match Text.Utf8.decode bytes with
    | .error failure => .ok (.error failure.message)
    | .ok text => .ok (.ok (Text.unifyBreaks text))

end Source
end Refit

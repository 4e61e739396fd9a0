/-
Readers that may succeed in several ways.

A reader maps a text to what may remain of it, the preferred way first. A greedy repetition prefers
the longest run and falls back to shorter ones when what follows does not fit, so the first way to
read a whole shape is the head of the list that the composed reader gives.
-/
import Refit.Text.Search

namespace Refit
namespace Text

abbrev Ways := Text → List Text

namespace Ways

def one (p : Char → Bool) : Ways
  | [] => []
  | c :: s => if p c then [s] else []

def lit (lead : Text) : Ways := fun s => (after? lead s).toList

/-- A run of characters of a class, possibly empty, the longest first. -/
def run (p : Char → Bool) (s : Text) : List Text :=
  go [] s
where
  /-- `found` holds the shorter runs, longest first. -/
  go (found : List Text) : Text → List Text
    | [] => [] :: found
    | c :: s => if p c then go ((c :: s) :: found) s else (c :: s) :: found

def seq : List Ways → Ways
  | [], s => [s]
  | w :: ws, s => (w s).flatMap (seq ws)

def run1 (p : Char → Bool) : Ways := seq [one p, run p]

def alt (ws : List Ways) : Ways := fun s => ws.flatMap fun w => w s

def opt (w : Ways) : Ways := fun s => w s ++ [s]

/-- At most `n` repetitions, more preferred over fewer. -/
def upTo (w : Ways) : Nat → Ways
  | 0, s => [s]
  | n + 1, s => (w s).flatMap (upTo w n) ++ [s]

/-- Any number of repetitions of a reader that takes at least one character each time, so that no
more than the length of the text are possible. -/
def many (w : Ways) : Ways := fun s => upTo w s.length s

def many1 (w : Ways) : Ways := seq [w, many w]

/-- Takes nothing, and goes on only where `ok` holds of the text to come. -/
def guard (ok : Text → Bool) : Ways := fun s => if ok s then [s] else []

end Ways
end Text
end Refit

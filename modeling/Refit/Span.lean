/-
Inclusive ranges of lines, counted from one.
-/
import Refit.Fault

namespace Refit

structure Span where
  start : Nat
  stop : Nat
  start_pos : 0 < start
  start_le_stop : start ≤ stop
  deriving Repr, DecidableEq

namespace Span

def of (start stop : Int) : Except Fault Span :=
  if h : 1 ≤ start ∧ start ≤ stop then
    .ok ⟨start.toNat, stop.toNat, by omega, by omega⟩
  else .error (.invalidSpan start stop)

def contains (a b : Span) : Bool := a.start ≤ b.start && b.stop ≤ a.stop

def containsLine (a : Span) (line : Int) : Bool := (a.start : Int) ≤ line && line ≤ a.stop

/-- The distance from the first line to the last. -/
def length (a : Span) : Nat := a.stop - a.start

def before (a b : Span) : Bool := a.start < b.start || (a.start == b.start && a.stop < b.stop)

def text (a : Span) : Text := Text.ofNat a.start ++ "-" ++ Text.ofNat a.stop

theorem of_eq_ok_iff {start stop : Int} {s : Span} :
    of start stop = .ok s ↔ (s.start : Int) = start ∧ (s.stop : Int) = stop := by
  obtain ⟨a, b, ha, hb⟩ := s
  unfold of
  split
  · simp only [Except.ok.injEq, Span.mk.injEq]
    omega
  · simp only [reduceCtorEq, false_iff]
    omega

theorem contains_iff {a b : Span} :
    a.contains b = true ↔ a.start ≤ b.start ∧ b.stop ≤ a.stop := by
  simp [contains]

@[simp] theorem contains_self (a : Span) : a.contains a = true := by
  simp [contains]

theorem contains_trans {a b c : Span} (h : a.contains b = true) (h' : b.contains c = true) :
    a.contains c = true := by
  rw [contains_iff] at *
  omega

end Span
end Refit

/-
Finding fixed strings and recognised pieces in a text.

A recogniser says what it accepts at the very start of a text. `hits` runs one along a text from left
to right, going on after the end of each piece, so the pieces it lists never overlap.
-/
import Refit.Text.Basic

namespace Refit
namespace Text

/-- What follows `lead` in a text that starts with it. -/
def after? : Text → Text → Option Text
  | [], s => some s
  | _ :: _, [] => none
  | l :: lead, c :: s => if l = c then after? lead s else none

theorem after?_eq_some_iff {lead s rest : Text} :
    after? lead s = some rest ↔ s = lead ++ rest := by
  induction lead generalizing s with
  | nil => simp [after?]
  | cons l lead ih =>
    cases s with
    | nil => simp [after?]
    | cons c s =>
      by_cases h : l = c
      · subst h
        simp [after?, ih]
      · simp [after?, h, Ne.symm h]

def startsWith (lead s : Text) : Bool := (after? lead s).isSome

/-- What stands before and after the first occurrence of `needle`. -/
def cut? (needle : Text) : Text → Option (Text × Text)
  | [] => if needle.isEmpty then some ([], []) else none
  | c :: s =>
    match after? needle (c :: s) with
    | some rest => some ([], rest)
    | none => (cut? needle s).map fun parts => (c :: parts.1, parts.2)

theorem eq_append_of_cut? {needle s a b : Text} (h : cut? needle s = some (a, b)) :
    s = a ++ needle ++ b := by
  induction s generalizing a with
  | nil =>
    simp only [cut?] at h
    split at h
    · simp_all
    · simp at h
  | cons c s ih =>
    simp only [cut?] at h
    split at h
    · next rest hr =>
      obtain ⟨rfl, rfl⟩ : [] = a ∧ rest = b := by simpa using h
      simpa using after?_eq_some_iff.1 hr
    · obtain ⟨⟨a', b'⟩, hc, he⟩ := Option.map_eq_some_iff.1 h
      obtain ⟨rfl, rfl⟩ : c :: a' = a ∧ b' = b := by simpa using he
      simp [ih hc]

def occurs (needle s : Text) : Bool := (cut? needle s).isSome

def cutLast? (c : Char) : Text → Option (Text × Text)
  | [] => none
  | d :: s =>
    match cutLast? c s with
    | some (a, b) => some (d :: a, b)
    | none => if d = c then some ([], d :: s) else none

/-! ### Recognisers -/

/-- Given the character before a text and the text, the length of the piece accepted at its start and
what was read from it. -/
abbrev Recogniser (β : Type) := Option Char → Text → Option (Nat × β)

/-- A piece of a text, by the positions of its first character and of the one after its last. -/
structure Hit (β : Type) where
  start : Nat
  stop : Nat
  value : β
  deriving Repr, DecidableEq

def atLineStart : Option Char → Bool
  | none => true
  | some c => c == '\n'

def atWordStart : Option Char → Bool
  | none => true
  | some c => !isWord c

/-- The pieces from position `pos` on, where the next `skip` characters belong to an earlier piece. -/
def hitsFrom {β : Type} (r : Recogniser β) (pos skip : Nat) (before : Option Char) :
    Text → List (Hit β)
  | [] => []
  | c :: s =>
    match skip with
    | skip + 1 => hitsFrom r (pos + 1) skip (some c) s
    | 0 =>
      match r before (c :: s) with
      | some (n, v) => ⟨pos, pos + n, v⟩ :: hitsFrom r (pos + 1) (n - 1) (some c) s
      | none => hitsFrom r (pos + 1) 0 (some c) s

def hits {β : Type} (r : Recogniser β) (s : Text) : List (Hit β) := hitsFrom r 0 0 none s

def firstHitFrom? {β : Type} (r : Recogniser β) (pos : Nat) (before : Option Char) :
    Text → Option (Hit β)
  | [] => none
  | c :: s =>
    match r before (c :: s) with
    | some (n, v) => some ⟨pos, pos + n, v⟩
    | none => firstHitFrom? r (pos + 1) (some c) s

def firstHit? {β : Type} (r : Recogniser β) (s : Text) : Option (Hit β) := firstHitFrom? r 0 none s

def identifier? : Text → Option (Text × Text)
  | [] => none
  | c :: s =>
    if isIdentStart c then some (c :: s.takeWhile isIdentChar, s.dropWhile isIdentChar) else none

theorem eq_append_of_identifier? {s name rest : Text} (h : identifier? s = some (name, rest)) :
    s = name ++ rest := by
  cases s with
  | nil => simp [identifier?] at h
  | cons c s =>
    simp only [identifier?] at h
    split at h
    · obtain ⟨rfl, rfl⟩ : c :: s.takeWhile isIdentChar = name ∧ s.dropWhile isIdentChar = rest := by
        simpa using h
      simp
    · simp at h

/-- A name is read up to where it ends. -/
theorem identifier?_eq_some {s name rest : Text} (h : identifier? s = some (name, rest)) :
    (∃ c cs, name = c :: cs ∧ isIdentStart c = true ∧ ∀ d ∈ cs, isIdentChar d = true) ∧
      ∀ c ∈ rest.head?, isIdentChar c = false := by
  cases s with
  | nil => exact absurd h.symm (Option.some_ne_none _)
  | cons c s =>
      rw [identifier?] at h
      split at h
      · next hc =>
        obtain ⟨rfl, rfl⟩ := Prod.mk.inj (Option.some.inj h)
        refine ⟨⟨c, _, rfl, hc, fun d hd => List.all_eq_true.mp List.all_takeWhile d hd⟩,
          fun d hd => ?_⟩
        have hnot := List.head?_dropWhile_not isIdentChar s
        rw [Option.mem_def.mp hd] at hnot
        simpa using hnot
      · exact absurd h.symm (Option.some_ne_none _)

/-- `word` as a whole, with no identifier character on either side. -/
def wholeWord (word : Text) : Recogniser Unit := fun before s =>
  if (before.map isIdentChar).getD false then none
  else match after? word s with
    | none => none
    | some [] => some (word.length, ())
    | some (c :: _) => if isIdentChar c then none else some (word.length, ())

end Text
end Refit

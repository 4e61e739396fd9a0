/-
Lines of a text, and fixed strings inside them.

A string without a line feed occurs in a text exactly where it occurs in one of
its lines, so searches in a file can be followed line by line.  `afterBreaks`
puts a line feed before every line; unlike the joined form it distributes over
appending lists of lines, and the two differ by one character at the front.
-/
import Mathlib.Data.List.Basic
import Mathlib.Data.List.Infix
import Refit.Text.Search

namespace Refit
namespace Text

/-! ## Splitting and joining -/

theorem splitOn_ne_nil (sep : Char) (s : Text) : splitOn sep s ≠ [] := by
  cases s with
  | nil => exact List.cons_ne_nil _ _
  | cons c s =>
      rw [splitOn]
      split
      · exact List.cons_ne_nil _ _
      · split <;> exact List.cons_ne_nil _ _

/-- Splitting at a separator that is there.  The other facts about `splitOn`
follow from this one. -/
theorem splitOn_append_cons (sep : Char) (x y : Text) :
    splitOn sep (x ++ sep :: y) = splitOn sep x ++ splitOn sep y := by
  induction x with
  | nil => exact if_pos rfl
  | cons c x ih =>
      rw [List.cons_append, splitOn, splitOn, ih]
      by_cases hc : c = sep
      · rw [if_pos hc, if_pos hc, List.cons_append]
      · rw [if_neg hc, if_neg hc]
        obtain ⟨line, lines, hx⟩ := List.exists_cons_of_ne_nil (splitOn_ne_nil sep x)
        rw [hx]
        rfl

theorem splitOn_of_notMem {sep : Char} {s : Text} (h : sep ∉ s) : splitOn sep s = [s] := by
  induction s with
  | nil => rfl
  | cons c s ih =>
      rw [List.mem_cons, not_or] at h
      rw [splitOn, if_neg (Ne.symm h.1), ih h.2]

theorem notMem_of_mem_splitOn {sep : Char} {s l : Text} (h : l ∈ splitOn sep s) : sep ∉ l := by
  induction s generalizing l with
  | nil =>
      rw [splitOn, List.mem_singleton] at h
      rw [h]
      exact List.not_mem_nil
  | cons c s ih =>
      rw [splitOn] at h
      obtain ⟨line, lines, hs⟩ := List.exists_cons_of_ne_nil (splitOn_ne_nil sep s)
      rw [hs] at h ih
      by_cases hc : c = sep
      · rw [if_pos hc, List.mem_cons] at h
        rcases h with rfl | h
        · exact List.not_mem_nil
        · exact ih h
      · rw [if_neg hc, List.mem_cons] at h
        rcases h with rfl | h
        · rw [List.mem_cons, not_or]
          exact ⟨Ne.symm hc, ih List.mem_cons_self⟩
        · exact ih (List.mem_cons_of_mem _ h)

/-- The lines of a text, each after a line feed. -/
def afterBreaks (lines : List Text) : Text := lines.flatMap fun l => '\n' :: l

@[simp] theorem afterBreaks_nil : afterBreaks [] = [] := rfl

theorem afterBreaks_cons (l : Text) (lines : List Text) :
    afterBreaks (l :: lines) = '\n' :: (l ++ afterBreaks lines) := rfl

theorem afterBreaks_append (a b : List Text) :
    afterBreaks (a ++ b) = afterBreaks a ++ afterBreaks b := List.flatMap_append

theorem ofFileLines_cons (l : Text) (lines : List Text) :
    ofFileLines (l :: lines) = l ++ afterBreaks lines := by
  induction lines generalizing l with
  | nil => simp [ofFileLines, join]
  | cons l' lines ih =>
      have hstep : ofFileLines (l :: l' :: lines) = l ++ '\n' :: ofFileLines (l' :: lines) := by
        simp [ofFileLines, join]
      rw [hstep, ih, afterBreaks_cons]

theorem cons_ofFileLines {lines : List Text} (h : lines ≠ []) :
    '\n' :: ofFileLines lines = afterBreaks lines := by
  obtain ⟨l, lines, rfl⟩ := List.exists_cons_of_ne_nil h
  rw [ofFileLines_cons, afterBreaks_cons]

theorem fileLines_ne_nil (s : Text) : fileLines s ≠ [] := splitOn_ne_nil '\n' s

theorem fileLines_append_break (x y : Text) :
    fileLines (x ++ '\n' :: y) = fileLines x ++ fileLines y := splitOn_append_cons '\n' x y

theorem fileLines_of_notMem {s : Text} (h : '\n' ∉ s) : fileLines s = [s] := splitOn_of_notMem h

theorem notMem_of_mem_fileLines {s l : Text} (h : l ∈ fileLines s) : '\n' ∉ l :=
  notMem_of_mem_splitOn h

theorem flatMap_fileLines_of_notMem {ls : List Text} (h : ∀ l ∈ ls, '\n' ∉ l) :
    ls.flatMap fileLines = ls := by
  induction ls with
  | nil => rfl
  | cons l ls ih =>
      rw [List.forall_mem_cons] at h
      rw [List.flatMap_cons, fileLines_of_notMem h.1, ih h.2]
      rfl

/-- Joining and splitting again gives the lines of the parts. -/
theorem fileLines_ofFileLines {parts : List Text} (h : parts ≠ []) :
    fileLines (ofFileLines parts) = parts.flatMap fileLines := by
  obtain ⟨l, parts, rfl⟩ := List.exists_cons_of_ne_nil h
  rw [ofFileLines_cons]
  induction parts generalizing l with
  | nil => rw [afterBreaks_nil, List.append_nil, List.flatMap_singleton]
  | cons l' parts ih =>
      rw [afterBreaks_cons, fileLines_append_break, ih l' (List.cons_ne_nil _ _)]
      rfl

theorem ofFileLines_fileLines (s : Text) : ofFileLines (fileLines s) = s := by
  induction s with
  | nil => rfl
  | cons c s ih =>
      by_cases hc : c = '\n'
      · rw [fileLines, splitOn, if_pos hc, ofFileLines_cons, List.nil_append,
          ← cons_ofFileLines (splitOn_ne_nil _ _), hc]
        exact congrArg _ ih
      · obtain ⟨line, lines, hs⟩ := List.exists_cons_of_ne_nil (splitOn_ne_nil '\n' s)
        rw [fileLines, hs, ofFileLines_cons] at ih
        rw [fileLines, splitOn, if_neg hc, hs, ofFileLines_cons, List.cons_append, ih]

/-! ## Strings within a text -/

theorem occurs_iff {needle s : Text} : occurs needle s = true ↔ needle <:+: s := by
  rw [occurs, Option.isSome_iff_exists]
  constructor
  · rintro ⟨⟨a, b⟩, h⟩
    exact ⟨a, b, (eq_append_of_cut? h).symm⟩
  · intro h
    induction s with
    | nil => rw [List.infix_nil] at h; exact ⟨([], []), by rw [cut?, h]; rfl⟩
    | cons c s ih =>
        rw [cut?]
        cases ha : after? needle (c :: s) with
        | some rest => exact ⟨([], rest), rfl⟩
        | none =>
            rcases List.infix_cons_iff.mp h with ⟨rest, hrest⟩ | h
            · rw [after?_eq_some_iff.mpr hrest.symm] at ha
              exact absurd ha (Option.some_ne_none rest)
            · obtain ⟨parts, hparts⟩ := ih h
              exact ⟨_, by rw [hparts]; rfl⟩

theorem occurs_eq_false_iff {needle s : Text} : occurs needle s = false ↔ ¬ needle <:+: s := by
  rw [← occurs_iff, Bool.not_eq_true]

theorem startsWith_append (lead rest : Text) : startsWith lead (lead ++ rest) = true := by
  rw [startsWith, after?_eq_some_iff.mpr rfl]
  rfl

theorem eq_nil_of_prefix_break {b y : Text} (hb : '\n' ∉ b) (h : b <+: '\n' :: y) : b = [] := by
  cases b with
  | nil => rfl
  | cons c b =>
      rw [List.cons_prefix_cons] at h
      exact absurd (h.1 ▸ List.mem_cons_self) hb

/-- A string without a line feed does not reach across a break. -/
theorem prefix_append_break {needle x y : Text} (hn : '\n' ∉ needle) :
    needle <+: x ++ '\n' :: y ↔ needle <+: x := by
  constructor
  · rintro ⟨rest, h⟩
    rcases List.append_eq_append_iff.mp h with ⟨as, hx, _⟩ | ⟨bs, rfl, hbs⟩
    · exact ⟨as, hx.symm⟩
    · rw [List.mem_append, not_or] at hn
      rw [eq_nil_of_prefix_break hn.2 ⟨rest, hbs.symm⟩, List.append_nil]
  · exact List.prefix_append_of_prefix

theorem infix_append_break {needle x y : Text} (hn : '\n' ∉ needle) :
    needle <:+: x ++ '\n' :: y ↔ needle <:+: x ∨ needle <:+: y := by
  constructor
  · intro h
    rcases List.infix_append_iff.mp h with h | h | ⟨a, b, rfl, ha, hb⟩
    · exact .inl h
    · rcases List.infix_cons_iff.mp h with h | h
      · rw [eq_nil_of_prefix_break hn h]
        exact .inl List.nil_infix
      · exact .inr h
    · rw [List.mem_append, not_or] at hn
      rw [eq_nil_of_prefix_break hn.2 hb, List.append_nil]
      exact .inl ha.isInfix
  · rintro (h | h)
    · exact List.infix_append_of_infix_left h
    · exact List.infix_append_of_infix_right (List.infix_cons_iff.mpr (.inr h))

theorem infix_append_afterBreaks {needle x : Text} {lines : List Text} (hn : '\n' ∉ needle) :
    needle <:+: x ++ afterBreaks lines ↔ needle <:+: x ∨ ∃ l ∈ lines, needle <:+: l := by
  induction lines generalizing x with
  | nil => simp
  | cons l lines ih =>
      rw [afterBreaks_cons, infix_append_break hn, ih, List.exists_mem_cons_iff]

theorem infix_ofFileLines {needle : Text} {lines : List Text} (hn : '\n' ∉ needle)
    (hne : lines ≠ []) : needle <:+: ofFileLines lines ↔ ∃ l ∈ lines, needle <:+: l := by
  obtain ⟨l, lines, rfl⟩ := List.exists_cons_of_ne_nil hne
  rw [ofFileLines_cons, infix_append_afterBreaks hn, List.exists_mem_cons_iff]

theorem infix_fileLines {needle s : Text} (hn : '\n' ∉ needle) :
    needle <:+: s ↔ ∃ l ∈ fileLines s, needle <:+: l := by
  rw [← infix_ofFileLines hn (fileLines_ne_nil s), ofFileLines_fileLines]

/-! ## Searching -/

theorem cut?_append_self {needle : Text} (hne : needle ≠ []) (rest : Text) :
    cut? needle (needle ++ rest) = some ([], rest) := by
  obtain ⟨c, needle, rfl⟩ := List.exists_cons_of_ne_nil hne
  have ha : after? (c :: needle) (c :: (needle ++ rest)) = some rest :=
    after?_eq_some_iff.mpr rfl
  rw [List.cons_append, cut?, ha]

theorem nearest_of_cut? {needle s a b : Text} (hne : needle ≠ []) (h : cut? needle s = some (a, b))
    {a' b' : Text} (hab : a ++ needle = a' ++ (needle ++ b')) : b' = [] := by
  induction s generalizing a a' with
  | nil => simp [cut?, hne] at h
  | cons c s ih =>
      rw [cut?] at h
      split at h
      · obtain ⟨rfl, -⟩ := Prod.mk.inj (Option.some.inj h)
        have hlen := congrArg List.length hab
        simp only [List.length_append, List.length_nil] at hlen
        exact List.length_eq_zero_iff.mp (by omega)
      · next hnone =>
        obtain ⟨⟨a, b₁⟩, hcut, heq⟩ := Option.map_eq_some_iff.mp h
        obtain ⟨rfl, rfl⟩ := Prod.mk.inj heq
        cases a' with
        | nil =>
            -- The string would have been found right at the start.
            have hstart : c :: s = needle ++ (b' ++ b₁) := by
              rw [eq_append_of_cut? hcut, ← List.append_assoc, ← List.cons_append]
              exact congrArg (· ++ b₁) hab
            rw [after?_eq_some_iff.mpr hstart] at hnone
            exact absurd hnone (Option.some_ne_none _)
        | cons d a' => exact ih hcut (List.cons.inj hab).2

theorem cut?_of_nearest {needle a : Text} (hne : needle ≠ [])
    (hfirst : ∀ a' b', a ++ needle = a' ++ (needle ++ b') → b' = []) (b : Text) :
    cut? needle (a ++ (needle ++ b)) = some (a, b) := by
  induction a with
  | nil => exact cut?_append_self hne b
  | cons c a ih =>
      have hnone : after? needle (c :: (a ++ (needle ++ b))) = none := by
        cases ha : after? needle (c :: (a ++ (needle ++ b))) with
        | none => rfl
        | some rest =>
            have hpre : needle <+: (c :: a ++ needle) ++ b := by
              refine ⟨rest, ?_⟩
              rw [← after?_eq_some_iff.mp ha, List.append_assoc, List.cons_append]
            have hlen : needle.length ≤ (c :: a ++ needle).length := by
              rw [List.length_append]
              omega
            obtain ⟨b', hb'⟩ := List.prefix_of_prefix_length_le hpre (List.prefix_append _ b) hlen
            have hsame := congrArg List.length hb'
            rw [hfirst [] b' hb'.symm, List.append_nil, List.length_append, List.length_cons] at hsame
            omega
      have hrest := ih fun a' b' hab => hfirst (c :: a') b' (congrArg (c :: ·) hab)
      rw [List.cons_append, cut?, hnone, hrest]
      rfl

/-- A search finds the string at its first place: up to the end of that place it
stands nowhere else. -/
theorem cut?_eq_some_iff {needle s a b : Text} (hne : needle ≠ []) :
    cut? needle s = some (a, b) ↔
      s = a ++ (needle ++ b) ∧ ∀ a' b', a ++ needle = a' ++ (needle ++ b') → b' = [] := by
  constructor
  · intro h
    refine ⟨?_, fun _ _ hab => nearest_of_cut? hne h hab⟩
    rw [eq_append_of_cut? h, List.append_assoc]
  · rintro ⟨rfl, hfirst⟩
    exact cut?_of_nearest hne hfirst b

/-- A search passes over text that the string does not occur in. -/
theorem cut?_append_break {needle x y : Text} (hn : '\n' ∉ needle) (h : ¬ needle <:+: x) :
    cut? needle (x ++ '\n' :: y) =
      (cut? needle ('\n' :: y)).map fun parts => (x ++ parts.1, parts.2) := by
  induction x with
  | nil => simp
  | cons c x ih =>
      rw [List.infix_cons_iff, not_or] at h
      rw [List.cons_append, cut?]
      cases ha : after? needle (c :: (x ++ '\n' :: y)) with
      | none => simp [ih h.2, Function.comp_def]
      | some rest =>
          have hpre : needle <+: (c :: x) ++ '\n' :: y :=
            ⟨rest, (after?_eq_some_iff.mp ha).symm⟩
          exact absurd ((prefix_append_break hn).mp hpre) h.1

theorem cut?_cons_break {needle : Text} (hn : '\n' ∉ needle) (hne : needle ≠ []) (y : Text) :
    cut? needle ('\n' :: y) = (cut? needle y).map fun parts => ('\n' :: parts.1, parts.2) := by
  have ha : after? needle ('\n' :: y) = none := by
    cases h : after? needle ('\n' :: y) with
    | none => rfl
    | some rest =>
        exact absurd (eq_nil_of_prefix_break hn ⟨rest, (after?_eq_some_iff.mp h).symm⟩) hne
  rw [cut?, ha]

/-- A search stops at the first line that is the string itself, where no line
before it holds the string. -/
theorem cut?_afterBreaks {needle : Text} {before : List Text} (hn : '\n' ∉ needle)
    (hne : needle ≠ []) (h : ∀ l ∈ before, ¬ needle <:+: l) (after : List Text) :
    cut? needle (afterBreaks (before ++ needle :: after)) =
      some (afterBreaks before ++ ['\n'], afterBreaks after) := by
  induction before with
  | nil =>
      rw [List.nil_append, afterBreaks_cons, cut?_cons_break hn hne, cut?_append_self hne]
      rfl
  | cons l before ih =>
      rw [List.forall_mem_cons] at h
      have hrest := ih h.2
      -- What follows `l` starts with a break, since the string's own line is still to come.
      obtain ⟨y, hy⟩ : ∃ y, afterBreaks (before ++ needle :: after) = '\n' :: y := by
        cases before with
        | nil => exact ⟨_, rfl⟩
        | cons l' before => exact ⟨_, rfl⟩
      rw [hy] at hrest
      rw [List.cons_append, afterBreaks_cons, hy, cut?_cons_break hn hne,
        cut?_append_break hn h.1, hrest, afterBreaks_cons]
      simp

/-! ## Numbered lines -/

theorem flatMap_zipIdx_eq_self {f : Text × Nat → List Text} {xs : List Text} {n : Nat}
    (h : ∀ i l, n ≤ i → i < n + xs.length → f (l, i) = [l]) : (xs.zipIdx n).flatMap f = xs := by
  induction xs generalizing n with
  | nil => rfl
  | cons x xs ih =>
      rw [List.length_cons] at h
      rw [List.zipIdx_cons, List.flatMap_cons, h n x (Nat.le_refl n) (by omega),
        ih fun i l hi hi' => h i l (by omega) (by omega)]
      rfl

theorem flatMap_zipIdx_eq_nil {f : Text × Nat → List Text} {xs : List Text} {n : Nat}
    (h : ∀ i l, n ≤ i → i < n + xs.length → f (l, i) = []) : (xs.zipIdx n).flatMap f = [] := by
  rw [List.flatMap_eq_nil_iff]
  intro e he
  have hn := List.le_snd_of_mem_zipIdx he
  have hn' := List.snd_lt_add_of_mem_zipIdx he
  exact h e.2 e.1 hn (by omega)

theorem drop_eq_append_drop {α : Type} (xs : List α) {i j : Nat} (h : i ≤ j) :
    xs.drop i = (xs.take j).drop i ++ xs.drop j := by
  have hcut := List.take_append_drop (j - i) (xs.drop i)
  rw [List.drop_drop, Nat.add_sub_cancel' h, ← List.drop_take] at hcut
  exact hcut.symm

/-- The numbered lines behind the first `k`, cut behind two further lines. -/
theorem flatMap_zipIdx_drop (f : Text × Nat → List Text) {lines : List Text} {k low high : Nat}
    (hlow : k ≤ low) (hhigh : low ≤ high) (hlines : high ≤ lines.length) :
    ((lines.drop k).zipIdx (k + 1)).flatMap f =
      (((lines.take low).drop k).zipIdx (k + 1)).flatMap f ++
        ((((lines.take high).drop low).zipIdx (low + 1)).flatMap f ++
          ((lines.drop high).zipIdx (high + 1)).flatMap f) := by
  have hfirst : k + 1 + ((lines.take low).drop k).length = low + 1 := by
    rw [List.length_drop, List.length_take]
    omega
  have hsecond : low + 1 + ((lines.take high).drop low).length = high + 1 := by
    rw [List.length_drop, List.length_take]
    omega
  rw [drop_eq_append_drop lines hlow, drop_eq_append_drop lines hhigh, List.zipIdx_append,
    List.zipIdx_append, List.flatMap_append, List.flatMap_append, hfirst, hsecond]

end Text
end Refit

/-
Reading the sheet of marks that overlap.

Blocks that overlap without one holding the other are both marked, and their
sentinels interleave: the end sentinel of the upper block is put in among rows
that the start sentinel of the lower one has moved down.  The pair of the upper
block takes that start sentinel with it and ends one line early, so a line of the
block survives and the end sentinel of the lower block is left over.  `settles`
follows the reading down the marked spans and tells whether all of this comes
right again further down; `exists_reads` says so of the sheet, and
`length_outsideFrom_eq_iff` of the lines that are kept.
-/
import Refit.Proofs.Marker.Layout

namespace Refit
namespace Marker

open Text

/-! ## What a reading leaves -/

def kept (ps : List Piece) : List Text :=
  ps.filterMap fun
    | .line l => some l
    | _ => none

def strays (ps : List Piece) : List Text :=
  ps.filterMap fun
    | .stray id => some id
    | _ => none

@[simp] theorem kept_nil : kept [] = [] := rfl

@[simp] theorem strays_nil : strays [] = [] := rfl

theorem kept_lines (ls : List Text) (ps : List Piece) :
    kept (ls.map .line ++ ps) = ls ++ kept ps := by
  simp [kept, List.filterMap_append, List.filterMap_map]

theorem strays_lines (ls : List Text) (ps : List Piece) :
    strays (ls.map .line ++ ps) = strays ps := by
  simp [strays, List.filterMap_append, List.filterMap_map]

/-! ## Reading overlapping marks -/

/-- An end sentinel that is put in between the sentinels of a pair belongs to the
pair. -/
theorem Parses.insert_inside {id id' : Text} {inside es : List Row} {ps : List Piece} {j : Nat}
    (first : Row.closing id ∉ inside) (rest : Parses es ps) (hid : id' ≠ id)
    (hj : j ≤ inside.length) :
    Parses (insertLine (j + 1) (.closing id') (.opening id :: (inside ++ .closing id :: es)))
      (.pair id (insertLine j (.closing id') inside) :: ps) := by
  rw [insertLine_succ_cons, insertLine_append_left hj]
  refine .pair (fun hmem => ?_) rest
  rcases mem_insertLine.mp hmem with heq | hmem
  · exact hid (Row.closing.inj heq).symm
  · exact first hmem

/-- An end sentinel without its start sentinel changes no line that is kept. -/
theorem Parses.insert_closing {es : List Row} {ps : List Piece} (h : Parses es ps) {id : Text}
    (hid : Row.opening id ∉ es) (j : Nat) :
    ∃ ps', Parses (insertLine j (.closing id) es) ps' ∧ kept ps' = kept ps := by
  induction h generalizing j with
  | nil =>
      refine ⟨[.stray id], ?_, rfl⟩
      rw [insertLine, List.take_nil, List.drop_nil]
      exact .stray id .nil
  | @line es ps l h ih =>
      rw [List.mem_cons, not_or] at hid
      cases j with
      | zero => exact ⟨.stray id :: .line l :: ps, .stray id (.line l h), rfl⟩
      | succ j =>
          obtain ⟨ps', hparses, hkept⟩ := ih hid.2 j
          exact ⟨.line l :: ps', .line l hparses, congrArg (l :: ·) hkept⟩
  | @stray es ps id' h ih =>
      rw [List.mem_cons, not_or] at hid
      cases j with
      | zero => exact ⟨.stray id :: .stray id' :: ps, .stray id (.stray id' h), rfl⟩
      | succ j =>
          obtain ⟨ps', hparses, hkept⟩ := ih hid.2 j
          exact ⟨.stray id' :: ps', .stray id' hparses, hkept⟩
  | @pair inside es ps id' first h ih =>
      rw [List.mem_cons, List.mem_append, List.mem_cons, not_or, not_or, not_or] at hid
      cases j with
      | zero => exact ⟨.stray id :: .pair id' inside :: ps, .stray id (.pair first h), rfl⟩
      | succ j =>
          by_cases hj : j ≤ inside.length
          · have hne : id ≠ id' := fun he => hid.1 (congrArg _ he)
            exact ⟨_, .insert_inside first h hne hj, rfl⟩
          · obtain ⟨n, rfl⟩ : ∃ n, j = inside.length + (n + 1) := ⟨j - inside.length - 1, by omega⟩
            obtain ⟨ps', hparses, hkept⟩ := ih hid.2.2.2 n
            refine ⟨.pair id' inside :: ps', ?_, hkept⟩
            rw [insertLine_succ_cons, insertLine_append_right, insertLine_succ_cons]
            exact .pair first hparses

/-- Whether marks at these spans, from the top down, are read without leaving
anything behind.  `k` lines have been read.  A span that begins among them has its
start sentinel in the pair above it, which therefore ends a line early; the reading
is then `owing` an end sentinel, and only a pair that begins with the next line can
take it in. -/
def settles : Nat → Bool → List Span → Bool
  | _, owing, [] => !owing
  | k, owing, s :: rest =>
    if s.start ≤ k then settles (k - 1) true rest
    else (!owing || s.start == k + 1) && settles s.stop false rest

theorem settles_of_apart {ss : List Span} {k : Nat}
    (hss : ss.Pairwise fun a b => a.stop < b.start) (hk : ∀ s ∈ ss, k < s.start) :
    settles k false ss = true := by
  induction ss generalizing k with
  | nil => rfl
  | cons s ss ih =>
      rw [List.pairwise_cons] at hss
      have hs := hk s List.mem_cons_self
      rw [settles, if_neg (by omega), ih hss.2 hss.1]
      rfl

/-- Two spans alone settle only if they share no line. -/
theorem settles_two_iff (a b : Span) : settles 0 false [a, b] = true ↔ a.stop < b.start := by
  have hpos := a.start_pos
  rw [settles, if_neg (by omega), Bool.not_false, Bool.true_or, Bool.true_and, settles]
  by_cases h : b.start ≤ a.stop
  · rw [if_pos h]
    exact iff_of_false Bool.false_ne_true (by omega)
  · rw [if_neg h]
    exact iff_of_true rfl (by omega)

/-- The lines that are kept behind the first `k`, read in the same way. -/
def keptFrom (lines : List Text) : Nat → List Span → List Text
  | k, [] => lines.drop k
  | k, s :: rest =>
    if s.start ≤ k then keptFrom lines (k - 1) rest
    else (lines.take (s.start - 1)).drop k ++ keptFrom lines s.stop rest

def spans (ms : List (Block × Text)) : List Span := ms.map fun m => m.1.span

/-- A reading of the sheet of some marks behind row `k`.  When the reading is owing,
its first piece is a pair that reaches as far down as one of the marks. -/
structure Reads (lines : List Text) (k : Nat) (ms : List (Block × Text)) (ps : List Piece) :
    Prop where
  parses : Parses ((sheet lines ms).drop k) ps
  kept_eq : kept ps = keptFrom lines k (spans ms)
  settled : settles k false (spans ms) = true → strays ps = []
  owed : settles k true (spans ms) = true → ∃ id inside rest, ps = .pair id inside :: rest ∧
    strays rest = [] ∧ ∃ m ∈ ms, m.1.span.stop ≤ k + inside.length + 1

section Reads

variable {lines : List Text} {k : Nat} {m : Block × Text} {ms : List (Block × Text)}
  {ps : List Piece}

theorem reads_nil (lines : List Text) (k : Nat) :
    Reads lines k [] ((lines.drop k).map .line) where
  parses := by simpa [sheet] using parses_lines (lines.drop k) .nil
  kept_eq := by simpa [spans, keptFrom] using kept_lines (lines.drop k) []
  settled _ := by simpa using strays_lines (lines.drop k) []
  owed h := absurd h (by simp [spans, settles])

/-- The next mark begins behind row `k`: its pair is read and the reading goes on
behind it. -/
theorem Reads.cons (h : Reads lines m.1.span.stop ms ps)
    (hstop : ∀ m' ∈ m :: ms, m'.1.span.stop ≤ lines.length)
    (habove : ∀ m' ∈ ms, Above m.1 m'.1) (hid : m.2 ∉ ms.map Prod.snd) (hk : k < m.1.span.start) :
    ∃ ps', Reads lines k (m :: ms) ps' := by
  rw [List.forall_mem_cons] at hstop
  have hspan := m.1.span.start_le_stop
  have hpos := m.1.span.start_pos
  have hlen := length_sheet lines ms
  have hnot : ¬ m.1.span.start ≤ k := by omega
  have hlines : (sheet lines ms).take (m.1.span.start - 1) =
      (lines.take (m.1.span.start - 1)).map Row.line := by
    refine take_sheet hstop.2 fun m' hm' => ?_
    have := (habove m' hm').1
    omega
  let inside := ((sheet lines ms).take m.1.span.stop).drop (m.1.span.start - 1)
  have hinside : inside.length = m.1.span.stop - (m.1.span.start - 1) := by
    rw [List.length_drop, List.length_take]
    omega
  have hfirst : Row.closing m.2 ∉ inside := fun hmem =>
    closing_notMem_sheet hid (List.mem_of_mem_take (List.mem_of_mem_drop hmem))
  have hgap : ((lines.take (m.1.span.start - 1)).map Row.line).drop k =
      ((lines.take (m.1.span.start - 1)).drop k).map Row.line := List.map_drop.symm
  refine ⟨((lines.take (m.1.span.start - 1)).drop k).map .line ++ .pair m.2 inside :: ps,
    ?_, ?_, ?_, ?_⟩
  · rw [drop_sheet_cons hstop.1 hk, hlines, hgap]
    exact parses_lines _ (.pair hfirst h.parses)
  · rw [kept_lines, spans, List.map_cons, keptFrom, if_neg hnot]
    exact congrArg _ h.kept_eq
  · intro hs
    rw [spans, List.map_cons, settles, if_neg hnot, Bool.not_false, Bool.true_or,
      Bool.true_and] at hs
    rw [strays_lines]
    exact h.settled hs
  · intro hs
    rw [spans, List.map_cons, settles, if_neg hnot, Bool.not_true, Bool.false_or,
      Bool.and_eq_true, beq_iff_eq] at hs
    have hempty : (lines.take (m.1.span.start - 1)).drop k = [] := by
      rw [List.drop_eq_nil_iff, List.length_take]
      omega
    refine ⟨m.2, inside, ps, ?_, h.settled hs.2, m, List.mem_cons_self, ?_⟩
    · rw [hempty]
      rfl
    · omega

/-- The next mark begins among the rows that have been read: only its end sentinel
is left to come. -/
theorem Reads.cons_of_le (h : Reads lines (k - 1) ms ps)
    (hstop : m.1.span.stop ≤ lines.length) (habove : ∀ m' ∈ ms, Above m.1 m'.1)
    (hid : m.2 ∉ ms.map Prod.snd) (hk : m.1.span.start ≤ k) (hk' : k < m.1.span.stop) :
    ∃ ps', Reads lines k (m :: ms) ps' := by
  obtain ⟨hparses, hkept, -, howed⟩ := h
  have hpos := m.1.span.start_pos
  have hdrop : (sheet lines (m :: ms)).drop k = _ :=
    drop_sheet_cons_of_lt hstop hk (Nat.le_of_lt hk')
  have hopen : ∀ id, Row.opening id ∈ (sheet lines ms).drop (k - 1) → m.2 ≠ id := by
    rintro id hmem rfl
    exact opening_notMem_sheet hid (List.mem_of_mem_drop hmem)
  have hsettles : ∀ owing, settles k owing (spans (m :: ms)) = settles (k - 1) true (spans ms) :=
    fun _ => if_pos hk
  have hkeep : keptFrom lines k (spans (m :: ms)) = keptFrom lines (k - 1) (spans ms) := if_pos hk
  generalize (sheet lines ms).drop (k - 1) = rows at hparses hdrop hopen
  -- If the rest settles, its first pair reaches below this mark and takes the end
  -- sentinel in.  Otherwise only the kept lines matter.
  cases hs : settles (k - 1) true (spans ms) with
  | false =>
      obtain ⟨ps', hparses', hkept'⟩ := hparses.insert_closing (fun hmem => hopen m.2 hmem rfl)
        (m.1.span.stop - (k - 1))
      refine ⟨ps', hdrop ▸ hparses', by rw [hkept', hkept, hkeep], ?_, ?_⟩
      · rw [hsettles, hs]
        exact fun hf => absurd hf Bool.false_ne_true
      · rw [hsettles, hs]
        exact fun hf => absurd hf Bool.false_ne_true
  | true =>
      obtain ⟨id, inside, rest, rfl, hrest, m', hm', hreach⟩ := howed hs
      have hlow := (habove m' hm').2
      obtain ⟨j, hj⟩ : ∃ j, m.1.span.stop - (k - 1) = j + 1 := ⟨m.1.span.stop - k, by omega⟩
      rw [hj] at hdrop
      cases hparses with
      | pair first hafter =>
          have hne := hopen id List.mem_cons_self
          refine ⟨.pair id (insertLine j (.closing m.2) inside) :: rest,
            hdrop ▸ .insert_inside first hafter hne (by omega), hkept.trans hkeep.symm,
            fun _ => hrest, fun _ => ⟨_, _, rest, rfl, hrest, m', List.mem_cons_of_mem _ hm', ?_⟩⟩
          rw [length_insertLine]
          omega

theorem exists_reads (hstop : ∀ m ∈ ms, m.1.span.stop ≤ lines.length)
    (habove : ms.Pairwise fun a b => Above a.1 b.1) (hids : (ms.map Prod.snd).Nodup)
    (hk : ∀ m ∈ ms, k < m.1.span.stop) : ∃ ps, Reads lines k ms ps := by
  induction ms generalizing k with
  | nil => exact ⟨_, reads_nil lines k⟩
  | cons m ms ih =>
      rw [List.pairwise_cons] at habove
      rw [List.map_cons, List.nodup_cons] at hids
      have hstop' := fun m' hm' => hstop m' (List.mem_cons_of_mem m hm')
      rw [List.forall_mem_cons] at hk
      by_cases hstart : m.1.span.start ≤ k
      · obtain ⟨ps, hps⟩ := @ih (k - 1) hstop' habove.2 hids.2 fun m' hm' => by
          have := hk.2 m' hm'
          omega
        exact hps.cons_of_le (hstop m List.mem_cons_self) habove.1 hids.1 hstart hk.1
      · obtain ⟨ps, hps⟩ := ih hstop' habove.2 hids.2 fun m' hm' => (habove.1 m' hm').2
        exact hps.cons hstop habove.1 hids.1 (by omega)

end Reads

/-! ## Lines outside the marked blocks -/

/-- The lines behind the first `k` that lie in none of the spans. -/
def outsideFrom (lines : List Text) : Nat → List Span → List Text
  | k, [] => lines.drop k
  | k, s :: rest => (lines.take (s.start - 1)).drop k ++ outsideFrom lines s.stop rest

/-- A reading that has fallen back to line `k` keeps what lies outside the spans
behind a lower line. -/
theorem outsideFrom_sublist_keptFrom {lines : List Text} {ss : List Span} {k low : Nat}
    (hss : ss.Pairwise fun a b => a.stop < b.stop) (hlow : ∀ s ∈ ss, low < s.stop)
    (hk : k ≤ low) : List.Sublist (outsideFrom lines low ss) (keptFrom lines k ss) := by
  induction ss generalizing k low with
  | nil => exact List.drop_sublist_drop_left lines hk
  | cons s ss ih =>
      rw [List.pairwise_cons] at hss
      have hs := hlow s List.mem_cons_self
      rw [outsideFrom, keptFrom]
      by_cases hstart : s.start ≤ k
      · have hempty : (lines.take (s.start - 1)).drop low = [] := by
          rw [List.drop_eq_nil_iff, List.length_take]
          omega
        rw [if_pos hstart, hempty, List.nil_append]
        exact ih hss.2 hss.1 (by omega)
      · rw [if_neg hstart]
        exact (List.drop_sublist_drop_left _ hk).append (ih hss.2 hss.1 (Nat.le_refl _))

/-- It keeps nothing else exactly if the spans settle. -/
theorem length_outsideFrom_eq_iff {lines : List Text} {ss : List Span} {k low : Nat}
    (hss : ss.Pairwise fun a b => a.stop < b.stop) (hlow : ∀ s ∈ ss, low < s.stop)
    (hstop : ∀ s ∈ ss, s.stop ≤ lines.length) (hk : k ≤ low) (hlines : low ≤ lines.length) :
    (outsideFrom lines low ss).length = (keptFrom lines k ss).length ↔
      settles k (decide (k < low)) ss = true := by
  induction ss generalizing k low with
  | nil =>
      rw [outsideFrom, keptFrom, settles, List.length_drop, List.length_drop, Bool.not_eq_true',
        decide_eq_false_iff_not]
      omega
  | cons s ss ih =>
      rw [List.pairwise_cons] at hss
      rw [List.forall_mem_cons] at hstop
      have hs := hlow s List.mem_cons_self
      have hspan := s.start_le_stop
      rw [outsideFrom, keptFrom, settles]
      by_cases hstart : s.start ≤ k
      · have hempty : (lines.take (s.start - 1)).drop low = [] := by
          rw [List.drop_eq_nil_iff, List.length_take]
          omega
        have hrest := @ih (k - 1) s.stop hss.2 hss.1 hstop.2 (by omega) hstop.1
        rw [decide_eq_true (show k - 1 < s.stop by omega)] at hrest
        rw [if_pos hstart, if_pos hstart, hempty, List.nil_append]
        exact hrest
      · have hrest := @ih s.stop s.stop hss.2 hss.1 hstop.2 (Nat.le_refl _) hstop.1
        have hle : (outsideFrom lines s.stop ss).length ≤ (keptFrom lines s.stop ss).length :=
          (outsideFrom_sublist_keptFrom hss.2 hss.1 (Nat.le_refl s.stop)).length_le
        rw [decide_eq_false (Nat.lt_irrefl _)] at hrest
        rw [if_neg hstart, if_neg hstart, List.length_append, List.length_append,
          List.length_drop, List.length_drop, List.length_take, Bool.and_eq_true, ← hrest,
          Bool.or_eq_true, Bool.not_eq_true', decide_eq_false_iff_not, beq_iff_eq]
        omega

end Marker
end Refit

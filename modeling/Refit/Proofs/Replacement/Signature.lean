/-
Where a signature ends and its name stands.

A reader only drops characters from the front of a text, so what a signature is
read from is a stretch of text that holds the name and ends with the opening brace
(`exists_append_of_recogniser`).
-/
import Refit.Proofs.Text.Positions
import Refit.Replacement.Signature

namespace Refit

namespace Text
namespace Ways

/-- What remains of a text is what stands at its end. -/
def Drops (w : Ways) : Prop := ∀ s, ∀ t ∈ w s, t <:+ s

variable {w : Ways} {ws : List Ways}

@[simp] theorem drops_one (p : Char → Bool) : Drops (one p) := by
  intro s t ht
  cases s with
  | nil => exact absurd ht List.not_mem_nil
  | cons c s =>
      rw [one] at ht
      split at ht
      · obtain rfl := List.mem_singleton.mp ht
        exact List.suffix_cons c _
      · exact absurd ht List.not_mem_nil

@[simp] theorem drops_lit (lead : Text) : Drops (lit lead) := by
  intro s t ht
  rw [lit, Option.mem_toList, after?_eq_some_iff] at ht
  exact ⟨lead, ht.symm⟩

theorem mem_run_go {p : Char → Bool} {s t : Text} {found : List Text} (ht : t ∈ run.go p found s) :
    t <:+ s ∨ t ∈ found := by
  induction s generalizing found with
  | nil =>
      rcases List.mem_cons.mp ht with rfl | ht
      · exact .inl List.suffix_rfl
      · exact .inr ht
  | cons c s ih =>
      rw [run.go] at ht
      split at ht
      · rcases ih ht with ht | ht
        · exact .inl (ht.trans (List.suffix_cons c s))
        · rcases List.mem_cons.mp ht with rfl | ht
          · exact .inl List.suffix_rfl
          · exact .inr ht
      · rcases List.mem_cons.mp ht with rfl | ht
        · exact .inl List.suffix_rfl
        · exact .inr ht

@[simp] theorem drops_run (p : Char → Bool) : Drops (run p) := by
  intro s t ht
  rcases mem_run_go ht with ht | ht
  · exact ht
  · exact absurd ht List.not_mem_nil

@[simp] theorem drops_seq (hws : ∀ w ∈ ws, Drops w) : Drops (seq ws) := by
  induction ws with
  | nil =>
      intro s t ht
      exact List.mem_singleton.mp ht ▸ List.suffix_rfl
  | cons w ws ih =>
      rw [List.forall_mem_cons] at hws
      intro s t ht
      obtain ⟨mid, hmid, ht⟩ := List.mem_flatMap.mp ht
      exact (ih hws.2 mid t ht).trans (hws.1 s mid hmid)

@[simp] theorem drops_run1 (p : Char → Bool) : Drops (run1 p) :=
  drops_seq (by simp)

@[simp] theorem drops_alt (hws : ∀ w ∈ ws, Drops w) : Drops (alt ws) := by
  intro s t ht
  obtain ⟨w, hw, ht⟩ := List.mem_flatMap.mp ht
  exact hws w hw s t ht

@[simp] theorem drops_opt (hw : Drops w) : Drops (opt w) := by
  intro s t ht
  rcases List.mem_append.mp ht with ht | ht
  · exact hw s t ht
  · exact List.mem_singleton.mp ht ▸ List.suffix_rfl

theorem drops_upTo (hw : Drops w) (n : Nat) : Drops (upTo w n) := by
  induction n with
  | zero =>
      intro s t ht
      exact List.mem_singleton.mp ht ▸ List.suffix_rfl
  | succ n ih =>
      intro s t ht
      rcases List.mem_append.mp ht with ht | ht
      · obtain ⟨mid, hmid, ht⟩ := List.mem_flatMap.mp ht
        exact (ih mid t ht).trans (hw s mid hmid)
      · exact List.mem_singleton.mp ht ▸ List.suffix_rfl

@[simp] theorem drops_many (hw : Drops w) : Drops (many w) :=
  fun s => drops_upTo hw s.length s

@[simp] theorem drops_many1 (hw : Drops w) : Drops (many1 w) :=
  drops_seq (by simp [hw])

@[simp] theorem drops_guard (ok : Text → Bool) : Drops (guard ok) := by
  intro s t ht
  rw [guard] at ht
  split at ht
  · exact List.mem_singleton.mp ht ▸ List.suffix_rfl
  · exact absurd ht List.not_mem_nil

end Ways
end Text

namespace Replacement
namespace Signature

open Text Text.Ways

theorem drops_annotationMark : Drops annotationMark :=
  drops_seq (by simp)

theorem drops_modifier : Drops modifier :=
  drops_seq (by simp)

theorem drops_typeParameters : Drops typeParameters := by
  have halt : Drops (alt [one isPlainParameter, seq [lit "<", run isPlainParameter, lit ">"]]) :=
    drops_alt (by simp)
  exact drops_seq (by simpa using drops_many1 halt)

theorem drops_returnType : Drops returnType :=
  drops_seq (by simp)

theorem drops_lead : Drops lead :=
  drops_seq (by simp [annotationLine, inlineAnnotation, drops_annotationMark, drops_modifier,
    drops_typeParameters, drops_returnType])

/-! ## From the name on -/

variable {before : Option Char} {s name rest : Text} {n : Nat}

theorem suffix_of_throwsClause? (h : throwsClause? s = some rest) : '\x7b' :: rest <:+ s := by
  unfold throwsClause? at h
  split at h
  · exact absurd h.symm (Option.some_ne_none _)
  · next s' hafter =>
    split at h
    · next hbrace =>
      split at h
      · obtain rfl := Option.some.inj h
        have hclause : s' <:+ s.dropWhile isBlank := ⟨_, (after?_eq_some_iff.mp hafter).symm⟩
        rw [← hbrace]
        exact ((List.dropWhile_suffix _).trans hclause).trans (List.dropWhile_suffix _)
      · exact absurd h.symm (Option.some_ne_none _)
    · exact absurd h.symm (Option.some_ne_none _)

theorem suffix_of_opening? (h : opening? s = some rest) : '\x7b' :: rest <:+ s := by
  unfold opening? at h
  split at h
  · next hthrows =>
    obtain rfl := Option.some.inj h
    exact suffix_of_throwsClause? hthrows
  · split at h
    · next hbrace =>
      obtain rfl := Option.some.inj h
      rw [← hbrace]
      exact List.dropWhile_suffix _
    · exact absurd h.symm (Option.some_ne_none _)

theorem suffix_of_parameters? (h : parameters? s = some rest) : '\x7b' :: rest <:+ s := by
  unfold parameters? at h
  split at h
  · next s₁ hopen =>
    split at h
    · next s₂ hclose =>
      have hs₁ : s₁ <:+ s :=
        (List.suffix_cons _ _).trans (hopen ▸ List.dropWhile_suffix _)
      have hs₂ : s₂ <:+ s₁ :=
        (List.suffix_cons _ _).trans (hclose ▸ List.dropWhile_suffix _)
      exact ((suffix_of_opening? h).trans hs₂).trans hs₁
    · exact absurd h.symm (Option.some_ne_none _)
  · exact absurd h.symm (Option.some_ne_none _)

theorem named?_eq_some (h : named? s = some (name, rest)) :
    opensWithKeyword s = false ∧
      ∃ after, identifier? s = some (name, after) ∧ parameters? after = some rest := by
  unfold named? at h
  split at h
  · exact absurd h.symm (Option.some_ne_none _)
  · next hkey =>
    split at h
    · exact absurd h.symm (Option.some_ne_none _)
    · next after hid =>
      obtain ⟨_, hparams, heq⟩ := Option.map_eq_some_iff.mp h
      obtain ⟨rfl, rfl⟩ := Prod.mk.inj heq
      exact ⟨Bool.not_eq_true _ ▸ hkey, after, hid, hparams⟩

theorem recogniser_eq_some (h : recogniser before s = some (n, name)) :
    ∃ s' ∈ lead s, ∃ rest, named? s' = some (name, rest) ∧ n = s.length - rest.length := by
  unfold recogniser at h
  split at h
  · obtain ⟨⟨found, rest⟩, hfound, heq⟩ := Option.map_eq_some_iff.mp h
    obtain ⟨rfl, rfl⟩ := Prod.mk.inj heq
    obtain ⟨s', hs', hnamed⟩ := List.exists_of_findSome?_eq_some hfound
    exact ⟨s', hs', rest, hnamed, rfl⟩
  · exact absurd h.symm (Option.some_ne_none _)

/-- A signature holds its name and ends with the opening brace. -/
theorem exists_append_of_recogniser (h : recogniser before s = some (n, name)) :
    ∃ a b body, s = a ++ (name ++ (b ++ '\x7b' :: body)) ∧ n = (a ++ name ++ b).length + 1 := by
  obtain ⟨s', hs', body, hnamed, hn⟩ := recogniser_eq_some h
  obtain ⟨-, after, hid, hparams⟩ := named?_eq_some hnamed
  obtain ⟨a, ha⟩ := drops_lead s s' hs'
  obtain ⟨b, hb⟩ := suffix_of_parameters? hparams
  have hs : s = a ++ (name ++ (b ++ '\x7b' :: body)) := by
    rw [hb, ← eq_append_of_identifier? hid, ha]
  refine ⟨a, b, body, hs, ?_⟩
  rw [hn, hs]
  simp only [List.length_append, List.length_cons]
  omega

theorem proper_recogniser : recogniser.Proper where
  pos _ _ _ _ h := by
    obtain ⟨a, b, body, -, hn⟩ := exists_append_of_recogniser h
    omega
  within _ s n _ h := by
    obtain ⟨a, b, body, hs, hn⟩ := exists_append_of_recogniser h
    rw [hn, hs]
    simp only [List.length_append, List.length_cons]
    omega

end Signature
end Replacement
end Refit

/-
Mappings that keep their keys in the order of first insertion.

The pairs themselves are the view. A fresh key goes to the end; writing to a present key changes its
value and moves nothing.
-/

namespace Refit
namespace Data

abbrev Pairs (κ ν : Type) := List (κ × ν)

namespace Pairs

variable {κ ν : Type} [DecidableEq κ]

def keys (m : Pairs κ ν) : List κ := m.map Prod.fst

def values (m : Pairs κ ν) : List ν := m.map Prod.snd

def get? (m : Pairs κ ν) (k : κ) : Option ν :=
  match m with
  | [] => none
  | (k', v) :: rest => if k' = k then some v else get? rest k

def hasKey (m : Pairs κ ν) (k : κ) : Bool := (get? m k).isSome

/-- Writes at `k` what `f` makes of the present value. -/
def alter (m : Pairs κ ν) (k : κ) (f : Option ν → ν) : Pairs κ ν :=
  match m with
  | [] => [(k, f none)]
  | (k', v) :: rest => if k' = k then (k', f (some v)) :: rest else (k', v) :: alter rest k f

def put (m : Pairs κ ν) (k : κ) (v : ν) : Pairs κ ν := alter m k fun _ => v

def erase (m : Pairs κ ν) (k : κ) : Pairs κ ν := m.filter fun e => e.1 ≠ k

def ofList (entries : List (κ × ν)) : Pairs κ ν :=
  entries.foldl (fun m e => put m e.1 e.2) []

def update (m m' : Pairs κ ν) : Pairs κ ν := m'.foldl (fun m e => put m e.1 e.2) m

theorem get?_alter (m : Pairs κ ν) (k : κ) (f : Option ν → ν) :
    get? (alter m k f) k = some (f (get? m k)) := by
  induction m with
  | nil => simp [alter, get?]
  | cons e m ih =>
    by_cases h : e.1 = k
    · simp [alter, get?, h]
    · simp [alter, get?, h, ih]

theorem get?_alter_of_ne (m : Pairs κ ν) {k k' : κ} (f : Option ν → ν) (h : k ≠ k') :
    get? (alter m k f) k' = get? m k' := by
  induction m with
  | nil => simp [alter, get?, h]
  | cons e m ih =>
    by_cases he : e.1 = k
    · simp [alter, get?, he, h]
    · simp [alter, get?, he, ih]

/-- The keys after a write: those before, and a fresh key at the end. -/
theorem keys_alter (m : Pairs κ ν) (k : κ) (f : Option ν → ν) :
    keys (alter m k f) = if k ∈ keys m then keys m else keys m ++ [k] := by
  induction m with
  | nil => simp [alter, keys]
  | cons e m ih =>
    by_cases h : e.1 = k
    · simp [alter, keys, h]
    · have hk : k ≠ e.1 := Ne.symm h
      simp only [keys] at ih
      simp only [alter, keys, h, if_false, List.map_cons, ih, List.mem_cons, hk, false_or]
      split <;> simp_all

/-! ### Entries -/

theorem get?_eq_none_iff {m : Pairs κ ν} {k : κ} : get? m k = none ↔ k ∉ keys m := by
  induction m with
  | nil => simp [get?, keys]
  | cons e m ih =>
    by_cases h : e.1 = k
    · simp [get?, keys, h]
    · simp only [keys] at ih
      simp [get?, keys, h, ih, Ne.symm h]

theorem hasKey_iff {m : Pairs κ ν} {k : κ} : hasKey m k = true ↔ k ∈ keys m := by
  rw [hasKey, Option.isSome_iff_ne_none, ne_eq, get?_eq_none_iff, Decidable.not_not]

theorem mem_of_get? {m : Pairs κ ν} {k : κ} {v : ν} (h : get? m k = some v) : (k, v) ∈ m := by
  induction m with
  | nil => simp [get?] at h
  | cons e m ih =>
    obtain ⟨k', v'⟩ := e
    rw [get?] at h
    split at h
    · next hk =>
      rw [hk, Option.some.inj h]
      exact List.mem_cons_self
    · exact List.mem_cons_of_mem _ (ih h)

theorem mem_alter {m : Pairs κ ν} {k : κ} {f : Option ν → ν} {e : κ × ν} (h : e ∈ alter m k f) :
    e ∈ m ∨ e = (k, f none) ∨ ∃ v, (k, v) ∈ m ∧ e = (k, f (some v)) := by
  induction m with
  | nil =>
    rw [alter, List.mem_singleton] at h
    exact .inr (.inl h)
  | cons e' m ih =>
    obtain ⟨k', v'⟩ := e'
    rw [alter] at h
    split at h
    · next hk =>
      subst hk
      rcases List.mem_cons.mp h with rfl | h
      · exact .inr (.inr ⟨v', List.mem_cons_self, rfl⟩)
      · exact .inl (List.mem_cons_of_mem _ h)
    · rcases List.mem_cons.mp h with rfl | h
      · exact .inl List.mem_cons_self
      · rcases ih h with h | h | ⟨v, hv, h⟩
        · exact .inl (List.mem_cons_of_mem _ h)
        · exact .inr (.inl h)
        · exact .inr (.inr ⟨v, List.mem_cons_of_mem _ hv, h⟩)

theorem get?_of_mem {m : Pairs κ ν} (hnd : (keys m).Nodup) {k : κ} {v : ν} (h : (k, v) ∈ m) :
    get? m k = some v := by
  induction m with
  | nil => simp at h
  | cons e m ih =>
    rw [keys, List.map_cons, List.nodup_cons] at hnd
    rcases List.mem_cons.mp h with rfl | h
    · simp [get?]
    · have hne : e.1 ≠ k := fun he => hnd.1 (he ▸ List.mem_map_of_mem h)
      rw [get?, if_neg hne, ih hnd.2 h]

theorem get?_append (m m' : Pairs κ ν) (k : κ) :
    get? (m ++ m') k = (get? m k).or (get? m' k) := by
  induction m with
  | nil => rfl
  | cons e m ih =>
    by_cases h : e.1 = k
    · simp [get?, h]
    · simp [get?, h, ih]

/-! ### Updates -/

theorem get?_put (m : Pairs κ ν) (k k' : κ) (v : ν) :
    get? (put m k v) k' = if k = k' then some v else get? m k' := by
  by_cases h : k = k'
  · rw [if_pos h, ← h, put, get?_alter]
  · rw [if_neg h, put, get?_alter_of_ne m _ h]

theorem nodup_keys_put {m : Pairs κ ν} (h : (keys m).Nodup) (k : κ) (v : ν) :
    (keys (put m k v)).Nodup := by
  rw [put, keys_alter]
  split
  · exact h
  · next hk =>
    refine List.nodup_append.mpr ⟨h, List.pairwise_singleton _ k, fun a ha b hb => ?_⟩
    rw [List.mem_singleton.mp hb]
    exact fun heq => hk (heq ▸ ha)

theorem put_of_notMem {m : Pairs κ ν} {k : κ} (h : k ∉ keys m) (v : ν) :
    put m k v = m ++ [(k, v)] := by
  induction m with
  | nil => rfl
  | cons e m ih =>
    rw [keys, List.map_cons, List.mem_cons, not_or] at h
    have hrest : alter m k (fun _ => v) = m ++ [(k, v)] := ih h.2
    rw [put, alter, if_neg (Ne.symm h.1), hrest, List.cons_append]

/-- What is written wins over what was there. -/
theorem get?_update (m : Pairs κ ν) {m' : Pairs κ ν} (h : (keys m').Nodup) (k : κ) :
    get? (update m m') k = (get? m' k).or (get? m k) := by
  induction m' generalizing m with
  | nil => rfl
  | cons e m' ih =>
    rw [keys, List.map_cons, List.nodup_cons] at h
    have hrest : get? (update m (e :: m')) k = (get? m' k).or (get? (put m e.1 e.2) k) :=
      ih (put m e.1 e.2) h.2
    rw [hrest, get?_put, get?]
    by_cases hk : e.1 = k
    · have hnone : get? m' k = none := get?_eq_none_iff.mpr (hk ▸ h.1)
      rw [if_pos hk, if_pos hk, hnone]
      rfl
    · rw [if_neg hk, if_neg hk]

theorem nodup_keys_update {m : Pairs κ ν} (h : (keys m).Nodup) (m' : Pairs κ ν) :
    (keys (update m m')).Nodup := by
  induction m' generalizing m with
  | nil => exact h
  | cons e m' ih => exact ih (nodup_keys_put h e.1 e.2)

theorem update_of_disjoint {m m' : Pairs κ ν} (h : (keys m ++ keys m').Nodup) :
    update m m' = m ++ m' := by
  induction m' generalizing m with
  | nil => exact (List.append_nil m).symm
  | cons e m' ih =>
    have hkeys : keys m ++ keys (e :: m') = keys (m ++ [e]) ++ keys m' := by
      simp [keys]
    have hfresh : e.1 ∉ keys m := fun hmem =>
      (List.nodup_append.mp h).2.2 e.1 hmem e.1 List.mem_cons_self rfl
    have hrest := ih (hkeys ▸ h)
    rw [List.append_cons, ← hrest, ← put_of_notMem hfresh]
    rfl

/-- A value that is written over stays the same only if the same is written. -/
theorem get?_update_eq_iff {m m' : Pairs κ ν} {k : κ} {w : ν} (h : (keys m').Nodup)
    (hget : get? m k = some w) : get? (update m m') k = some w ↔ ∀ v, (k, v) ∈ m' → v = w := by
  rw [get?_update m h, hget]
  constructor
  · intro hsame v hv
    rw [get?_of_mem h hv] at hsame
    exact Option.some.inj hsame
  · intro hall
    cases hk : get? m' k with
    | none => rfl
    | some v =>
      rw [hall v (mem_of_get? hk)]
      rfl

theorem mem_update {m m' : Pairs κ ν} {e : κ × ν} (hm : (keys m).Nodup) (hm' : (keys m').Nodup)
    (h : e ∈ update m m') : e ∈ m ∨ e ∈ m' := by
  have hget := get?_of_mem (nodup_keys_update hm m') h
  rw [get?_update m hm'] at hget
  cases hk : get? m' e.1 with
  | none =>
    rw [hk] at hget
    exact .inl (mem_of_get? hget)
  | some v =>
    rw [hk] at hget
    exact .inr (mem_of_get? (hk.trans hget))

end Pairs
end Data
end Refit

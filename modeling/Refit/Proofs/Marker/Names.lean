/-
The names and the ids of marked blocks.

A name that is read off a text is an identifier, so the only names that could
break a sentinel are recorded ones.  An id is a name and a number, and both can
be read back from it: two ids are the same only if their numbers are.
-/
import Mathlib.Data.Nat.Digits.Lemmas
import Refit.Proofs.Marker.Sheet

namespace Refit
namespace Marker

open Text

/-! ## Names that are read off a text -/

def Identifier (s : Text) : Prop := s ≠ [] ∧ ∀ c ∈ s, isIdentChar c = true

theorem Identifier.plain {s : Text} (h : Identifier s) : Plain s := by
  constructor
  · exact fun hc => absurd (h.2 _ hc) (by decide)
  · exact fun hc => absurd (h.2 _ hc) (by decide)
  · exact fun hc => absurd (h.2 _ hc) (by decide)

theorem identifier_of_identifier? {s name rest : Text} (h : identifier? s = some (name, rest)) :
    Identifier name := by
  obtain ⟨⟨c, cs, rfl, hc, hcs⟩, -⟩ := identifier?_eq_some h
  exact ⟨List.cons_ne_nil _ _, List.forall_mem_cons.mpr ⟨isIdentChar_of_isIdentStart hc, hcs⟩⟩

theorem identifier_of_beforeParenthesis? {p : Char → Bool} {s name rest : Text}
    (h : beforeParenthesis? p s = some (name, rest)) : Identifier name := by
  unfold beforeParenthesis? at h
  split at h
  · exact absurd h.symm (Option.some_ne_none _)
  · next hid =>
    split at h
    · obtain ⟨rfl, -⟩ := Prod.mk.inj (Option.some.inj h)
      exact identifier_of_identifier? hid
    · exact absurd h.symm (Option.some_ne_none _)

theorem identifier_of_afterBlanks? {s name rest : Text}
    (h : afterBlanks? s = some (name, rest)) : Identifier name := by
  unfold afterBlanks? at h
  split at h
  · exact absurd h.symm (Option.some_ne_none _)
  · split at h
    · exact identifier_of_identifier? h
    · exact absurd h.symm (Option.some_ne_none _)

/-- What holds of all that a recogniser reads holds of the first hit. -/
theorem value_of_firstHit? {β : Type} {r : Recogniser β} {P : β → Prop}
    (hr : ∀ before s n v, r before s = some (n, v) → P v) {s : Text} {hit : Hit β}
    (h : firstHit? r s = some hit) : P hit.value := by
  rw [firstHit?] at h
  generalize 0 = pos, none = before at h
  induction s generalizing pos before with
  | nil => exact absurd h.symm (Option.some_ne_none _)
  | cons c s ih =>
      rw [firstHitFrom?] at h
      split at h
      · next n v hv =>
        rw [← Option.some.inj h]
        exact hr _ _ _ _ hv
      · exact ih _ _ h

theorem identifier_of_methodDeclaration {before : Option Char} {s name : Text} {n : Nat}
    (h : methodDeclaration before s = some (n, name)) : Identifier name := by
  unfold methodDeclaration at h
  split at h
  · obtain ⟨⟨found, rest⟩, hfound, heq⟩ := Option.map_eq_some_iff.mp h
    obtain ⟨-, rfl⟩ := Prod.mk.inj heq
    obtain ⟨_, _, hname⟩ := List.exists_of_findSome?_eq_some hfound
    exact identifier_of_beforeParenthesis? hname
  · exact absurd h.symm (Option.some_ne_none _)

theorem identifier_of_call {before : Option Char} {s name : Text} {n : Nat}
    (h : call before s = some (n, name)) : Identifier name := by
  obtain ⟨⟨found, rest⟩, hfound, heq⟩ := Option.map_eq_some_iff.mp h
  obtain ⟨-, rfl⟩ := Prod.mk.inj heq
  exact identifier_of_beforeParenthesis? hfound

theorem identifier_of_typeDeclaration {before : Option Char} {s name : Text} {n : Nat}
    (h : typeDeclaration before s = some (n, name)) : Identifier name := by
  unfold typeDeclaration at h
  split at h
  · obtain ⟨⟨found, rest⟩, hfound, heq⟩ := Option.map_eq_some_iff.mp h
    obtain ⟨-, rfl⟩ := Prod.mk.inj heq
    obtain ⟨_, _, hname⟩ := List.exists_of_findSome?_eq_some hfound
    obtain ⟨_, _, hblanks⟩ := Option.bind_eq_some_iff.mp hname
    exact identifier_of_afterBlanks? hblanks
  · exact absurd h.symm (Option.some_ne_none _)

theorem identifier_of_declaredName? {kind : Kind} {text name : Text}
    (h : declaredName? kind text = some name) : Identifier name := by
  unfold declaredName? at h
  split at h
  · obtain ⟨hit, hhit, rfl⟩ := Option.map_eq_some_iff.mp h
    rcases Option.or_eq_some_iff.mp hhit with hm | ⟨-, hc⟩
    · exact value_of_firstHit? (fun _ _ _ _ => identifier_of_methodDeclaration) hm
    · exact value_of_firstHit? (fun _ _ _ _ => identifier_of_call) hc
  · obtain ⟨hit, hhit, rfl⟩ := Option.map_eq_some_iff.mp h
    exact value_of_firstHit? (fun _ _ _ _ => identifier_of_typeDeclaration) hhit
  · exact absurd h.symm (Option.some_ne_none _)

theorem identifier_of_firstDeclared? {region name : Text}
    (h : firstDeclared? region = some name) : Identifier name := by
  have htype : ∀ t, firstHit? typeDeclaration region = some t → Identifier t.value := fun t =>
    value_of_firstHit? fun _ _ _ _ => identifier_of_typeDeclaration
  have hmethod : ∀ m, firstHit? methodDeclaration region = some m → Identifier m.value := fun m =>
    value_of_firstHit? fun _ _ _ _ => identifier_of_methodDeclaration
  unfold firstDeclared? at h
  split at h
  · next t m ht hm =>
    rw [← Option.some.inj h]
    split
    · exact hmethod m hm
    · exact htype t ht
  · next t ht _ => exact Option.some.inj h ▸ htype t ht
  · next m _ hm => exact Option.some.inj h ▸ hmethod m hm
  · exact absurd h.symm (Option.some_ne_none _)

/-! ## Names of blocks -/

theorem identifier_kind_name (kind : Kind) : Identifier kind.name := by
  cases kind <;> exact ⟨by decide, List.all_eq_true.mp (by decide)⟩

theorem entityName_recorded_or_identifier (b : Block) :
    entityName b ∈ b.name ∨ Identifier (entityName b) := by
  unfold entityName
  split
  · next c cs hname => exact .inl hname
  · cases hd : declaredName? b.kind (b.text.getD []) with
    | none => exact .inr (identifier_kind_name b.kind)
    | some name => exact .inr (identifier_of_declaredName? hd)

theorem entityName_plain {b : Block} (h : ∀ n ∈ b.name, Plain n) : Plain (entityName b) := by
  rcases entityName_recorded_or_identifier b with hname | hid
  · exact h _ hname
  · exact hid.plain

theorem entityName_ne_nil (b : Block) : entityName b ≠ [] := by
  unfold entityName
  split
  · exact List.cons_ne_nil _ _
  · cases hd : declaredName? b.kind (b.text.getD []) with
    | none => exact (identifier_kind_name b.kind).1
    | some name => exact (identifier_of_declaredName? hd).1

/-! ## Ids -/

/-- The id of the block that is marked as the `k`-th from the bottom. -/
def idOf (b : Block) (k : Nat) : Text := entityName b ++ "-" ++ ofNat k

theorem idOf_eq (b : Block) (k : Nat) : idOf b k = entityName b ++ '-' :: ofNat k :=
  List.append_assoc _ _ _

theorem isDigit_of_mem_ofNat {k : Nat} {c : Char} (h : c ∈ ofNat k) : c.isDigit = true :=
  Nat.isDigit_of_mem_toDigits (by decide) (by decide) h

theorem ofNat_plain (k : Nat) : Plain (ofNat k) := by
  constructor
  · exact fun h => absurd (isDigit_of_mem_ofNat h) (by decide)
  · exact fun h => absurd (isDigit_of_mem_ofNat h) (by decide)
  · exact fun h => absurd (isDigit_of_mem_ofNat h) (by decide)

theorem dash_notMem_ofNat (k : Nat) : '-' ∉ ofNat k := fun h =>
  absurd (isDigit_of_mem_ofNat h) (by decide)

theorem ofNat_injective {j k : Nat} (h : ofNat j = ofNat k) : j = k := by
  have hval := congrArg (Nat.ofDigitChars 10 · 0) h
  simpa only [ofNat, Nat.ofDigitChars_ten_toDigits] using hval

theorem idOf_plain {b : Block} (h : ∀ n ∈ b.name, Plain n) (k : Nat) : Plain (idOf b k) := by
  have hdash : Plain "-".toList := by constructor <;> decide
  exact ((entityName_plain h).append hdash).append (ofNat_plain k)

theorem idOf_ne_nil (b : Block) (k : Nat) : idOf b k ≠ [] := by
  rw [idOf_eq]
  exact List.append_ne_nil_of_left_ne_nil (entityName_ne_nil b) _

theorem cutLast?_of_notMem {c : Char} {s : Text} (h : c ∉ s) : cutLast? c s = none := by
  induction s with
  | nil => rfl
  | cons d s ih =>
      rw [List.mem_cons, not_or] at h
      rw [cutLast?, ih h.2]
      exact if_neg (Ne.symm h.1)

theorem cutLast?_append {c : Char} (a : Text) {s : Text} (h : c ∉ s) :
    cutLast? c (a ++ c :: s) = some (a, c :: s) := by
  induction a with
  | nil =>
      rw [List.nil_append, cutLast?, cutLast?_of_notMem h]
      exact if_pos rfl
  | cons d a ih => rw [List.cons_append, cutLast?, ih]

theorem cutLast?_idOf (b : Block) (k : Nat) :
    cutLast? '-' (idOf b k) = some (entityName b, '-' :: ofNat k) := by
  rw [idOf_eq]
  exact cutLast?_append _ (dash_notMem_ofNat k)

theorem eq_of_idOf_eq {b c : Block} {j k : Nat} (h : idOf b j = idOf c k) : j = k := by
  have hcut := congrArg (cutLast? '-') h
  rw [cutLast?_idOf, cutLast?_idOf] at hcut
  have hnumber := (Prod.mk.inj (Option.some.inj hcut)).2
  exact ofNat_injective (List.cons.inj hnumber).2

/-! ## Names of pairs -/

theorem eq_append_of_cutLast? {c : Char} {s a b : Text} (h : cutLast? c s = some (a, b)) :
    s = a ++ b := by
  induction s generalizing a with
  | nil => exact absurd h.symm (Option.some_ne_none _)
  | cons d s ih =>
      rw [cutLast?] at h
      split at h
      · next a' b' hcut =>
        obtain ⟨rfl, rfl⟩ := Prod.mk.inj (Option.some.inj h)
        rw [List.cons_append, ← ih hcut]
      · split at h
        · obtain ⟨rfl, rfl⟩ := Prod.mk.inj (Option.some.inj h)
          rfl
        · exact absurd h.symm (Option.some_ne_none _)

theorem Plain.of_append_left {a b : Text} (h : Plain (a ++ b)) : Plain a := by
  constructor
  · exact fun hc => h.newline (List.mem_append_left b hc)
  · exact fun hc => h.less (List.mem_append_left b hc)
  · exact fun hc => h.greater (List.mem_append_left b hc)

theorem entityPart_plain {id : Text} (h : Plain id) : Plain (entityPart id) := by
  unfold entityPart
  split
  · next hcut => exact (eq_append_of_cutLast? hcut ▸ h).of_append_left
  · exact h

theorem pairName_plain {p : Pair} (h : Plain p.id) : Plain (pairName p) := by
  have hdeclared : ∀ name, firstDeclared? p.region = some name → Plain name := fun _ hd =>
    (identifier_of_firstDeclared? hd).plain
  obtain ⟨id, region⟩ := p
  cases id with
  | nil =>
      cases hd : firstDeclared? region with
      | none => simpa [pairName, enclosedName, hd] using h
      | some name => simpa [pairName, enclosedName, hd] using hdeclared name hd
  | cons c cs =>
      rw [pairName, enclosedName]
      simp only [Option.any_some]
      split
      · exact entityPart_plain h
      · cases hd : firstDeclared? region with
        | none => exact entityPart_plain h
        | some name => exact hdeclared name hd

end Marker
end Refit

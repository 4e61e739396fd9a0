/-
The writer produces texts of the grammar, in line breaks and printable ASCII only.

A written text is a derivation of the grammar for the value it was written from, in
either layout and at every depth.  With `Document.unique` it stands for no other value,
so that nothing is lost between a value and its text.  This is for values made of texts,
words, numbers, lists and objects.  A number with a point is among them if its digits are
read as it is; moments in time are not, since they are written as texts.
-/
import Refit.Proofs.Data.Json.Reading

namespace Refit
namespace Data
namespace Json

open scoped Text

/-! ## Characters -/

theorem hexDigit_digitChar {d : Nat} (hd : d < 16) : HexDigit (Nat.digitChar d) d := by
  by_cases hten : d < 10
  · exact .decimal hten (Nat.toNat_digitChar_of_lt_ten hten)
  · obtain ⟨n, rfl⟩ : ∃ n, d = 10 + n := ⟨d - 10, by omega⟩
    have hcode : ∀ n < 6, (Nat.digitChar (10 + n)).toNat = 'a'.toNat + n := by decide
    exact .lower (by omega) (hcode n (by omega))

theorem unitText_hex4 {n : Nat} (hn : n < 0x10000) : UnitText (hex4 n) n := by
  have hdigit : ∀ m, HexDigit (Nat.digitChar (m % 16)) (m % 16) := fun m =>
    hexDigit_digitChar (Nat.mod_lt m (by omega))
  have hsum : 4096 * (n / 4096 % 16) + 256 * (n / 256 % 16) + 16 * (n / 16 % 16) + n % 16 = n := by
    omega
  have h : UnitText (hex4 n) _ := .mk (hdigit (n / 4096)) (hdigit (n / 256)) (hdigit (n / 16))
    (hdigit n)
  rwa [hsum] at h

/-- A character that needs its units is written with one of them, or with two if it is
beyond the first plane. -/
theorem charText_escapeUnit {c : Char} (hc : c.toNat < 0x10000) : CharText (escapeUnit c.toNat) c :=
  .unit (unitText_hex4 hc)

theorem charText_escapeUnits {c : Char} (hc : 0x10000 ≤ c.toNat) :
    CharText (escapeUnit (0xD800 + (c.toNat - 0x10000) / 1024) ++
      escapeUnit (0xDC00 + (c.toNat - 0x10000) % 1024)) c := by
  have hvalid : c.toNat < 0xD800 ∨ 0xDFFF < c.toNat ∧ c.toNat < 0x110000 := c.valid
  have hhigh : (c.toNat - 0x10000) / 1024 < 1024 := by omega
  have hlow : (c.toNat - 0x10000) % 1024 < 1024 := by omega
  exact .pair (unitText_hex4 (by omega)) (unitText_hex4 (by omega)) hhigh hlow (by omega)

theorem escapeChar_cases (c : Char) :
    (∃ letter, (letter, c) ∈ shortEscapes ∧ escapeChar c = ['\\', letter]) ∨
      ((0x20 ≤ c.toNat ∧ c.toNat ≤ 0x7E) ∧ c ≠ '"' ∧ c ≠ '\\' ∧ escapeChar c = [c]) ∨
      (c.toNat < 0x10000 ∧ escapeChar c = escapeUnit c.toNat) ∨
      (0x10000 ≤ c.toNat ∧ escapeChar c = escapeUnit (0xD800 + (c.toNat - 0x10000) / 1024) ++
        escapeUnit (0xDC00 + (c.toNat - 0x10000) % 1024)) := by
  by_cases hshort : c ∈ shortEscapes.map Prod.snd ∧ c ≠ '/'
  · have hletters : ∀ d ∈ shortEscapes.map Prod.snd, d ≠ '/' →
        ∃ e ∈ shortEscapes, e.2 = d ∧ escapeChar d = ['\\', e.1] := by decide
    obtain ⟨e, he, rfl, hc⟩ := hletters c hshort.1 hshort.2
    exact .inl ⟨e.1, he, hc⟩
  · have hne : ∀ d ∈ shortEscapes.map Prod.snd, d ≠ '/' → c ≠ d := by
      rintro d hd hslash rfl
      exact hshort ⟨hd, hslash⟩
    have hquote := hne '"' (by decide) (by decide)
    have hback := hne '\\' (by decide) (by decide)
    have hlong : escapeChar c =
        if 0x20 ≤ c.toNat ∧ c.toNat ≤ 0x7E then [c]
        else if c.toNat < 0x10000 then escapeUnit c.toNat
        else escapeUnit (0xD800 + (c.toNat - 0x10000) / 1024) ++
          escapeUnit (0xDC00 + (c.toNat - 0x10000) % 1024) := by
      rw [escapeChar, if_neg hquote, if_neg hback, if_neg (hne '\n' (by decide) (by decide)),
        if_neg (hne '\r' (by decide) (by decide)), if_neg (hne '\t' (by decide) (by decide)),
        if_neg (hne '\x08' (by decide) (by decide)), if_neg (hne '\x0c' (by decide) (by decide))]
    by_cases hplain : 0x20 ≤ c.toNat ∧ c.toNat ≤ 0x7E
    · exact .inr (.inl ⟨hplain, hquote, hback, by rw [hlong, if_pos hplain]⟩)
    · rw [if_neg hplain] at hlong
      by_cases hunit : c.toNat < 0x10000
      · exact .inr (.inr (.inl ⟨hunit, by rw [hlong, if_pos hunit]⟩))
      · exact .inr (.inr (.inr ⟨by omega, by rw [hlong, if_neg hunit]⟩))

theorem charText_escapeChar (c : Char) : CharText (escapeChar c) c := by
  rcases escapeChar_cases c with ⟨letter, hshort, hc⟩ | ⟨hplain, hquote, hback, hc⟩ |
    ⟨hunit, hc⟩ | ⟨hpair, hc⟩
  · rw [hc]
    exact .short hshort
  · rw [hc]
    exact .plain hplain.1 hquote hback
  · rw [hc]
    exact charText_escapeUnit hunit
  · rw [hc]
    exact charText_escapeUnits hpair

theorem charsText_flatMap (s : Text) : CharsText (s.flatMap escapeChar) s := by
  induction s with
  | nil => exact .nil
  | cons c s ih =>
      rw [List.flatMap_cons]
      exact .cons (charText_escapeChar c) ih

/-! ## Numbers -/

theorem digits_ofNat (n : Nat) : Digits (Text.ofNat n) := by
  refine ⟨Nat.toDigits_ne_nil, fun c hc => ?_⟩
  have hdigit := Nat.isDigit_of_mem_toDigits (by decide) (by decide) hc
  rw [Char.isDigit, Bool.and_eq_true, decide_eq_true_eq, decide_eq_true_eq] at hdigit
  exact ⟨UInt32.le_iff_toNat_le.mp hdigit.1, UInt32.le_iff_toNat_le.mp hdigit.2⟩

theorem ofNat_of_head_zero {n : Nat} (h : (Text.ofNat n).head? = some '0') :
    Text.ofNat n = ['0'] := by
  -- the first digit is that of the number without its last one
  induction n using Nat.strongRecOn with
  | ind n ih =>
      by_cases hn : n < 10
      · have hdigit : Text.ofNat n = [n.digitChar] := Nat.toDigits_of_lt_base hn
        rw [hdigit] at h ⊢
        rw [Option.some.inj h]
      · have hdigits : Text.ofNat n = Text.ofNat (n / 10) ++ [(n % 10).digitChar] :=
          Nat.toDigits_of_base_le (by decide) (by omega)
        have hhead : (Text.ofNat (n / 10)).head? = some '0' := by
          obtain ⟨c, cs, hcs⟩ := List.exists_cons_of_ne_nil (digits_ofNat (n / 10)).1
          rw [hdigits, hcs] at h
          rw [hcs]
          exact h
        have hzero := congrArg (Nat.ofDigitChars 10 · 0) (ih (n / 10) (by omega) hhead)
        simp only [Text.ofNat, Nat.ofDigitChars_ten_toDigits] at hzero
        have hvalue : Nat.ofDigitChars 10 ['0'] 0 = 0 := by decide
        omega

theorem digitValue?_of_ascii {c : Char} (h : '0'.toNat ≤ c.toNat ∧ c.toNat ≤ '9'.toNat) :
    Text.digitValue? c = some (c.toNat - '0'.toNat) := by
  show Text.digitFrom? ('0'.toNat :: Text.digitZeros.tail) c.toNat = _
  have hlast : c.toNat ≤ '0'.toNat + 9 := h.2
  rw [Text.digitFrom?, if_neg (Nat.not_lt.mpr h.1), if_pos hlast]

theorem digitsValue_ofNat (n : Nat) : Text.digitsValue (Text.ofNat n) = n := by
  have hfold : ∀ (s : Text) (init : Nat), (∀ c ∈ s, '0'.toNat ≤ c.toNat ∧ c.toNat ≤ '9'.toNat) →
      s.foldl (fun n c => 10 * n + (Text.digitValue? c).getD 0) init =
        Nat.ofDigitChars 10 s init := by
    intro s
    induction s with
    | nil => exact fun init _ => Nat.ofDigitChars_nil.symm
    | cons c s ih =>
        intro init hs
        obtain ⟨hc, hs⟩ := List.forall_mem_cons.mp hs
        rw [List.foldl_cons, ih _ hs, digitValue?_of_ascii hc, Nat.ofDigitChars_cons]
        rfl
  rw [Text.digitsValue, hfold _ _ (digits_ofNat n).2]
  exact Nat.ofDigitChars_ten_toDigits

theorem numberText_ofInt (n : Int) : NumberText (Text.ofInt n) (.int n) := by
  have hnat : ∀ (negative : Bool) (k : Nat),
      NumberText ((if negative then ['-'] else []) ++ Text.ofNat k)
        (.int (if negative then -(k : Int) else k)) := by
    intro negative k
    have hvalue : numberValue negative (Text.ofNat k) [] none =
        .int (if negative then -(k : Int) else k) := by
      simp [numberValue, digitsValue_ofNat]
    have h := NumberText.mk negative (digits_ofNat k) ofNat_of_head_zero .none .none
    rwa [List.append_nil, List.append_nil, hvalue] at h
  cases n with
  | ofNat k => exact hnat false k
  | negSucc k => exact hnat true (k + 1)

/-! ## Layout -/

theorem Layout.spaces_edge (l : Layout) (depth : Nat) : Spaces (l.edge depth) := by
  intro c hc
  cases l with
  | line => simp [Layout.edge] at hc
  | block step =>
      simp only [Layout.edge, List.mem_cons, List.mem_replicate] at hc
      obtain rfl | ⟨-, rfl⟩ := hc <;> decide

theorem Layout.spaces_gap (l : Layout) (depth : Nat) : Spaces (l.gap depth) := by
  cases l with
  | line => simp [Layout.gap, Spaces]
  | block step => exact spaces_edge (.block step) depth

/-! ## Values -/

/-- Values without moments in time, whose keys are texts and whose numbers are read as they are. -/
inductive Plain : Value → Prop
  | null : Plain .null
  | bool (b : Bool) : Plain (.bool b)
  | int (n : Int) : Plain (.int n)
  | float {x : Number.Binary64} (reads : NumberText (Number.Decimal.text numberNames x) (.float x)) :
      Plain (.float x)
  | text (s : Text) : Plain (.text s)
  | list {vs : List Value} (items : ∀ v ∈ vs, Plain v) : Plain (.list vs)
  | object {fields : List (Text × Value)} (values : ∀ f ∈ fields, Plain f.2) :
      Plain (.object fields)

section Parts

variable {l : Layout} {depth : Nat} {a e : Text} {v : Value}

theorem denotes_items {vs : List Value} (hv : Denotes (write l depth v) (.value v))
    (hvs : ∀ w ∈ vs, Denotes (write l depth w) (.value w)) (ha : Spaces a) (he : Spaces e) :
    Denotes (a ++ (write l depth v ++ (writeItems l depth vs ++ e))) (.items (v :: vs)) := by
  induction vs generalizing a v with
  | nil => exact .item ha hv he
  | cons w vs ih =>
      obtain ⟨hw, hvs⟩ := List.forall_mem_cons.mp hvs
      have hrest := ih hw hvs (l.spaces_gap depth)
      simpa [writeItems] using Denotes.items ha hv Spaces.nil hrest

theorem denotes_entries {k : Text} {fields : List (Text × Value)}
    (hv : Denotes (write l depth v) (.value v))
    (hfields : ∀ f ∈ fields, Denotes (write l depth f.2) (.value f.2)) (ha : Spaces a)
    (he : Spaces e) :
    Denotes (a ++ (quote k ++ (':' :: ' ' :: (write l depth v ++
        (writeEntries l depth (fields.map fun f => (.text f.1, f.2)) ++ e)))))
      (.entries ((.text k, v) :: fields.map fun f => (.text f.1, f.2))) := by
  have hblank : Spaces [' '] := by simp [Spaces]
  induction fields generalizing a k v with
  | nil =>
      simpa [quote, writeEntries] using
        Denotes.entry ha (charsText_flatMap k) Spaces.nil hblank hv he
  | cons f fields ih =>
      obtain ⟨hf, hfields⟩ := List.forall_mem_cons.mp hfields
      have hrest := ih hf hfields (l.spaces_gap depth) (k := f.1)
      simpa [quote, writeEntries, key] using
        Denotes.entries ha (charsText_flatMap k) Spaces.nil hblank hv Spaces.nil hrest

end Parts

/-- A plain value is written as a text of the grammar that denotes it. -/
theorem denotes_write (l : Layout) {v : Value} (h : Plain v) (depth : Nat) :
    Denotes (write l depth v) (.value v) := by
  induction h generalizing depth with
  | null => exact .nullWord
  | bool b =>
      cases b with
      | true => exact .trueWord
      | false => exact .falseWord
  | int n => exact .number (numberText_ofInt n)
  | float reads => exact .number reads
  | text s => exact .text (charsText_flatMap s)
  | @list vs items ih =>
      cases vs with
      | nil => exact .noItems Spaces.nil
      | cons v vs =>
          obtain ⟨hv, hvs⟩ := List.forall_mem_cons.mp ih
          have hitems := denotes_items (hv (depth + 1)) (fun w hw => hvs w hw (depth + 1))
            (l.spaces_edge (depth + 1)) (l.spaces_edge depth)
          simpa [write] using Denotes.list hitems
  | @object fields values ih =>
      cases fields with
      | nil => exact .noEntries Spaces.nil
      | cons f fields =>
          obtain ⟨hf, hfields⟩ := List.forall_mem_cons.mp ih
          have hentries := denotes_entries (k := f.1) (hf (depth + 1))
            (fun g hg => hfields g hg (depth + 1)) (l.spaces_edge (depth + 1)) (l.spaces_edge depth)
          simpa [write, Value.object, key] using Denotes.map hentries

/-- The text of a plain value stands for that value and for no other. -/
theorem document_write_iff (l : Layout) {v : Value} (h : Plain v) {w : Value} :
    Document (write l 0 v) w ↔ w = v := by
  have hdocument : Document (write l 0 v) v := by
    simpa using Document.mk Spaces.nil (denotes_write l h 0) Spaces.nil
  constructor
  · intro hw
    exact hw.unique hdocument
  · rintro rfl
    exact hdocument

/-! ## Printable texts -/

/-- Made of line breaks and the printable characters of ASCII. -/
def Printable (s : Text) : Prop := ∀ c ∈ s, c = '\n' ∨ 0x20 ≤ c.toNat ∧ c.toNat ≤ 0x7E

instance (s : Text) : Decidable (Printable s) := inferInstanceAs (Decidable (∀ c ∈ s, _))

namespace Printable

theorem nil : Printable [] := by decide

theorem append {s t : Text} (hs : Printable s) (ht : Printable t) : Printable (s ++ t) :=
  List.forall_mem_append.mpr ⟨hs, ht⟩

theorem hex4 (n : Nat) : Printable (hex4 n) := by
  have hdigit : ∀ d < 16, 0x20 ≤ (Nat.digitChar d).toNat ∧ (Nat.digitChar d).toNat ≤ 0x7E := by
    decide
  intro c hc
  simp only [Json.hex4, List.mem_cons, List.not_mem_nil, or_false] at hc
  obtain rfl | rfl | rfl | rfl := hc <;> exact .inr (hdigit _ (Nat.mod_lt _ (by omega)))

theorem escapeUnit (n : Nat) : Printable (escapeUnit n) :=
  append (s := ['\\', 'u']) (by decide) (hex4 n)

theorem escapeChar (c : Char) : Printable (escapeChar c) := by
  rcases escapeChar_cases c with ⟨letter, hshort, hc⟩ | ⟨hplain, -, -, hc⟩ | ⟨-, hc⟩ | ⟨-, hc⟩
  · have hletters : ∀ e ∈ shortEscapes, Printable ['\\', e.1] := by decide
    rw [hc]
    exact hletters _ hshort
  · rw [hc]
    exact List.forall_mem_singleton.mpr (.inr hplain)
  · rw [hc]
    exact escapeUnit _
  · rw [hc]
    exact (escapeUnit _).append (escapeUnit _)

theorem quote (s : Text) : Printable (quote s) := by
  have hchars : Printable (s.flatMap Json.escapeChar) := by
    intro c hc
    obtain ⟨d, -, hc⟩ := List.mem_flatMap.mp hc
    exact escapeChar d c hc
  exact (append (s := ['"']) (by decide) hchars).append (by decide)

theorem digits {s : Text} (h : Digits s) : Printable s := by
  intro c hc
  obtain ⟨hlow, hhigh⟩ := h.2 c hc
  exact .inr ⟨Nat.le_trans (by decide) hlow, Nat.le_trans hhigh (by decide)⟩

theorem number {s : Text} {v : Value} (h : NumberText s v) : Printable s := by
  obtain ⟨negative, whole, -, fraction, exponent⟩ := h
  refine append ?_ (append (digits whole) (append ?_ ?_))
  · cases negative <;> decide
  · cases fraction with
    | none => exact nil
    | some places => exact append (s := ['.']) (by decide) (digits places)
  · cases exponent with
    | none => exact nil
    | @some e sign s down mark signed power =>
        have hmark : Printable [e] := by
          obtain rfl | rfl := mark <;> decide
        have hsign : Printable sign := by
          cases signed <;> decide
        exact hmark.append (hsign.append (digits power))

theorem edge (l : Layout) (depth : Nat) : Printable (l.edge depth) := by
  cases l with
  | line => exact nil
  | block step =>
      refine append (s := ['\n']) (by decide) ?_
      intro c hc
      rw [List.eq_of_mem_replicate hc]
      decide

theorem gap (l : Layout) (depth : Nat) : Printable (l.gap depth) := by
  cases l with
  | line =>
      show Printable [' ']
      decide
  | block step => exact edge (.block step) depth

theorem writeItems {l : Layout} {depth : Nat} {vs : List Value}
    (h : ∀ v ∈ vs, Printable (write l depth v)) : Printable (writeItems l depth vs) := by
  induction vs with
  | nil => exact nil
  | cons v vs ih =>
      obtain ⟨hv, hvs⟩ := List.forall_mem_cons.mp h
      exact ((append (s := [',']) (by decide) (gap l depth)).append hv).append (ih hvs)

theorem writeEntries {l : Layout} {depth : Nat} {fields : List (Text × Value)}
    (h : ∀ f ∈ fields, Printable (write l depth f.2)) :
    Printable (writeEntries l depth (fields.map fun f => (.text f.1, f.2))) := by
  induction fields with
  | nil => exact nil
  | cons f fields ih =>
      obtain ⟨hf, hfields⟩ := List.forall_mem_cons.mp h
      have hkey : Printable ([','] ++ l.gap depth ++ Json.quote f.1 ++ [':', ' ']) :=
        ((append (s := [',']) (by decide) (gap l depth)).append (quote f.1)).append (by decide)
      exact (hkey.append hf).append (ih hfields)

theorem write (l : Layout) {v : Value} (h : Plain v) (depth : Nat) : Printable (write l depth v) := by
  induction h generalizing depth with
  | null =>
      show Printable "null".toList
      decide
  | bool b =>
      cases b with
      | true =>
          show Printable "true".toList
          decide
      | false =>
          show Printable "false".toList
          decide
  | int n => exact number (numberText_ofInt n)
  | float reads => exact number reads
  | text s => exact quote s
  | @list vs items ih =>
      cases vs with
      | nil =>
          show Printable ['[', ']']
          decide
      | cons v vs =>
          obtain ⟨hv, hvs⟩ := List.forall_mem_cons.mp ih
          have hfirst := (append (s := ['[']) (by decide) (edge l (depth + 1))).append
            (hv (depth + 1))
          have hitems := hfirst.append (writeItems fun w hw => hvs w hw (depth + 1))
          exact (hitems.append (edge l depth)).append (by decide)
  | @object fields values ih =>
      cases fields with
      | nil =>
          show Printable ['\x7b', '\x7d']
          decide
      | cons f fields =>
          obtain ⟨hf, hfields⟩ := List.forall_mem_cons.mp ih
          have hkey := ((append (s := ['\x7b']) (by decide) (edge l (depth + 1))).append
            (quote f.1)).append (t := [':', ' ']) (by decide)
          have hentries := (hkey.append (hf (depth + 1))).append
            (writeEntries fun g hg => hfields g hg (depth + 1))
          exact (hentries.append (edge l depth)).append (by decide)

end Printable

end Json
end Data
end Refit

/-
UTF-8 reads back what it wrote, and so does every stretch of it between two characters.

The first byte of a character tells how many follow and in which bounds the next one lies; the bounds
exclude what is no shortest form and what is no character, and the encoding of a character keeps to
them (`lead?_two`, `lead?_three`, `lead?_four`).  Each byte that follows adds six bits.
-/
import Mathlib.Tactic.SplitIfs
import Refit.Text.Utf8

namespace Refit
namespace Text
namespace Utf8

/-! ## One character -/

theorem toNat_ofNat_of_lt {n : Nat} (h : n < 256) : (UInt8.ofNat n).toNat = n := by
  rw [UInt8.toNat_ofNat']
  exact Nat.mod_eq_of_lt h

/-- A byte that goes on with a character, within its bounds, adds its six bits. -/
theorem goOn_cons {taken bits more low high digit : Nat} {rest : List UInt8} (hdigit : digit < 64)
    (hlow : low ≤ 0x80 + digit) (hhigh : 0x80 + digit ≤ high) :
    goOn taken bits (more + 1) low high (.ofNat (0x80 + digit) :: rest) =
      goOn (taken + 1) (64 * bits + digit) more 0x80 0xBF rest := by
  have hbyte : (UInt8.ofNat (0x80 + digit)).toNat = 0x80 + digit := toNat_ofNat_of_lt (by omega)
  rw [goOn, hbyte, if_pos ⟨hlow, hhigh⟩, Nat.add_sub_cancel_left]

theorem lead?_two {n : Nat} (h : 0x80 ≤ n) (h' : n < 0x800) :
    lead? (0xC0 + n / 64) = some ⟨1, 0x80, 0xBF, n / 64⟩ := by
  have hlow : 2 ≤ n / 64 := by omega
  have hhigh : n / 64 < 32 := by omega
  grind [lead?]

theorem lead?_three {n : Nat} (h : 0x800 ≤ n) (h' : n < 0x10000)
    (hscalar : n < 0xD800 ∨ 0xDFFF < n) :
    ∃ low high, lead? (0xE0 + n / 4096) = some ⟨2, low, high, n / 4096⟩ ∧
      low ≤ 0x80 + n / 64 % 64 ∧ 0x80 + n / 64 % 64 ≤ high := by
  obtain hlead | hlead | ⟨hlow, hsurrogate, hhigh⟩ :
      n / 4096 = 0 ∨ n / 4096 = 0xD ∨ 0 < n / 4096 ∧ n / 4096 ≠ 0xD ∧ n / 4096 < 16 := by omega
  · rw [hlead]
    exact ⟨0xA0, 0xBF, rfl, by omega, by omega⟩
  · rw [hlead]
    exact ⟨0x80, 0x9F, rfl, by omega, by omega⟩
  · exact ⟨0x80, 0xBF, by grind [lead?], by omega, by omega⟩

theorem lead?_four {n : Nat} (h : 0x10000 ≤ n) (h' : n < 0x110000) :
    ∃ low high, lead? (0xF0 + n / 262144) = some ⟨3, low, high, n / 262144⟩ ∧
      low ≤ 0x80 + n / 4096 % 64 ∧ 0x80 + n / 4096 % 64 ≤ high := by
  obtain hlead | hlead | ⟨hlow, hhigh⟩ :
      n / 262144 = 0 ∨ n / 262144 = 4 ∨ 0 < n / 262144 ∧ n / 262144 < 4 := by omega
  · rw [hlead]
    exact ⟨0x90, 0xBF, rfl, by omega, by omega⟩
  · rw [hlead]
    exact ⟨0x80, 0x8F, rfl, by omega, by omega⟩
  · exact ⟨0x80, 0xBF, by grind [lead?], by omega, by omega⟩

theorem scalar_toNat (c : Char) : c.toNat < 0xD800 ∨ 0xDFFF < c.toNat ∧ c.toNat < 0x110000 :=
  c.valid

theorem decodeChar_of_goOn {b : UInt8} {more low high bits : Nat} {bytes rest : List UInt8}
    {c : Char} (hlead : lead? b.toNat = some ⟨more, low, high, bits⟩)
    (hgoOn : goOn 1 bits more low high bytes = .ok (c.toNat, rest)) :
    decodeChar b bytes = .ok (c, rest) := by
  simp only [decodeChar, hlead, hgoOn, bind, Except.bind, pure, Except.pure, Char.ofNat_toNat]

/-- A character reads back from its bytes, whatever comes after them. -/
theorem decodeChar_encodeChar (c : Char) (rest : List UInt8) :
    ∃ b bytes, encodeChar c = b :: bytes ∧ decodeChar b (bytes ++ rest) = .ok (c, rest) := by
  have hscalar := scalar_toNat c
  dsimp only [encodeChar]
  split_ifs with hone htwo hthree
  · have hlead : lead? c.toNat = some ⟨0, 0x80, 0xBF, c.toNat⟩ := by rw [lead?, if_pos hone]
    refine ⟨_, _, rfl, decodeChar_of_goOn (by rwa [toNat_ofNat_of_lt (by omega)]) ?_⟩
    rw [goOn, List.nil_append]
  · have hlead := lead?_two (n := c.toNat) (by omega) htwo
    refine ⟨_, _, rfl, decodeChar_of_goOn (by rwa [toNat_ofNat_of_lt (by omega)]) ?_⟩
    rw [List.singleton_append, goOn_cons (by omega) (by omega) (by omega), goOn]
    congr 2
    omega
  · obtain ⟨low, high, hlead, hlow, hhigh⟩ := lead?_three (n := c.toNat) (by omega) hthree (by omega)
    refine ⟨_, _, rfl, decodeChar_of_goOn (by rwa [toNat_ofNat_of_lt (by omega)]) ?_⟩
    simp only [List.cons_append, List.nil_append]
    rw [goOn_cons (by omega) hlow hhigh, goOn_cons (by omega) (by omega) (by omega), goOn]
    congr 2
    omega
  · obtain ⟨low, high, hlead, hlow, hhigh⟩ := lead?_four (n := c.toNat) (by omega) (by omega)
    refine ⟨_, _, rfl, decodeChar_of_goOn (by rwa [toNat_ofNat_of_lt (by omega)]) ?_⟩
    simp only [List.cons_append, List.nil_append]
    rw [goOn_cons (by omega) hlow hhigh, goOn_cons (by omega) (by omega) (by omega),
      goOn_cons (by omega) (by omega) (by omega), goOn]
    congr 2
    omega

/-! ## Texts -/

theorem encode_append (s t : Text) : encode (s ++ t) = encode s ++ encode t :=
  List.flatMap_append

theorem encode_cons (c : Char) (s : Text) : encode (c :: s) = encodeChar c ++ encode s :=
  List.flatMap_cons

theorem encode_ne_nil (c : Char) (s : Text) : encode (c :: s) ≠ [] := by
  obtain ⟨b, bytes, hbytes, -⟩ := decodeChar_encodeChar c []
  simp [encode_cons, hbytes]

theorem decodeReplacingUpTo_encode (s : Text) (fuel : Nat) (h : (encode s).length ≤ fuel) :
    decodeReplacingUpTo fuel (encode s) = s := by
  induction s generalizing fuel with
  | nil => cases fuel <;> rfl
  | cons c s ih =>
      obtain ⟨b, bytes, hbytes, hdecode⟩ := decodeChar_encodeChar c (encode s)
      rw [encode_cons, hbytes, List.cons_append] at h ⊢
      cases fuel with
      | zero => simp at h
      | succ fuel =>
          have hfuel : (encode s).length ≤ fuel := by
            simp only [List.length_cons, List.length_append] at h
            omega
          simp only [decodeReplacingUpTo, hdecode, ih fuel hfuel]

theorem decodeReplacing_encode (s : Text) : decodeReplacing (encode s) = s :=
  decodeReplacingUpTo_encode s _ (Nat.le_refl _)

/-! ## Stretches of a text -/

/-- A position in bytes that is between two characters, or at an end. -/
def Boundary (s : Text) (position : Nat) : Prop :=
  ∃ before after, s = before ++ after ∧ (encode before).length = position

theorem boundary_iff {s : Text} {position : Nat} :
    Boundary s position ↔
      ∃ n ∈ List.range (s.length + 1), (encode (s.take n)).length = position := by
  constructor
  · rintro ⟨before, after, rfl, rfl⟩
    refine ⟨before.length, ?_, by rw [List.take_left]⟩
    rw [List.mem_range, List.length_append]
    omega
  · rintro ⟨n, -, h⟩
    exact ⟨s.take n, s.drop n, (List.take_append_drop n s).symm, h⟩

instance (s : Text) (position : Nat) : Decidable (Boundary s position) :=
  decidable_of_iff' _ boundary_iff

/-- What stands in a text from one position in bytes up to another. -/
def Between (source : Text) (start stop : Nat) (s : Text) : Prop :=
  ∃ before after, source = before ++ s ++ after ∧
    (encode before).length = start ∧ (encode (before ++ s)).length = stop

theorem Between.decodeReplacing_slice {source s : Text} {start stop : Nat}
    (h : Between source start stop s) :
    decodeReplacing (slice (encode source) start stop) = s := by
  obtain ⟨before, after, rfl, rfl, rfl⟩ := h
  have hslice : slice (encode (before ++ s ++ after)) (encode before).length
      (encode (before ++ s)).length = encode s := by
    simp only [slice, encode_append, List.append_assoc, List.length_append, List.drop_left,
      Nat.add_sub_cancel_left, List.take_left]
  rw [hslice, decodeReplacing_encode]

theorem exists_between {source : Text} {start stop : Nat} (hstart : Boundary source start)
    (hstop : Boundary source stop) (h : start ≤ stop) : ∃ s, Between source start stop s := by
  obtain ⟨before, after, rfl, rfl⟩ := hstart
  obtain ⟨before', after', heq, rfl⟩ := hstop
  obtain ⟨s, rfl, rfl⟩ | ⟨s, rfl, rfl⟩ := List.append_eq_append_iff.mp heq
  · exact ⟨s, before, after', by simp, rfl, rfl⟩
  · -- The other way round nothing stands between, since every character takes a byte.
    cases s with
    | nil => exact ⟨[], before', after, by simp, by simp, by simp⟩
    | cons c s =>
        have hpos := List.length_pos_iff.mpr (encode_ne_nil c s)
        rw [encode_append, List.length_append] at h
        omega

theorem slice_congr {bytes bytes' : List UInt8} {start stop : Nat}
    (h : ∀ i, start ≤ i → i < stop → bytes[i]? = bytes'[i]?) :
    slice bytes start stop = slice bytes' start stop := by
  refine List.ext_getElem? fun i => ?_
  rw [slice, slice, List.getElem?_take, List.getElem?_take]
  split
  · rw [List.getElem?_drop, List.getElem?_drop, h _ (by omega) (by omega)]
  · rfl

end Utf8
end Text
end Refit

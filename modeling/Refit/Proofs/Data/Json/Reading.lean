/-
The reader takes every JSON text for the value that the grammar gives it.
-/
import Refit.Proofs.Data.Json.Grammar
import Refit.Proofs.Text.Breaks

namespace Refit
namespace Data
namespace Json

open scoped Text

/-! ## Quoted texts -/

theorem hexValue?_of_hexDigit {c : Char} {n : Nat} (h : HexDigit c n) : hexValue? c = some n := by
  cases h with
  | decimal range code =>
      have hcode : c.toNat = 48 + n := code
      simp only [hexValue?, hcode]
      rw [if_pos (by omega)]
      congr 1
      omega
  | @lower n range code =>
      have hcode : c.toNat = 97 + n := code
      simp only [hexValue?, hcode]
      rw [if_neg (by omega), if_pos (by omega)]
      congr 1
      omega
  | @upper n range code =>
      have hcode : c.toNat = 65 + n := code
      simp only [hexValue?, hcode]
      rw [if_neg (by omega), if_neg (by omega), if_pos (by omega)]
      congr 1
      omega

theorem readUnit_append {u : Text} {n : Nat} (h : UnitText u n) (rest : Text) :
    readUnit (u ++ rest) = some (n, rest) := by
  cases h with
  | mk first second third fourth =>
      simp [readUnit, hexValue?_of_hexDigit first, hexValue?_of_hexDigit second,
        hexValue?_of_hexDigit third, hexValue?_of_hexDigit fourth]

theorem scalarChar?_toNat (c : Char) : scalarChar? c.toNat = some c := by
  have hvalid : c.toNat.isValidChar := c.valid
  have hchar := Char.ofNat_toNat c
  rw [Char.ofNat, dif_pos hvalid] at hchar
  rw [scalarChar?, dif_pos hvalid, hchar]

theorem readEscapedUnit_toNat (c : Char) (rest : Text) :
    readEscapedUnit c.toNat rest = some (c, rest) := by
  have hvalid : c.toNat < 0xD800 ∨ 0xDFFF < c.toNat ∧ c.toNat < 0x110000 := c.valid
  unfold readEscapedUnit
  rw [if_neg (by omega), scalarChar?_toNat]
  rfl

/-- One written character is read, whatever follows it. -/
theorem readChar_append {s : Text} {c : Char} (h : CharText s c) (rest : Text) :
    readChar (s ++ rest) = some (c, rest) := by
  cases h with
  | plain printable unquoted unescaped =>
      have hlow : ¬ c.toNat < 0x20 := by omega
      show readChar (c :: rest) = _
      unfold readChar
      split <;> simp_all
  | short escape =>
      simp only [shortEscapes, List.mem_cons, List.not_mem_nil, or_false, Prod.mk.injEq] at escape
      rcases escape with ⟨rfl, rfl⟩ | ⟨rfl, rfl⟩ | ⟨rfl, rfl⟩ | ⟨rfl, rfl⟩ | ⟨rfl, rfl⟩ |
        ⟨rfl, rfl⟩ | ⟨rfl, rfl⟩ | ⟨rfl, rfl⟩ <;> rfl
  | unit unit =>
      simp [readChar, readUnit_append unit, readEscapedUnit_toNat]
  | @pair u v high low _ first second high_lt low_lt code =>
      have hhigh : 0xD800 ≤ 0xD800 + high ∧ 0xD800 + high < 0xDC00 := by omega
      have hlow : 0xDC00 ≤ 0xDC00 + low ∧ 0xDC00 + low < 0xE000 := by omega
      have hcode : 0x10000 + 1024 * (0xD800 + high - 0xD800) + (0xDC00 + low - 0xDC00) =
          c.toNat := by omega
      simp only [List.cons_append, List.append_assoc, readChar, readUnit_append first]
      simp only [Option.bind_eq_bind, Option.bind_some, readEscapedUnit, if_pos hhigh,
        readUnit_append second, if_pos hlow, hcode, scalarChar?_toNat]

theorem CharText.head {s : Text} {c : Char} (h : CharText s c) :
    ∃ d t, s = d :: t ∧ d ≠ '"' := by
  cases h with
  | plain _ unquoted => exact ⟨_, _, rfl, unquoted⟩
  | short => exact ⟨_, _, rfl, by decide⟩
  | unit => exact ⟨_, _, rfl, by decide⟩
  | pair => exact ⟨_, _, rfl, by decide⟩

theorem CharsText.length_le {s cs : Text} (h : CharsText s cs) : cs.length ≤ s.length := by
  induction h with
  | nil => exact Nat.le_refl _
  | cons first _ ih =>
      obtain ⟨d, t, rfl, -⟩ := first.head
      simp only [List.length_cons, List.length_append]
      omega

theorem readQuoted_append {s cs : Text} (h : CharsText s cs) (rest : Text) {fuel : Nat}
    (hfuel : cs.length ≤ fuel) : readQuoted fuel (s ++ '"' :: rest) = some (cs, rest) := by
  induction h generalizing fuel with
  | nil => rw [List.nil_append, readQuoted]
  | @cons s t cs c first _ ih =>
      obtain ⟨d, s', hs, hd⟩ := first.head
      obtain ⟨fuel, rfl⟩ : ∃ n, fuel = n + 1 := ⟨fuel - 1, by simp at hfuel; omega⟩
      have hchar := readChar_append first (t ++ '"' :: rest)
      have hrest : readQuoted fuel (t ++ '"' :: rest) = some (cs, rest) := ih (by simpa using hfuel)
      rw [hs] at hchar
      rw [hs, List.append_assoc, List.cons_append, readQuoted]
      · rw [List.cons_append] at hchar
        simp [hchar, hrest]
      · simpa using hd

/-! ## Numbers

`readNumber` goes through the parts of a number one after the other; here each
part has its reader. -/

def readSign (s : Text) : Bool × Text :=
  match s with
  | '-' :: rest => (true, rest)
  | _ => (false, s)

def readPlaces (s : Text) : Text × Text :=
  match s with
  | '.' :: rest =>
    if (rest.takeWhile isAsciiDigit).isEmpty then ([], s)
    else (rest.takeWhile isAsciiDigit, rest.dropWhile isAsciiDigit)
  | _ => ([], s)

def readPowerSign (s : Text) : Bool × Text :=
  match s with
  | '-' :: more => (true, more)
  | '+' :: more => (false, more)
  | _ => (false, s)

def readPower (s : Text) : Option Int × Text :=
  match s with
  | e :: rest =>
    if e = 'e' ∨ e = 'E' then
      let digits := (readPowerSign rest).2
      let n := digits.takeWhile isAsciiDigit
      if n.isEmpty then (none, s)
      else
        let p : Int := Text.digitsValue n
        (some (if (readPowerSign rest).1 then -p else p), digits.dropWhile isAsciiDigit)
    else (none, s)
  | [] => (none, s)

theorem readNumber_eq (s : Text) :
    readNumber s =
      let unsigned := (readSign s).2
      let whole := unsigned.takeWhile isAsciiDigit
      let point := unsigned.dropWhile isAsciiDigit
      let power := readPower (readPlaces point).2
      if whole.isEmpty ∨ (whole.length ≠ 1 ∧ whole.head? = some '0') then none
      else some (numberValue (readSign s).1 whole (readPlaces point).1 power.1, power.2) := by
  let whole := (readSign s).2.takeWhile isAsciiDigit
  let places := readPlaces ((readSign s).2.dropWhile isAsciiDigit)
  let power := readPower places.2
  have hparts : readNumber s =
      if whole.isEmpty ∨ (whole.length ≠ 1 ∧ whole.head? = some '0') then none
      else if places.1.isEmpty ∧ power.1.isNone then
        some (.int (if (readSign s).1 then -(Text.digitsValue whole : Int)
          else Text.digitsValue whole), power.2)
      else some (.float (.ofDecimal (readSign s).1 (Text.digitsValue (whole ++ places.1))
        (power.1.getD 0 - places.1.length)), power.2) := rfl
  rw [hparts]
  simp only [numberValue, List.isEmpty_iff, Option.isNone_iff_eq_none]
  split
  · rfl
  · split <;> rfl

def stops : List Char := [' ', '\n', '\r', '\t', ',', ']', '\x7d']

def Stops (rest : Text) : Prop := ∀ c ∈ rest.head?, c ∈ stops

theorem Stops.head {rest : Text} (h : Stops rest) {p : Char → Bool}
    (hp : ∀ c ∈ stops, p c = false) : ∀ c ∈ rest.head?, p c = false :=
  fun c hc => hp c (h c hc)

theorem Digits.all {s : Text} (h : Digits s) : ∀ c ∈ s, isAsciiDigit c = true := by
  intro c hc
  have hrange : 48 ≤ c.toNat ∧ c.toNat ≤ 57 := h.2 c hc
  simp [isAsciiDigit, hrange]

theorem Digits.head {s : Text} (h : Digits s) : ∃ c t, s = c :: t ∧ isAsciiDigit c = true := by
  cases s with
  | nil => exact absurd rfl h.1
  | cons c t => exact ⟨c, t, rfl, h.all c List.mem_cons_self⟩

theorem ne_of_isAsciiDigit {c d : Char} (hc : isAsciiDigit c = true) (hd : isAsciiDigit d = false) :
    c ≠ d := by
  rintro rfl
  rw [hc] at hd
  exact Bool.false_ne_true hd.symm

theorem readPlaces_append {point places rest : Text} (h : PlacesText point places)
    (hrest : ∀ c ∈ rest.head?, c ≠ '.' ∧ isAsciiDigit c = false) :
    readPlaces (point ++ rest) = (places, rest) := by
  have hdigit : ∀ c ∈ rest.head?, isAsciiDigit c = false := fun c hc => (hrest c hc).2
  cases h with
  | none =>
      rw [List.nil_append, readPlaces]
      rintro rest' rfl
      exact (hrest '.' rfl).1 rfl
  | some digits =>
      rw [List.cons_append, readPlaces, Text.takeWhile_append_of_head digits.all hdigit,
        Text.dropWhile_append_of_head digits.all hdigit, if_neg]
      simpa using digits.1

theorem readPowerSign_append {sign s : Text} {down : Bool} (h : SignText sign down)
    (hs : ∃ c t, s = c :: t ∧ isAsciiDigit c = true) : readPowerSign (sign ++ s) = (down, s) := by
  obtain ⟨c, t, rfl, hc⟩ := hs
  cases h with
  | plus => rfl
  | minus => rfl
  | none =>
      rw [List.nil_append, readPowerSign]
      · exact fun _ heq => ne_of_isAsciiDigit hc (by decide) (List.cons.inj heq).1
      · exact fun _ heq => ne_of_isAsciiDigit hc (by decide) (List.cons.inj heq).1

theorem readPower_append {rise rest : Text} {power : Option Int} (h : PowerText rise power)
    (hrest : Stops rest) : readPower (rise ++ rest) = (power, rest) := by
  have hdigit := hrest.head (p := isAsciiDigit) (by decide)
  cases h with
  | none =>
      cases rest with
      | nil => rfl
      | cons c rest =>
          have hmark : ¬ (c = 'e' ∨ c = 'E') := by
            have hall : ∀ d ∈ stops, ¬ (d = 'e' ∨ d = 'E') := by decide
            exact hall c (hrest c rfl)
          rw [List.nil_append, readPower, if_neg hmark]
  | @some e sign s down mark signed digits =>
      obtain ⟨c, t, hs, hc⟩ := digits.head
      have hsign := readPowerSign_append (s := s ++ rest) signed ⟨c, t ++ rest, by rw [hs]; rfl, hc⟩
      have hne : ¬ s.isEmpty = true := by simpa using digits.1
      simp only [List.cons_append, List.append_assoc, readPower, if_pos mark, hsign,
        Text.takeWhile_append_of_head digits.all hdigit,
        Text.dropWhile_append_of_head digits.all hdigit, if_neg hne]

theorem readSign_append (negative : Bool) {s : Text} (hs : ∃ c t, s = c :: t ∧ isAsciiDigit c = true) :
    readSign ((if negative then ['-'] else []) ++ s) = (negative, s) := by
  obtain ⟨c, t, rfl, hc⟩ := hs
  cases negative with
  | true => rfl
  | false =>
      show readSign (c :: t) = _
      rw [readSign]
      exact fun _ heq => ne_of_isAsciiDigit hc (by decide) (List.cons.inj heq).1

/-- What stands behind the digits in front of the point is no digit and no other point. -/
theorem PowerText.head {rise rest : Text} {power : Option Int} (h : PowerText rise power)
    (hrest : Stops rest) : ∀ c ∈ (rise ++ rest).head?, c ≠ '.' ∧ isAsciiDigit c = false := by
  cases h with
  | none =>
      have hall : ∀ c ∈ stops, c ≠ '.' ∧ isAsciiDigit c = false := by decide
      exact fun c hc => hall c (hrest c hc)
  | some mark =>
      rw [List.cons_append, Text.forall_mem_head?_cons]
      rcases mark with rfl | rfl <;> decide

theorem PlacesText.head {point places rest : Text} (h : PlacesText point places)
    (hrest : ∀ c ∈ rest.head?, c ≠ '.' ∧ isAsciiDigit c = false) :
    ∀ c ∈ (point ++ rest).head?, isAsciiDigit c = false := by
  cases h with
  | none => exact fun c hc => (hrest c hc).2
  | some => exact Text.forall_mem_head?_cons.mpr (by decide)

theorem readNumber_append {s rest : Text} {v : Value} (h : NumberText s v) (hrest : Stops rest) :
    readNumber (s ++ rest) = some (v, rest) := by
  cases h with
  | @mk whole point rise places power negative digits leading fraction exponent =>
      obtain ⟨c, t, hwhole, hc⟩ := digits.head
      have hpower := readPower_append exponent hrest
      have hplaces := readPlaces_append fraction (exponent.head hrest)
      have hhead := fraction.head (exponent.head hrest)
      have hsign := readSign_append negative (s := whole ++ (point ++ (rise ++ rest)))
        ⟨c, t ++ (point ++ (rise ++ rest)), by rw [hwhole]; rfl, hc⟩
      have hne : ¬ (whole.isEmpty = true ∨ (whole.length ≠ 1 ∧ whole.head? = some '0')) := by
        rintro (hempty | ⟨hlength, hzero⟩)
        · exact digits.1 (List.isEmpty_iff.mp hempty)
        · rw [leading hzero] at hlength
          exact hlength rfl
      simp only [List.append_assoc] at hsign ⊢
      rw [readNumber_eq]
      simp only [hsign, Text.takeWhile_append_of_head digits.all hhead,
        Text.dropWhile_append_of_head digits.all hhead, hplaces, hpower, if_neg hne]

/-! ## Spaces -/

theorem isSpace_iff {c : Char} : isSpace c = true ↔ c ∈ [' ', '\n', '\r', '\t'] := by
  simp [isSpace, or_assoc]

theorem isSpace_of_isAsciiDigit {c : Char} (h : isAsciiDigit c = true) : isSpace c = false := by
  by_contra hspace
  rw [Bool.not_eq_false] at hspace
  have hall : ∀ c ∈ [' ', '\n', '\r', '\t'], isAsciiDigit c = false := by decide
  rw [hall c (isSpace_iff.mp hspace)] at h
  exact Bool.false_ne_true h

theorem skipSpace_append {w : Text} (hw : Spaces w) {s : Text}
    (hs : ∀ c ∈ s.head?, isSpace c = false) : skipSpace (w ++ s) = s :=
  Text.dropWhile_append_of_head (fun c hc => isSpace_iff.mpr (hw c hc)) hs

theorem skipSpace_append_cons {w : Text} (hw : Spaces w) {c : Char} (hc : isSpace c = false)
    (rest : Text) : skipSpace (w ++ c :: rest) = c :: rest :=
  skipSpace_append hw (Text.forall_mem_head?_cons.mpr hc)

theorem skipSpace_skipSpace (s : Text) : skipSpace (skipSpace s) = skipSpace s := by
  apply Text.dropWhile_of_head
  intro c hc
  have hnot := List.head?_dropWhile_not isSpace s
  rw [show (s.dropWhile isSpace).head? = some c from hc] at hnot
  simpa using hnot

theorem Spaces.stops_append {w : Text} (hw : Spaces w) {rest : Text} (hrest : Stops rest) :
    Stops (w ++ rest) := by
  cases w with
  | nil => exact hrest
  | cons c w =>
      have hall : ∀ c ∈ [' ', '\n', '\r', '\t'], c ∈ stops := by decide
      exact Text.forall_mem_head?_cons.mpr (hall c (hw c List.mem_cons_self))

theorem stops_cons {c : Char} (hc : c ∈ stops) (rest : Text) : Stops (c :: rest) :=
  Text.forall_mem_head?_cons.mpr hc

/-! ## Values -/

theorem readValue_skipSpace (fuel : Nat) (s : Text) :
    readValue fuel (skipSpace s) = readValue fuel s := by
  cases fuel with
  | zero => rfl
  | succ fuel => rw [readValue, readValue, skipSpace_skipSpace]

theorem readItems_skipSpace (fuel : Nat) (s : Text) :
    readItems fuel (skipSpace s) = readItems fuel s := by
  cases fuel with
  | zero => rfl
  | succ fuel => rw [readItems, readItems, readValue_skipSpace]

theorem readEntries_skipSpace (fuel : Nat) (s : Text) :
    readEntries fuel (skipSpace s) = readEntries fuel s := by
  cases fuel with
  | zero => rfl
  | succ fuel => rw [readEntries, readEntries, skipSpace_skipSpace]

theorem NumberText.head {s : Text} {v : Value} (h : NumberText s v) :
    ∃ c t, s = c :: t ∧ (isAsciiDigit c = true ∨
      c = '-' ∧ ∃ d t', t = d :: t' ∧ isAsciiDigit d = true) := by
  cases h with
  | mk negative digits =>
      obtain ⟨c, t, rfl, hc⟩ := digits.head
      cases negative with
      | true => exact ⟨_, _, rfl, .inr ⟨rfl, _, _, rfl, hc⟩⟩
      | false => exact ⟨_, _, rfl, .inl hc⟩

/-- A value starts with a character that is neither a space nor a closing bracket. -/
theorem Denotes.head {s : Text} {v : Value} (h : Denotes s (.value v)) :
    ∃ c t, s = c :: t ∧ isSpace c = false ∧ c ≠ ']' := by
  cases h with
  | nullWord | trueWord | falseWord | text | noItems | list | noEntries | map =>
      exact ⟨_, _, rfl, by decide, by decide⟩
  | number number =>
      obtain ⟨c, t, hs, hc | ⟨rfl, -⟩⟩ := number.head
      · exact ⟨c, t, hs, isSpace_of_isAsciiDigit hc, ne_of_isAsciiDigit hc (by decide)⟩
      · exact ⟨'-', t, hs, by decide, by decide⟩

theorem skipSpace_value {a s : Text} {v : Value} (ha : Spaces a) (h : Denotes s (.value v))
    (rest : Text) : skipSpace (a ++ (s ++ rest)) = s ++ rest := by
  obtain ⟨c, t, rfl, hc, -⟩ := h.head
  exact skipSpace_append_cons ha hc (t ++ rest)

/-- What the readers make of a part, given enough fuel and something behind it that
ends it. -/
def Reads : Text → Part → Prop
  | s, .value v => ∀ fuel rest, 2 * s.length ≤ fuel + 1 → Stops rest →
      readValue (fuel + 1) (s ++ rest) = some (v, rest)
  | s, .items vs => ∀ fuel rest, 2 * s.length ≤ fuel →
      readItems (fuel + 1) (s ++ ']' :: rest) = some (vs, rest)
  | s, .entries es => ∀ fuel rest, 2 * s.length ≤ fuel →
      readEntries (fuel + 1) (s ++ '\x7d' :: rest) = some (es, rest)

/-! ### Single values -/

theorem readWord_of_number {s : Text} {v : Value} (h : NumberText s v) (rest : Text) :
    readWord (s ++ rest) = none := by
  obtain ⟨c, t, rfl, hc | ⟨rfl, d, t', rfl, hd⟩⟩ := h.head
  · have hne : ∀ d, isAsciiDigit d = false → d ≠ c := fun d hd =>
      (ne_of_isAsciiDigit hc hd).symm
    simp [readWord, wordValues, Text.after?, hne 'n' (by decide), hne 't' (by decide),
      hne 'f' (by decide), hne 'N' (by decide), hne 'I' (by decide), hne '-' (by decide)]
  · have hne : 'I' ≠ d := (ne_of_isAsciiDigit hd (by decide)).symm
    simp [readWord, wordValues, Text.after?, hne]

theorem readValue_number {s rest : Text} {v : Value} (h : NumberText s v) (hrest : Stops rest)
    (fuel : Nat) : readValue (fuel + 1) (s ++ rest) = some (v, rest) := by
  have hskip : skipSpace (s ++ rest) = s ++ rest :=
    skipSpace_value Spaces.nil (.number h) rest
  have hread : (readWord (s ++ rest)).or (readNumber (s ++ rest)) = some (v, rest) := by
    rw [readWord_of_number h, Option.none_or, readNumber_append h hrest]
  obtain ⟨c, t, hs, hc⟩ := h.head
  have hne : ∀ d rest', isAsciiDigit d = false → d ≠ '-' → s ++ rest ≠ d :: rest' := by
    rintro d rest' hd hminus heq
    rw [hs] at heq
    obtain rfl : c = d := (List.cons.inj heq).1
    rcases hc with hc | ⟨rfl, -⟩
    · exact ne_of_isAsciiDigit hc hd rfl
    · exact hminus rfl
  rw [readValue, hskip]
  split
  · next heq => exact absurd heq (hne _ _ (by decide) (by decide))
  · next heq => exact absurd heq (hne _ _ (by decide) (by decide))
  · next heq => exact absurd heq (hne _ _ (by decide) (by decide))
  · exact hread

theorem readValue_text {s cs : Text} (h : CharsText s cs) (rest : Text) (fuel : Nat) :
    readValue (fuel + 1) ('"' :: (s ++ '"' :: rest)) = some (.text cs, rest) := by
  have hquoted : readQuoted (s ++ '"' :: rest).length (s ++ '"' :: rest) = some (cs, rest) := by
    apply readQuoted_append h
    have := h.length_le
    rw [List.length_append]
    omega
  show (readQuoted (s ++ '"' :: rest).length (s ++ '"' :: rest)).map _ = _
  rw [hquoted]
  rfl

/-! ### Lists and objects -/

theorem readValue_list {fuel : Nat} {s rest : Text} {vs : List Value}
    (hs : ∀ t, skipSpace s ≠ ']' :: t) (h : readItems fuel s = some (vs, rest)) :
    readValue (fuel + 1) ('[' :: s) = some (.list vs, rest) := by
  have hskip : skipSpace ('[' :: s) = '[' :: s := rfl
  rw [← readItems_skipSpace] at h
  simp only [readValue, hskip, h]
  rfl

theorem readValue_map {fuel : Nat} {s rest : Text} {es : List (Value × Value)}
    (hs : ∀ t, skipSpace s ≠ '\x7d' :: t) (h : readEntries fuel s = some (es, rest)) :
    readValue (fuel + 1) ('\x7b' :: s) = some (.map es, rest) := by
  have hskip : skipSpace ('\x7b' :: s) = '\x7b' :: s := rfl
  rw [← readEntries_skipSpace] at h
  simp only [readValue, hskip, h]
  rfl

theorem readItems_last {fuel : Nat} {s rest left : Text} {v : Value}
    (h : readValue fuel s = some (v, rest)) (hrest : skipSpace rest = ']' :: left) :
    readItems (fuel + 1) s = some ([v], left) := by
  simp [readItems, h, hrest]

theorem readItems_more {fuel : Nat} {s rest left left' : Text} {v : Value} {vs : List Value}
    (h : readValue fuel s = some (v, rest)) (hrest : skipSpace rest = ',' :: left)
    (hmore : readItems fuel left = some (vs, left')) :
    readItems (fuel + 1) s = some (v :: vs, left') := by
  simp [readItems, h, hrest, hmore]

section Entries

variable {fuel : Nat} {a k b s rest left left' name : Text} {v : Value} {es : List (Value × Value)}

/-- The key of an entry is read up to its quote, and then the colon. -/
theorem readQuoted_key (ha : Spaces a) (hk : CharsText k name) (hb : Spaces b) (s : Text) :
    skipSpace (a ++ '"' :: (k ++ '"' :: (b ++ ':' :: s))) = '"' :: (k ++ '"' :: (b ++ ':' :: s)) ∧
      readQuoted (k ++ '"' :: (b ++ ':' :: s)).length (k ++ '"' :: (b ++ ':' :: s)) =
        some (name, b ++ ':' :: s) ∧
      skipSpace (b ++ ':' :: s) = ':' :: s := by
  refine ⟨skipSpace_append_cons ha (by decide) _, ?_, skipSpace_append_cons hb (by decide) s⟩
  apply readQuoted_append hk
  have := hk.length_le
  rw [List.length_append]
  omega

theorem readEntries_last (ha : Spaces a) (hk : CharsText k name) (hb : Spaces b)
    (h : readValue fuel s = some (v, rest)) (hrest : skipSpace rest = '\x7d' :: left) :
    readEntries (fuel + 1) (a ++ '"' :: (k ++ '"' :: (b ++ ':' :: s))) =
      some ([(.text name, v)], left) := by
  obtain ⟨hquote, hname, hcolon⟩ := readQuoted_key ha hk hb s
  simp only [readEntries, hquote, hname, Option.bind_eq_bind, Option.bind_some, hcolon, h, hrest]

theorem readEntries_more (ha : Spaces a) (hk : CharsText k name) (hb : Spaces b)
    (h : readValue fuel s = some (v, rest)) (hrest : skipSpace rest = ',' :: left)
    (hmore : readEntries fuel left = some (es, left')) :
    readEntries (fuel + 1) (a ++ '"' :: (k ++ '"' :: (b ++ ':' :: s))) =
      some ((.text name, v) :: es, left') := by
  obtain ⟨hquote, hname, hcolon⟩ := readQuoted_key ha hk hb s
  simp only [readEntries, hquote, hname, Option.bind_eq_bind, Option.bind_some, hcolon, h, hrest,
    hmore]

end Entries

/-- Items start with a value, and so with no bracket that closes the list. -/
theorem Denotes.items_open {s : Text} {vs : List Value} (h : Denotes s (.items vs)) (rest : Text) :
    ∀ t, skipSpace (s ++ rest) ≠ ']' :: t := by
  have hopen : ∀ {a s' : Text} {v : Value} (more : Text), Spaces a → Denotes s' (.value v) →
      ∀ t, skipSpace (a ++ (s' ++ more)) ≠ ']' :: t := by
    intro a s' v more ha hv t heq
    rw [skipSpace_value ha hv] at heq
    obtain ⟨c, t', rfl, -, hc⟩ := hv.head
    exact hc (List.cons.inj heq).1
  cases h with
  | item before first after =>
      simp only [List.append_assoc]
      exact hopen _ before first
  | items before first after =>
      simp only [List.append_assoc]
      exact hopen _ before first

theorem Denotes.entries_open {s : Text} {es : List (Value × Value)} (h : Denotes s (.entries es))
    (rest : Text) : ∀ t, skipSpace (s ++ rest) ≠ '\x7d' :: t := by
  have hopen : ∀ {a : Text} (more : Text), Spaces a →
      ∀ t, skipSpace (a ++ '"' :: more) ≠ '\x7d' :: t := by
    intro a more ha t heq
    rw [skipSpace_append_cons ha (by decide)] at heq
    exact absurd (List.cons.inj heq).1 (by decide)
  cases h with
  | entry before =>
      simp only [List.append_assoc, List.cons_append]
      exact hopen _ before
  | entries before =>
      simp only [List.append_assoc, List.cons_append]
      exact hopen _ before

/-- A value inside a list or an object is read with the spaces before it. -/
theorem Reads.spaced {a s rest : Text} {v : Value} {fuel : Nat} (h : Denotes s (.value v))
    (reads : Reads s (.value v)) (ha : Spaces a) (hfuel : 2 * s.length ≤ fuel) (hrest : Stops rest) :
    readValue fuel (a ++ (s ++ rest)) = some (v, rest) := by
  obtain ⟨fuel, rfl⟩ : ∃ n, fuel = n + 1 := by
    obtain ⟨c, t, rfl, -⟩ := h.head
    rw [List.length_cons] at hfuel
    exact ⟨fuel - 1, by omega⟩
  rw [← readValue_skipSpace, skipSpace_value ha h]
  exact reads fuel rest hfuel hrest

/-- Every part of a text is read as what it denotes.  Twice the length is enough fuel:
a list takes one for its bracket, and each item one more than the item before it, which
a comma stands behind. -/
theorem reads_of_denotes {s : Text} {part : Part} (h : Denotes s part) : Reads s part := by
  induction h with
  | nullWord => exact fun _ _ _ _ => rfl
  | trueWord => exact fun _ _ _ _ => rfl
  | falseWord => exact fun _ _ _ _ => rfl
  | number number => exact fun fuel _ _ hrest => readValue_number number hrest fuel
  | text chars =>
      intro fuel rest _ _
      simpa using readValue_text chars rest fuel
  | @noItems w spaces =>
      intro fuel rest _ _
      have hskip : skipSpace (w ++ ']' :: rest) = ']' :: rest :=
        skipSpace_append_cons spaces (by decide) rest
      have hopen : skipSpace ('[' :: (w ++ ']' :: rest)) = '[' :: (w ++ ']' :: rest) := rfl
      simp [readValue, hopen, hskip]
  | @list s vs items ih =>
      intro fuel rest hfuel _
      simp only [List.length_cons, List.length_append] at hfuel
      obtain ⟨fuel, rfl⟩ : ∃ n, fuel = n + 1 := ⟨fuel - 1, by omega⟩
      have hread : readItems (fuel + 1) (s ++ ']' :: rest) = some (vs, rest) :=
        ih fuel rest (by omega)
      simpa using readValue_list (items.items_open _) hread
  | @noEntries w spaces =>
      intro fuel rest _ _
      have hskip : skipSpace (w ++ '\x7d' :: rest) = '\x7d' :: rest :=
        skipSpace_append_cons spaces (by decide) rest
      have hopen : skipSpace ('\x7b' :: (w ++ '\x7d' :: rest)) = '\x7b' :: (w ++ '\x7d' :: rest) :=
        rfl
      simp [readValue, hopen, hskip]
  | @map s es entries ih =>
      intro fuel rest hfuel _
      simp only [List.length_cons, List.length_append] at hfuel
      obtain ⟨fuel, rfl⟩ : ∃ n, fuel = n + 1 := ⟨fuel - 1, by omega⟩
      have hread : readEntries (fuel + 1) (s ++ '\x7d' :: rest) = some (es, rest) :=
        ih fuel rest (by omega)
      simpa using readValue_map (entries.entries_open _) hread
  | @item a s b v before first after ih =>
      intro fuel rest hfuel
      simp only [List.length_append] at hfuel
      have hstops : Stops (b ++ ']' :: rest) := after.stops_append (stops_cons (by decide) rest)
      have hread : readValue fuel (a ++ (s ++ (b ++ ']' :: rest))) = some (v, _) :=
        Reads.spaced first ih before (by omega) hstops
      simp only [List.append_assoc]
      exact readItems_last hread (skipSpace_append_cons after (by decide) rest)
  | @items a s b t v vs before first after rest ih ihs =>
      intro fuel left hfuel
      simp only [List.length_append, List.length_cons] at hfuel
      have hstops : Stops (b ++ ',' :: (t ++ ']' :: left)) :=
        after.stops_append (stops_cons (by decide) _)
      have hread : readValue fuel (a ++ (s ++ (b ++ ',' :: (t ++ ']' :: left)))) = some (v, _) :=
        Reads.spaced first ih before (by omega) hstops
      obtain ⟨fuel, rfl⟩ : ∃ n, fuel = n + 1 := ⟨fuel - 1, by omega⟩
      simp only [List.append_assoc, List.cons_append]
      exact readItems_more hread (skipSpace_append_cons after (by decide) _)
        (ihs fuel left (by omega))
  | @entry a k b c s d name v before key behind between first after ih =>
      intro fuel rest hfuel
      simp only [List.length_append, List.length_cons] at hfuel
      have hstops : Stops (d ++ '\x7d' :: rest) := after.stops_append (stops_cons (by decide) rest)
      have hread : readValue fuel (c ++ (s ++ (d ++ '\x7d' :: rest))) = some (v, _) :=
        Reads.spaced first ih between (by omega) hstops
      simp only [List.append_assoc, List.cons_append]
      exact readEntries_last before key behind hread
        (skipSpace_append_cons after (by decide) rest)
  | @entries a k b c s d t name v es before key behind between first after rest ih ihs =>
      intro fuel left hfuel
      simp only [List.length_append, List.length_cons] at hfuel
      have hstops : Stops (d ++ ',' :: (t ++ '\x7d' :: left)) :=
        after.stops_append (stops_cons (by decide) _)
      have hread : readValue fuel (c ++ (s ++ (d ++ ',' :: (t ++ '\x7d' :: left)))) = some (v, _) :=
        Reads.spaced first ih between (by omega) hstops
      obtain ⟨fuel, rfl⟩ : ∃ n, fuel = n + 1 := ⟨fuel - 1, by omega⟩
      simp only [List.append_assoc, List.cons_append]
      exact readEntries_more before key behind hread
        (skipSpace_append_cons after (by decide) _) (ihs fuel left (by omega))

/-! ## Whole texts -/

theorem parse?_of_document {s : Text} {v : Value} (h : Document s v) : parse? s = some v := by
  cases h with
  | @mk a s b v before value after =>
      have hstops : Stops b := by
        rw [← List.append_nil b]
        exact after.stops_append (fun _ hc => absurd hc (by simp))
      have hfuel : 2 * s.length ≤ 2 * (a ++ (s ++ b)).length + 2 := by
        simp only [List.length_append]
        omega
      have hskip : skipSpace b = [] := by
        rw [← List.append_nil b]
        exact skipSpace_append after (by simp)
      have hread := Reads.spaced value (reads_of_denotes value) before hfuel hstops
      simp only [parse?, hread, hskip]
      rfl

theorem Document.unique {s : Text} {v w : Value} (hv : Document s v) (hw : Document s w) : v = w :=
  Option.some.inj ((parse?_of_document hv).symm.trans (parse?_of_document hw))

end Json
end Data
end Refit

/-
The summary of a type never depends on a body.

`Shown t i` says that byte `i` of a source shows in the summary of the type at `t`: it is in the header
of the type or of a method, or in the type or a declared name of a field.  Two sources that have the
same bytes there have the same summary, whatever stands everywhere else: every text in an outline is
cut out of the source between two of these bytes, and what is done to it afterwards sees nothing else.
-/
import Mathlib.Data.List.Basic
import Refit.Proofs.Parse.Skeleton
import Refit.Proofs.Text.Utf8

namespace Refit
namespace Parse

open Text (Utf8.encode)

/-! ## The bytes that show -/

/-- Where the header of a declaration stops: at its body, or with the declaration if it has none. -/
def headerStop (t : Tree Part) : Nat :=
  match child? .body t with
  | some body => body.label.startByte
  | none => t.label.stopByte

def InHeader (t : Tree Part) (i : Nat) : Prop := t.label.startByte ≤ i ∧ i < headerStop t

def Inside (t : Tree Part) (i : Nat) : Prop := t.label.startByte ≤ i ∧ i < t.label.stopByte

/-- A part right inside the body of a type, or after the constants of an enum. -/
def Member (t m : Tree Part) : Prop :=
  ∃ body, child? .body t = some body ∧
    (m ∈ body.children ∨
      ∃ rest ∈ body.children, rest.label.construct = .enumMembers ∧ m ∈ rest.children)

inductive Shown (t : Tree Part) (i : Nat) : Prop
  | signature (at_ : InHeader t i)
  | method {m : Tree Part} (member : Member t m)
      (construct : m.label.construct = .methodDeclaration) (at_ : InHeader m i)
  | fieldType {m type : Tree Part} (member : Member t m)
      (construct : m.label.construct = .fieldDeclaration) (child : child? .type m = some type)
      (at_ : Inside type i)
  | fieldName {m declarator name : Tree Part} (member : Member t m)
      (construct : m.label.construct = .fieldDeclaration)
      (mem : declarator ∈ withRole .declarator m.children)
      (child : child? .name declarator = some name) (at_ : Inside name i)

theorem mem_members_iff {t m : Tree Part} :
    m ∈ ((child? .body t).map members).getD [] ↔ Member t m := by
  cases hbody : child? .body t with
  | none => simp [Member, hbody]
  | some body =>
      simp only [Member, hbody, Option.map_some, Option.getD_some, members, List.mem_append,
        List.mem_flatMap, List.mem_filter, beq_iff_eq, Option.some.injEq, and_assoc,
        exists_eq_left']

/-! ## What is read from them -/

section Congr

variable {bytes bytes' : Bytes} {t : Tree Part}

theorem textBetween_congr {start stop : Nat}
    (h : ∀ i, start ≤ i → i < stop → bytes[i]? = bytes'[i]?) :
    textBetween bytes start stop = textBetween bytes' start stop := by
  rw [textBetween, textBetween, Text.Utf8.slice_congr h]

theorem header_congr (h : ∀ i, InHeader t i → bytes[i]? = bytes'[i]?) :
    header bytes t = header bytes' t := by
  simp only [InHeader, headerStop] at h
  unfold header
  split
  · next body hbody =>
    simp only [hbody] at h
    rw [textBetween_congr fun i hstart hstop => h i ⟨hstart, hstop⟩]
  · next hbody =>
    simp only [hbody] at h
    rw [partText, partText, textBetween_congr fun i hstart hstop => h i ⟨hstart, hstop⟩]

theorem childText?_congr {role : Role}
    (h : ∀ c, child? role t = some c → ∀ i, Inside c i → bytes[i]? = bytes'[i]?) :
    childText? bytes role t = childText? bytes' role t := by
  rw [childText?, childText?]
  cases hchild : child? role t with
  | none => rfl
  | some c =>
      rw [Option.map_some, Option.map_some, partText, partText,
        textBetween_congr fun i hstart hstop => h c hchild i ⟨hstart, hstop⟩]

theorem fieldText_congr
    (htype : ∀ c, child? .type t = some c → ∀ i, Inside c i → bytes[i]? = bytes'[i]?)
    (hnames : ∀ declarator ∈ withRole .declarator t.children,
      ∀ c, child? .name declarator = some c → ∀ i, Inside c i → bytes[i]? = bytes'[i]?) :
    fieldText bytes t = fieldText bytes' t := by
  have hmap : (withRole .declarator t.children).filterMap (childText? bytes .name) =
      (withRole .declarator t.children).filterMap (childText? bytes' .name) :=
    List.filterMap_congr fun declarator hmem => childText?_congr (hnames declarator hmem)
  simp only [fieldText, hmap, childText?_congr htype]

theorem outline_congr (h : ∀ i, Shown t i → bytes[i]? = bytes'[i]?) :
    outline bytes t = outline bytes' t := by
  have hsignature : header bytes t = header bytes' t :=
    header_congr fun i hi => h i (.signature hi)
  have hfields : ∀ m, Member t m → m.label.construct = .fieldDeclaration →
      fieldText bytes m = fieldText bytes' m := by
    intro m hm hconstruct
    exact fieldText_congr (fun c hc i hi => h i (.fieldType hm hconstruct hc hi))
      fun declarator hmem c hc i hi => h i (.fieldName hm hconstruct hmem hc hi)
  have hmethods : ∀ m, Member t m → m.label.construct = .methodDeclaration →
      header bytes m = header bytes' m := by
    intro m hm hconstruct
    exact header_congr fun i hi => h i (.method hm hconstruct hi)
  simp only [outline, Outline.mk.injEq, hsignature, true_and]
  constructor
  · refine List.map_congr_left fun m hm => ?_
    rw [List.mem_filter, mem_members_iff, beq_iff_eq] at hm
    exact hfields m hm.1 hm.2
  · refine List.map_congr_left fun m hm => ?_
    rw [List.mem_filter, mem_members_iff, beq_iff_eq] at hm
    exact hmethods m hm.1 hm.2

end Congr

/-! ## The declaration of a type -/

/-- A type declaration has its kind wherever it stands. -/
theorem kindAt_of_type {p : Parse} {path : List Nat} {t : Tree Part} (hpath : path ≠ [])
    (hat : p.root.at? path = some t) (htype : t.label.construct = .typeDeclaration) :
    p.kindAt path = some .type := by
  obtain ⟨holder, hholder⟩ : ∃ holder, p.root.at? path.dropLast = some holder := by
    rw [← List.dropLast_concat_getLast hpath, Tree.at?_append] at hat
    obtain ⟨holder, hholder, -⟩ := Option.bind_eq_some_iff.mp hat
    exact ⟨holder, hholder⟩
  simp [kindAt, hpath, hholder, hat, htype, Construct.kind?]

theorem summarize_declAt {p : Parse} {path : List Nat} {t : Tree Part}
    (hkind : p.kindAt path = some .type) (hat : p.root.at? path = some t) (source : Text)
    (detail : Decl.Detail) :
    (p.declAt source path).summarize detail =
      Decl.summarizeOutline detail (outline (Utf8.encode source) t) := by
  simp [declAt, hkind, hat, declare, Decl.summarize]

/-- Two sources with the same bytes where a type shows give it the same summaries, in full and in
brief, whatever their other bytes are. -/
theorem type_summaries_read_shown_bytes (p : Parse) (hp : p.hasErrors = false) (path : List Nat)
    {t : Tree Part} (hpath : path ≠ []) (hat : p.root.at? path = some t)
    (htype : t.label.construct = .typeDeclaration) {source source' : Text}
    (h : ∀ i, Shown t i → (Utf8.encode source)[i]? = (Utf8.encode source')[i]?)
    (file file' : Option Text) :
    ∃ (tree tree' : DeclTree) (k : Nat) (d d' : Decl),
      p.tree source file = .ok tree ∧ p.tree source' file' = .ok tree' ∧
        p.declared[k]? = some path ∧
        tree.walk[k + 1]? = some d ∧ tree'.walk[k + 1]? = some d' ∧
        d.kind = .type ∧ d'.kind = .type ∧
        d.summarize .full = d'.summarize .full ∧ d.summarize .minimal = d'.summarize .minimal := by
  obtain ⟨tree, htree, hwalk⟩ := exists_tree_walk p source file hp
  obtain ⟨tree', htree', hwalk'⟩ := exists_tree_walk p source' file' hp
  have hkind := kindAt_of_type hpath hat htype
  have hdeclared : path ∈ p.declared := by
    rw [mem_declared_iff, hasKind, hkind]
    rfl
  obtain ⟨k, hk⟩ := List.getElem?_of_mem hdeclared
  have hsummary (detail : Decl.Detail) : (p.declAt source path).summarize detail =
      (p.declAt source' path).summarize detail := by
    rw [summarize_declAt hkind hat, summarize_declAt hkind hat, outline_congr h]
  refine ⟨tree, tree', k, p.declAt source path, p.declAt source' path, htree, htree', hk, ?_, ?_,
    ?_, ?_, hsummary .full, hsummary .minimal⟩
  · simp [hwalk, hk]
  · simp [hwalk', hk]
  · simp [declAt, hkind, hat, declare]
  · simp [declAt, hkind, hat, declare]

section Signs

def signsSource : Text := "enum Sign \x7bA;int n=1;int f()\x7bg();\x7d\x7d"

/-- The same with another first value and another call. -/
def otherSigns : Text := "enum Sign \x7bA;int n=7;int f()\x7bh();\x7d\x7d"

def signField : Tree Part :=
  linePart "field_declaration" none 13 21 [
    linePart "integral_type" (some "type".toList) 13 16 [],
    linePart "variable_declarator" (some "declarator".toList) 17 20 [
      linePart "identifier" (some "name".toList) 17 18 []]]

def signMethod : Tree Part :=
  linePart "method_declaration" none 21 34 [linePart "block" (some "body".toList) 28 34 []]

/-- The members of the enum stand behind its constants. -/
def signEnum : Tree Part :=
  linePart "enum_declaration" none 0 35 [
    linePart "enum_body" (some "body".toList) 10 35 [
      linePart "enum_constant" none 11 12 [],
      linePart "enum_body_declarations" none 12 34 [signField, signMethod]]]

def signsParse : Parse := ⟨false, linePart "program" none 0 35 [signEnum]⟩

theorem member_signEnum {m : Tree Part} (h : Member signEnum m) :
    m.label.construct = .other ∨ m.label.construct = .enumMembers ∨ m = signField ∨
      m = signMethod := by
  rw [← mem_members_iff] at h
  have hmembers : ((child? .body signEnum).map members).getD [] =
      [linePart "enum_constant" none 11 12 [],
       linePart "enum_body_declarations" none 12 34 [signField, signMethod], signField,
       signMethod] := rfl
  rw [hmembers] at h
  simp only [List.mem_cons, List.not_mem_nil, or_false] at h
  rcases h with rfl | rfl | h
  · exact .inl rfl
  · exact .inr (.inl rfl)
  · exact .inr (.inr h)

/-- Neither the first value nor the body shows. -/
theorem not_shown_signEnum {i : Nat} (h : Shown signEnum i) : i ≠ 19 ∧ i ≠ 29 := by
  cases h with
  | signature at_ =>
      have hlt : i < 10 := at_.2
      omega
  | method member construct at_ =>
      rcases member_signEnum member with h | h | rfl | rfl
      · simp [h] at construct
      · simp [h] at construct
      · exact absurd construct (by decide)
      · have hlt : i < 28 := at_.2
        have hle : 21 ≤ i := at_.1
        omega
  | fieldType member construct child at_ =>
      rcases member_signEnum member with h | h | rfl | rfl
      · simp [h] at construct
      · simp [h] at construct
      · obtain rfl := Option.some.inj child
        have hlt : i < 16 := at_.2
        omega
      · exact absurd construct (by decide)
  | fieldName member construct mem child at_ =>
      rcases member_signEnum member with h | h | rfl | rfl
      · simp [h] at construct
      · simp [h] at construct
      · obtain rfl := List.mem_singleton.mp mem
        obtain rfl := Option.some.inj child
        have hlt : i < 18 := at_.2
        omega
      · exact absurd construct (by decide)

theorem type_summaries_of_signEnum :
    (∀ i, Shown signEnum i →
        (Utf8.encode signsSource)[i]? = (Utf8.encode otherSigns)[i]?) ∧
      ∃ (tree tree' : DeclTree) (d d' : Decl),
        signsParse.tree signsSource none = .ok tree ∧ signsParse.tree otherSigns none = .ok tree' ∧
          tree.walk[1]? = some d ∧ tree'.walk[1]? = some d' ∧ d.text ≠ d'.text ∧
          d.summarize .full = d'.summarize .full ∧
          d.summarize .minimal = d'.summarize .minimal := by
  have hother : Utf8.encode otherSigns =
      ((Utf8.encode signsSource).set 19 0x37).set 29 0x68 := by decide
  have hagree : ∀ i, Shown signEnum i →
      (Utf8.encode signsSource)[i]? = (Utf8.encode otherSigns)[i]? := by
    intro i hi
    obtain ⟨hvalue, hcall⟩ := not_shown_signEnum hi
    rw [hother, List.getElem?_set_ne hcall.symm, List.getElem?_set_ne hvalue.symm]
  obtain ⟨tree, tree', k, d, d', htree, htree', hk, hd, hd', -, -, hfull, hminimal⟩ :=
    type_summaries_read_shown_bytes signsParse rfl [0] (by decide) rfl rfl hagree none none
  have hdeclared : signsParse.declared = [[0], [0, 0, 1, 1]] := by decide
  obtain rfl : k = 0 := by
    rw [hdeclared] at hk
    match k with
    | 0 => rfl
    | 1 => simp at hk
    | k + 2 => simp at hk
  have htext : (signsParse.tree signsSource none).map (fun t => t.walk[1]?.map Decl.text) =
      .ok (some signsSource) := rfl
  have htext' : (signsParse.tree otherSigns none).map (fun t => t.walk[1]?.map Decl.text) =
      .ok (some otherSigns) := rfl
  refine ⟨hagree, tree, tree', d, d', htree, htree', hd, hd', ?_, hfull, hminimal⟩
  rw [htree] at htext
  rw [htree'] at htext'
  simp only [Except.map, hd, hd', Option.map_some, Except.ok.injEq, Option.some.injEq] at htext htext'
  rw [htext, htext']
  decide

end Signs

end Parse
end Refit

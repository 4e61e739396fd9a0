/-
What a request says, letter by letter.

`Shows v p` spells out the object of a payload: its keys in their order, every text as it
is, and null for a text that is not there.  The request of a batch is a text of that
object and of no other, and it is made of line breaks and printable ASCII, so that it
comes through any channel as it was sent.
-/
import Mathlib.Data.List.Forall2
import Refit.Proofs.Data.Json.Writing
import Refit.Proofs.Request.Entries

namespace Refit
namespace Request

open Data (Value)
open Data
open Objective (Table)

/-! ## The object of a payload -/

inductive ShowsText : Value → Option Text → Prop
  | none : ShowsText .null none
  | some (s : Text) : ShowsText (.text s) (some s)

/-- A finding is shown without its line. -/
inductive ShowsFinding : Value → Finding → Prop
  | mk (f : Finding) :
      ShowsFinding (.object [("rule", .text f.rule), ("message", .text f.message)]) f

/-- Fields that are left out altogether where there are no issues to show. -/
inductive ShowsIssues : List (Text × Value) → Option Issues → Prop
  | none : ShowsIssues [] none
  | some {vs : List Value} {i : Issues} (findings : List.Forall₂ ShowsFinding vs i.findings) :
      ShowsIssues [("issues", .list vs), ("refactoring_objective", .text i.objective)] (some i)

inductive ShowsViolation : Value → Violation → Prop
  | mk {v : Violation} {code : Value} {fields : List (Text × Value)}
      (shown : ShowsText code v.code) (issues : ShowsIssues fields v.issues) :
      ShowsViolation
        (.object (("block_type", .text v.kind.name) :: ("extracted_code", code) :: fields)) v

inductive ShowsClass : Value → ClassEntry → Prop
  | mk {c : ClassEntry} {signature : Value} {vs : List Value} {fields : List (Text × Value)}
      (shown : ShowsText signature c.signature)
      (violations : List.Forall₂ ShowsViolation vs c.violations)
      (issues : ShowsIssues fields c.issues) :
      ShowsClass
        (.object (("type_signature", signature) :: ("violations", .list vs) :: fields)) c

inductive Shows : Value → Payload → Prop
  | mk {p : Payload} {vs : List Value} (classes : List.Forall₂ ShowsClass vs p.classes) :
      Shows (.object [("instruction", .text p.instruction), ("file", .text p.file),
        ("classes", .list vs)]) p

/-- Items that are each shown as a function says are shown as its values. -/
theorem forall₂_iff_eq_map {α : Type} {R : Value → α → Prop} {f : α → Value}
    (h : ∀ v a, R v a ↔ v = f a) {vs : List Value} {as : List α} :
    List.Forall₂ R vs as ↔ vs = as.map f := by
  have hrel : R = fun v a => v = f a := by
    funext v a
    exact propext (h v a)
  rw [hrel, ← List.forall₂_map_right_iff, List.forall₂_eq_eq_eq]

/-- What one list has at a place the other shows there. -/
theorem exists_getElem?_of_forall₂ {α β : Type} {R : α → β → Prop} {as : List α} {bs : List β}
    (h : List.Forall₂ R as bs) {j : Nat} {b : β} (hb : bs[j]? = some b) :
    ∃ a, as[j]? = some a ∧ R a b := by
  induction h generalizing j with
  | nil => cases hb
  | @cons a _ _ _ hab _ ih =>
      cases j with
      | zero =>
          obtain rfl := Option.some.inj hb
          exact ⟨a, rfl, hab⟩
      | succ j => exact ih hb

namespace Payload

theorem showsText_iff {v : Value} {s : Option Text} : ShowsText v s ↔ v = optional s := by
  constructor
  · rintro (_ | _) <;> rfl
  · rintro rfl
    cases s with
    | none => exact .none
    | some s => exact .some s

theorem showsFinding_iff (v : Value) (f : Finding) : ShowsFinding v f ↔ v = findingValue f := by
  constructor
  · rintro ⟨_⟩
    rfl
  · rintro rfl
    exact .mk f

theorem showsIssues_iff {fields : List (Text × Value)} {issues : Option Issues} :
    ShowsIssues fields issues ↔ fields = issueFields issues := by
  constructor
  · rintro (_ | findings)
    · rfl
    · rw [(forall₂_iff_eq_map showsFinding_iff).mp findings]
      rfl
  · rintro rfl
    cases issues with
    | none => exact .none
    | some i => exact .some ((forall₂_iff_eq_map showsFinding_iff).mpr rfl)

theorem showsViolation_iff (v : Value) (w : Violation) :
    ShowsViolation v w ↔ v = violationValue w := by
  constructor
  · rintro ⟨shown, issues⟩
    rw [showsText_iff.mp shown, showsIssues_iff.mp issues]
    rfl
  · rintro rfl
    exact .mk (showsText_iff.mpr rfl) (showsIssues_iff.mpr rfl)

theorem showsClass_iff (v : Value) (c : ClassEntry) : ShowsClass v c ↔ v = classValue c := by
  constructor
  · rintro ⟨shown, violations, issues⟩
    rw [showsText_iff.mp shown, (forall₂_iff_eq_map showsViolation_iff).mp violations,
      showsIssues_iff.mp issues]
    rfl
  · rintro rfl
    exact .mk (showsText_iff.mpr rfl) ((forall₂_iff_eq_map showsViolation_iff).mpr rfl)
      (showsIssues_iff.mpr rfl)

/-- The object of a payload is the only one that shows it. -/
theorem shows_iff {v : Value} {p : Payload} : Shows v p ↔ v = p.value := by
  constructor
  · rintro ⟨classes⟩
    rw [(forall₂_iff_eq_map showsClass_iff).mp classes]
    rfl
  · rintro rfl
    exact .mk ((forall₂_iff_eq_map showsClass_iff).mpr rfl)

/-! ## Its text -/

theorem plain_optional (s : Option Text) : Json.Plain (optional s) := by
  cases s with
  | none => exact .null
  | some s => exact .text s

theorem plain_findingValue (f : Finding) : Json.Plain (findingValue f) := by
  apply Json.Plain.object
  simp only [List.forall_mem_cons]
  exact ⟨.text _, .text _, List.forall_mem_nil _⟩

theorem plain_list_map {α : Type} {f : α → Value} (h : ∀ a, Json.Plain (f a)) (as : List α) :
    Json.Plain (.list (as.map f)) := by
  apply Json.Plain.list
  intro v hv
  obtain ⟨a, -, rfl⟩ := List.mem_map.mp hv
  exact h a

theorem plain_issueFields (issues : Option Issues) : ∀ f ∈ issueFields issues, Json.Plain f.2 := by
  cases issues with
  | none => exact List.forall_mem_nil _
  | some i =>
      simp only [issueFields, List.forall_mem_cons]
      exact ⟨plain_list_map plain_findingValue _, .text _, List.forall_mem_nil _⟩

theorem plain_violationValue (v : Violation) : Json.Plain (violationValue v) := by
  apply Json.Plain.object
  simp only [List.forall_mem_cons]
  exact ⟨.text _, plain_optional _, plain_issueFields _⟩

theorem plain_classValue (c : ClassEntry) : Json.Plain (classValue c) := by
  apply Json.Plain.object
  simp only [List.forall_mem_cons]
  exact ⟨plain_optional _, plain_list_map plain_violationValue _, plain_issueFields _⟩

theorem plain_value (p : Payload) : Json.Plain p.value := by
  apply Json.Plain.object
  simp only [List.forall_mem_cons]
  exact ⟨.text _, .text _, plain_list_map plain_classValue _, List.forall_mem_nil _⟩

end Payload

section Document

variable (table : Table) (withIssues : Bool) {blocks : List Block}

theorem payloadText_eq_write (hne : blocks ≠ []) :
    payloadText table withIssues blocks =
      Json.write (.block 2) 0 (Payload.make table withIssues blocks).value :=
  if_neg (by simpa using hne)

/-- The request of a batch stands for the object of its payload and for nothing else. -/
theorem document_payloadText_iff (hne : blocks ≠ []) {v : Value} :
    Json.Document (payloadText table withIssues blocks) v ↔
      v = (Payload.make table withIssues blocks).value := by
  rw [payloadText_eq_write table withIssues hne]
  exact Json.document_write_iff _ (Payload.plain_value _)

end Document

/-- The request of a batch is made of line breaks and printable ASCII.  By the grammar of
JSON it stands for the object that shows the payload and for nothing else, and that
object is what it is read as. -/
theorem request_text_encodes_payload (table : Table) (withIssues : Bool) {blocks : List Block}
    (hne : blocks ≠ []) :
    (∀ c ∈ payloadText table withIssues blocks, c = '\n' ∨ 0x20 ≤ c.toNat ∧ c.toNat ≤ 0x7E) ∧
      (∀ v, Json.Document (payloadText table withIssues blocks) v ↔
        Shows v (Payload.make table withIssues blocks)) ∧
      ∃ v, Shows v (Payload.make table withIssues blocks) ∧
        Json.parse? (payloadText table withIssues blocks) = some v := by
  refine ⟨?_, ?_, (Payload.make table withIssues blocks).value, Payload.shows_iff.mpr rfl, ?_⟩
  · rw [payloadText_eq_write table withIssues hne]
    exact Json.Printable.write _ (Payload.plain_value _) 0
  · intro v
    rw [document_payloadText_iff table withIssues hne, Payload.shows_iff]
  · exact Json.parse?_of_document ((document_payloadText_iff table withIssues hne).mpr rfl)

/-- A type without a text, and in its lines a method without findings whose text has a
character of each kind: quoted, escaped by a letter, by a unit and by a pair of units. -/
def clefBlocks : List Block :=
  [⟨"src/Score.java", .type, ⟨811, 819, by decide, by decide⟩, none,
      [⟨811, "Doc", "no étude", by decide⟩], none⟩,
    ⟨"src/Score.java", .method, ⟨812, 813, by decide, by decide⟩,
      some "play(\"𝄞\", '\\7', '\x7f');\n\t".toList, [], none⟩]

def bareTable : Table := ⟨"Refactor.", [("Doc", "Document."), ("default", "Simplify.")]⟩

theorem combined_bareTable : bareTable.combined ["Doc"] = "Document.".toList := by
  rw [Table.combined, if_neg (by decide), Table.sortRules, List.mergeSort_singleton]
  rfl

theorem request_text_encodes_clefBlocks :
    clefBlocks ≠ [] ∧
      (∀ c ∈ payloadText bareTable true clefBlocks,
        c = '\n' ∨ 0x20 ≤ c.toNat ∧ c.toNat ≤ 0x7E) ∧
      Json.parse? (payloadText bareTable true clefBlocks) = some (.object
        [("instruction", .text "Refactor."), ("file", .text "Score.java"),
          ("classes", .list [.object
            [("type_signature", .null),
              ("violations", .list [.object
                [("block_type", .text "Method"),
                  ("extracted_code", .text "play(\"𝄞\", '\\7', '\x7f');\n\t"),
                  ("issues", .list []), ("refactoring_objective", .text "Simplify.")]]),
              ("issues", .list [.object
                [("rule", .text "Doc"), ("message", .text "no étude")]]),
              ("refactoring_objective", .text "Document.")]])]) := by
  have hne : clefBlocks ≠ [] := List.cons_ne_nil _ _
  obtain ⟨hprintable, -, v, hshows, hparse⟩ := request_text_encodes_payload bareTable true hne
  rw [Payload.shows_iff.mp hshows] at hparse
  rw [← combined_bareTable]
  exact ⟨hne, hprintable, hparse.trans rfl⟩

/-! ## Blocks in the document -/

/-- The violation of a member: its kind, its text and, with issues, its findings and what to do
about them. -/
def ShowsMember (table : Table) (withIssues : Bool) (v : Value) (m : Block) : Prop :=
  ShowsViolation v ⟨m.kind, m.text,
    if withIssues then some ⟨m.findings, table.combined (m.findings.map Finding.rule)⟩ else none⟩

/-- The issues in the entry of a container, which has none where nothing was found in it. -/
def ownIssues (table : Table) (withIssues : Bool) (c : Block) : Option Issues :=
  if withIssues = true ∧ c.findings ≠ [] then
    some ⟨c.findings, table.combined (c.findings.map Finding.rule)⟩
  else none

/-- An entry by its signature, its members in order and the issues of its own. -/
inductive ShowsEntry (table : Table) (withIssues : Bool) :
    Value → Option Text → List Block → Option Issues → Prop
  | mk {signature : Option Text} {members : List Block} {issues : Option Issues} {s : Value}
      {vs : List Value} {fields : List (Text × Value)} (shown : ShowsText s signature)
      (violations : List.Forall₂ (ShowsMember table withIssues) vs members)
      (carried : ShowsIssues fields issues) :
      ShowsEntry table withIssues
        (.object (("type_signature", s) :: ("violations", .list vs) :: fields))
        signature members issues

theorem ShowsEntry.exists_member {table : Table} {withIssues : Bool} {v : Value}
    {signature : Option Text} {members : List Block} {issues : Option Issues}
    (h : ShowsEntry table withIssues v signature members issues) {m : Block} (hm : m ∈ members) :
    ∃ s vs, v.field? "type_signature" = some s ∧ ShowsText s signature ∧
      v.field? "violations" = some (.list vs) ∧ ∃ w ∈ vs, ShowsMember table withIssues w m := by
  obtain ⟨shown, violations, -⟩ := h
  obtain ⟨j, hj⟩ := List.mem_iff_getElem?.mp hm
  obtain ⟨w, hw, hshows⟩ := exists_getElem?_of_forall₂ violations hj
  exact ⟨_, _, rfl, shown, rfl, w, List.mem_of_getElem? hw, hshows⟩

namespace Payload

section Entries

variable {table : Table} {withIssues : Bool}

theorem showsMember_iff (v : Value) (m : Block) :
    ShowsMember table withIssues v m ↔ v = violationValue (violation table withIssues m) :=
  showsViolation_iff v _

theorem showsEntry_iff {v : Value} {signature : Option Text} {members : List Block}
    {issues : Option Issues} :
    ShowsEntry table withIssues v signature members issues ↔
      v = classValue ⟨signature, members.map (violation table withIssues), issues⟩ := by
  constructor
  · rintro ⟨shown, violations, carried⟩
    rw [showsText_iff.mp shown, (forall₂_iff_eq_map showsMember_iff).mp violations,
      showsIssues_iff.mp carried, classValue, List.map_map]
    rfl
  · rintro rfl
    refine .mk (showsText_iff.mpr rfl) ((forall₂_iff_eq_map showsMember_iff).mpr ?_)
      (showsIssues_iff.mpr rfl)
    rw [List.map_map]
    rfl

theorem showsEntry_entryWith (c : Block) (members : List Block) :
    ShowsEntry table withIssues (classValue (entryWith table withIssues c members))
      c.text members (ownIssues table withIssues c) := by
  have hissues : ownIssues table withIssues c =
      if withIssues && c.hasFindings then some (issuesOf table c) else none := by
    simp only [ownIssues, Block.hasFindings, Bool.and_eq_true, Bool.not_eq_true',
      List.isEmpty_eq_false_iff]
    rfl
  rw [hissues]
  exact showsEntry_iff.mpr rfl

variable (table withIssues)

/-- The document of a batch: an entry for each container with the members of its index, and one
more for the members without an index. -/
theorem exists_entries {blocks : List Block} (hne : blocks ≠ []) :
    ∃ entries rest : List Value,
      (∀ v, Json.Document (payloadText table withIssues blocks) v ↔
        v = .object [("instruction", .text table.instruction),
          ("file", .text (Block.fileName blocks)), ("classes", .list (entries ++ rest))]) ∧
      List.Forall₂ (fun v (e : Block × Nat) => ShowsEntry table withIssues v e.1.text
          (filed (ownerIndex (blocks.filter Block.isContainer)) blocks (some e.2))
          (ownIssues table withIssues e.1))
        entries (blocks.filter Block.isContainer).zipIdx ∧
      (filed (ownerIndex (blocks.filter Block.isContainer)) blocks none = [] → rest = []) ∧
      (filed (ownerIndex (blocks.filter Block.isContainer)) blocks none ≠ [] →
        ∃ v, rest = [v] ∧ ShowsEntry table withIssues v (some "Unknown".toList)
          (filed (ownerIndex (blocks.filter Block.isContainer)) blocks none) none) := by
  let index := ownerIndex (blocks.filter Block.isContainer)
  let opened := (blocks.filter Block.isContainer).zipIdx.map fun e =>
    entryWith table withIssues e.1 (filed index blocks (some e.2))
  let outside : List ClassEntry := if filed index blocks none = [] then []
    else [⟨some "Unknown".toList, (filed index blocks none).map (violation table withIssues), none⟩]
  have hvalue : (make table withIssues blocks).value =
      .object [("instruction", .text table.instruction), ("file", .text (Block.fileName blocks)),
        ("classes", .list (opened.map classValue ++ outside.map classValue))] := by
    rw [value, classes_make, List.map_append]
    rfl
  refine ⟨opened.map classValue, outside.map classValue, ?_, ?_, ?_, ?_⟩
  · intro v
    rw [document_payloadText_iff table withIssues hne, hvalue]
  · rw [List.map_map, List.forall₂_map_left_iff, List.forall₂_same]
    exact fun e _ => showsEntry_entryWith e.1 _
  · exact fun hnone => congrArg (List.map classValue) (if_pos hnone)
  · exact fun hsome => ⟨_, congrArg (List.map classValue) (if_neg hsome), showsEntry_iff.mpr rfl⟩

end Entries

end Payload
end Request
end Refit

/-
The fields of a structured line.

A line starts from the record's own fields, and the extra ones are written over them.  None of the
extra fields is lost in that way, and neither is the message, whose name is taken.  The level and the
name of the logger are lost to an extra field of their names with another value, and only to that
(`structured_keeps_core_iff_harmless`).
-/
import Refit.Log.Record
import Refit.Proofs.Data.Json.Writing

namespace Refit

namespace Data

theorem Json.check_object {m : Pairs Text Value} :
    Json.check (.object m) = .ok () ↔ ∀ e ∈ m, Json.check e.2 = .ok () := by
  rw [Value.object, Json.check]
  induction m with
  | nil => exact iff_of_true rfl (List.forall_mem_nil _)
  | cons e m ih =>
      have hname : Json.checkKey (.text e.1) = .ok () := rfl
      rw [List.map_cons, Json.checkEntries, hname, List.forall_mem_cons, ← ih]
      show (Json.check e.2 >>= fun _ => _) = _ ↔ _
      rw [bind_eq_ok_iff]
      constructor
      · rintro ⟨_, hvalue, hrest⟩
        exact ⟨hvalue, hrest⟩
      · intro h
        exact ⟨(), h⟩

end Data

namespace Log
namespace Record

open Data (Value Pairs)
open Data

variable {r : Record} {format : Option Text} {extras : List (Text × Value)} {line time message : Text}
  {cause : Option Text} {k : Text} {v : Value}

/-! ## Extra fields on a record -/

/-- Fields beside the standard ones, each with a name of its own. -/
structure Additional (extras : List (Text × Value)) : Prop where
  nodup : (extras.map Prod.fst).Nodup
  notMem : ∀ e ∈ extras, e.1 ∉ standardFields

theorem set_of_notMem (h : k ∉ standardFields) (v : Value) :
    r.set k v = { r with extras := r.extras.put k v } := by
  rw [set, if_neg (fun hk => h (List.contains_iff_mem.mp hk))]

theorem setAll_of_notMem (h : ∀ e ∈ extras, e.1 ∉ standardFields) :
    r.setAll extras = { r with extras := r.extras.update extras } := by
  induction extras generalizing r with
  | nil => rfl
  | cons e extras ih =>
      obtain ⟨he, hrest⟩ := List.forall_mem_cons.mp h
      have hset := set_of_notMem (r := r) he e.2
      show (r.set e.1 e.2).setAll extras = _
      rw [ih hrest, hset]
      rfl

theorem setAll_of_additional (hfresh : r.extras = []) (h : Additional extras) :
    r.setAll extras = { r with extras := extras } := by
  have hupdate : Pairs.update [] extras = extras := Pairs.update_of_disjoint h.nodup
  rw [setAll_of_notMem h.notMem, hfresh, hupdate]

theorem text_with_extras (hfresh : r.extras = []) (extras : List (Text × Value)) :
    { r with extras := extras }.text =
      if messageName ∈ extras.map Prod.fst then .error .messageArguments else r.text := by
  have hnone : ¬r.extras.hasKey messageName = true := by
    rw [hfresh]
    exact Bool.false_ne_true
  rw [text, text, if_neg hnone]
  by_cases hmem : messageName ∈ extras.map Prod.fst
  · rw [if_pos hmem, if_pos (Pairs.hasKey_iff.mpr hmem)]
  · rw [if_neg hmem, if_neg (fun hkey => hmem (Pairs.hasKey_iff.mp hkey))]

/-! ## The line -/

def exceptionField : Option Text → Pairs Text Value
  | some s => [("exception", .text s)]
  | none => []

def ownFields (r : Record) (time message : Text) (cause : Option Text) : Pairs Text Value :=
  ([("timestamp", .text time), ("level", r.levelName), ("logger", r.name),
    ("message", .text message)] : Pairs Text Value) ++ exceptionField cause

theorem nodup_keys_ownFields : (ownFields r time message cause).keys.Nodup := by
  cases cause with
  | none =>
      show ["timestamp".toList, "level".toList, "logger".toList, "message".toList].Nodup
      decide
  | some s =>
      show ["timestamp".toList, "level".toList, "logger".toList, "message".toList,
        "exception".toList].Nodup
      decide

theorem fields_eq_ok_iff {fields : Pairs Text Value} :
    r.fields format = .ok fields ↔
      ∃ time message cause, r.timestamp format = .ok time ∧ r.text = .ok message ∧
        r.cause.read = .ok cause ∧ fields = (r.ownFields time message cause).update r.extras := by
  rw [Record.fields, bind_eq_ok_iff]
  refine exists_congr fun time => ?_
  rw [bind_eq_ok_iff]
  constructor
  · rintro ⟨htime, message, hmessage, hrest⟩
    obtain ⟨cause, hcause, hfields⟩ := bind_eq_ok_iff.mp hrest
    exact ⟨message, cause, htime, hmessage, hcause, (Except.ok.inj hfields).symm⟩
  · rintro ⟨message, cause, htime, hmessage, hcause, rfl⟩
    exact ⟨htime, message, hmessage, bind_eq_ok_iff.mpr ⟨cause, hcause, rfl⟩⟩

theorem structured_eq_ok_iff :
    r.structured format = .ok line ↔
      ∃ fields, r.fields format = .ok fields ∧ Json.check (.object fields) = .ok () ∧
        line = Json.compact (.object fields) := by
  rw [structured, bind_eq_ok_iff]
  refine exists_congr fun fields => and_congr_right fun _ => ?_
  rw [bind_eq_ok_iff]
  constructor
  · rintro ⟨_, hcheck, hline⟩
    exact ⟨hcheck, (Except.ok.inj hline).symm⟩
  · rintro ⟨hcheck, rfl⟩
    exact ⟨(), hcheck, rfl⟩

/-- The line of a record with extra fields: its own fields with these written over them. -/
theorem structured_with_extras_iff (hfresh : r.extras = []) (h : Additional extras) :
    (r.setAll extras).structured format = .ok line ↔
      ∃ time message cause, r.timestamp format = .ok time ∧ r.text = .ok message ∧
        r.cause.read = .ok cause ∧ messageName ∉ extras.map Prod.fst ∧
        (∀ e ∈ (r.ownFields time message cause).update extras, Json.check e.2 = .ok ()) ∧
        line = Json.compact (.object ((r.ownFields time message cause).update extras)) := by
  rw [setAll_of_additional hfresh h, structured_eq_ok_iff]
  simp only [fields_eq_ok_iff, text_with_extras hfresh extras]
  constructor
  · rintro ⟨fields, ⟨time, message, cause, htime, hmessage, hcause, rfl⟩, hcheck, hline⟩
    split at hmessage
    · exact absurd hmessage (fun h => nomatch h)
    · next hname =>
      exact ⟨time, message, cause, htime, hmessage, hcause, hname, Json.check_object.mp hcheck,
        hline⟩
  · rintro ⟨time, message, cause, htime, hmessage, hcause, hname, hcheck, hline⟩
    rw [if_neg hname]
    exact ⟨_, ⟨time, message, cause, htime, hmessage, hcause, rfl⟩, Json.check_object.mpr hcheck,
      hline⟩

/-! ## What it keeps -/

/-- What a record says of itself stands in the fields of its line. -/
structure KeepsCore (r : Record) (message : Text) (fields : Pairs Text Value) : Prop where
  level : fields.get? "level" = some r.levelName
  logger : fields.get? "logger" = some r.name
  message : fields.get? "message" = some (.text message)

/-- No extra field puts another value in the place of the level or of the logger. -/
structure Harmless (r : Record) (extras : List (Text × Value)) : Prop where
  level : ∀ v, ("level".toList, v) ∈ extras → v = r.levelName
  logger : ∀ v, ("logger".toList, v) ∈ extras → v = r.name

/-- Extra fields that do not keep a line from being written: none hides the message, and in none is
there a key or a number that cannot be written. -/
structure Writable (extras : List (Text × Value)) : Prop where
  notMem : messageName ∉ extras.map Prod.fst
  check : ∀ e ∈ extras, Json.check e.2 = .ok ()

theorem get?_of_mem_extras (h : Additional extras) (m : Pairs Text Value) {e : Text × Value}
    (he : e ∈ extras) : (m.update extras).get? e.1 = some e.2 := by
  rw [Pairs.get?_update m h.nodup, Pairs.get?_of_mem h.nodup he]
  rfl

theorem keepsCore_iff (h : Additional extras) :
    KeepsCore r message ((r.ownFields time message cause).update extras) ↔ Harmless r extras := by
  have hown : ∀ k w, (r.ownFields time message cause).get? k = some w →
      (((r.ownFields time message cause).update extras).get? k = some w ↔
        ∀ v, (k, v) ∈ extras → v = w) :=
    fun k w hget => Pairs.get?_update_eq_iff h.nodup hget
  have hlevel := hown "level" r.levelName rfl
  have hlogger := hown "logger" r.name rfl
  have hmessage := hown "message" (.text message) rfl
  constructor
  · intro hkept
    exact ⟨hlevel.mp hkept.level, hlogger.mp hkept.logger⟩
  · intro hharmless
    have hstandard : "message".toList ∈ standardFields := by decide
    exact ⟨hlevel.mpr hharmless.level, hlogger.mpr hharmless.logger,
      hmessage.mpr fun v hv => absurd hstandard (h.notMem _ hv)⟩

theorem forall_ownFields {P : Value → Prop} (htext : ∀ s, P (.text s)) (hlevel : P r.levelName)
    (hname : P r.name) : ∀ e ∈ r.ownFields time message cause, P e.2 := by
  rw [ownFields, List.forall_mem_append]
  refine ⟨?_, ?_⟩
  · simp only [List.forall_mem_cons]
    exact ⟨htext _, hlevel, hname, htext _, List.forall_mem_nil _⟩
  · cases cause with
    | none => exact List.forall_mem_nil _
    | some s => exact List.forall_mem_singleton.mpr (htext s)

theorem forall_update {P : Value → Prop} (h : Additional extras)
    (hown : ∀ e ∈ r.ownFields time message cause, P e.2) (hextras : ∀ e ∈ extras, P e.2) :
    ∀ e ∈ (r.ownFields time message cause).update extras, P e.2 := by
  intro e he
  rcases Pairs.mem_update nodup_keys_ownFields h.nodup he with he | he
  · exact hown e he
  · exact hextras e he

theorem exists_structured_iff (hfresh : r.extras = []) (hextras : Additional extras)
    (hline : r.structured format = .ok line) :
    (∃ line', (r.setAll extras).structured format = .ok line') ↔ Writable extras := by
  have hnone : Additional [] := ⟨List.nodup_nil, List.forall_mem_nil _⟩
  obtain ⟨time, message, cause, htime, hmessage, hcause, -, hown, -⟩ :=
    (structured_with_extras_iff hfresh hnone).mp hline
  constructor
  · rintro ⟨line', hline'⟩
    obtain ⟨time', message', cause', -, -, -, hname, hcheck, -⟩ :=
      (structured_with_extras_iff hfresh hextras).mp hline'
    exact ⟨hname, fun e he => hcheck e (Pairs.mem_of_get? (get?_of_mem_extras hextras _ he))⟩
  · rintro ⟨hname, hcheck⟩
    have hall := forall_update (P := fun v => Json.check v = .ok ()) hextras hown hcheck
    exact ⟨_, (structured_with_extras_iff hfresh hextras).mpr
      ⟨time, message, cause, htime, hmessage, hcause, hname, hall, rfl⟩⟩

/-- The line of a record to which extra fields are added.  If the record has a line without them, it
has one with them exactly when they are writable.  The fields of that line are all named once, the
extra ones are among them with their values, and the record's own level, logger and message are too
exactly when the extra ones are harmless.  By the grammar of JSON the line stands for the object of
these fields and for nothing else. -/
theorem structured_keeps_core_iff_harmless (hfresh : r.extras = []) (hextras : Additional extras) :
    ((∃ line, r.structured format = .ok line) →
      ((∃ line, (r.setAll extras).structured format = .ok line) ↔ Writable extras)) ∧
    ∀ line, (r.setAll extras).structured format = .ok line →
      ∃ (message : Text) (fields : Pairs Text Value), r.text = .ok message ∧
        line = Json.compact (.object fields) ∧ fields.keys.Nodup ∧
        (∀ e ∈ extras, fields.get? e.1 = some e.2) ∧
        (KeepsCore r message fields ↔ Harmless r extras) ∧
        (Json.Plain r.levelName → Json.Plain r.name → (∀ e ∈ extras, Json.Plain e.2) →
          (∀ v, Json.Document line v ↔ v = .object fields) ∧
            Json.parse? line = some (.object fields)) := by
  refine ⟨fun ⟨_, halone⟩ => exists_structured_iff hfresh hextras halone, fun line hline => ?_⟩
  obtain ⟨time, message, cause, -, hmessage, -, -, -, rfl⟩ :=
    (structured_with_extras_iff hfresh hextras).mp hline
  refine ⟨message, _, hmessage, rfl, Pairs.nodup_keys_update nodup_keys_ownFields _,
    fun e he => get?_of_mem_extras hextras _ he, keepsCore_iff hextras,
    fun hlevel hname hvalues => ?_⟩
  have hplain : Json.Plain (.object ((r.ownFields time message cause).update extras)) :=
    .object (forall_update hextras (forall_ownFields .text hlevel hname) hvalues)
  have hdocument : ∀ v, Json.Document _ v ↔ v = _ := fun v => Json.document_write_iff .line hplain
  exact ⟨hdocument, Json.parse?_of_document ((hdocument _).mpr rfl)⟩

def plannerWarning : Record :=
  .make "codesplice.batch_planner" 30 "Block too large (%d chars)" [.int 24000] (.int 0) (.int 0)

def warningFields (level : Text) : Pairs Text Value :=
  [("timestamp", .text "1970-01-01 00:00:00,000"), ("level", .text level),
    ("logger", .text "codesplice.batch_planner"), ("message", .text "Block too large (24000 chars)")]

/-- Two fields with names of their own, and one that says of the logger what the record does. -/
def contextFields : List (Text × Value) :=
  [("file_path", .text "C.java"), ("budget", .int 20000),
    ("logger", .text "codesplice.batch_planner")]

theorem structured_keeps_core_plannerWarning :
    plannerWarning.extras = [] ∧ Additional contextFields ∧
      ∃ (line : Text) (fields : Pairs Text Value),
        (plannerWarning.setAll contextFields).structured none = .ok line ∧
        (∀ v, Json.Document line v ↔ v = .object fields) ∧
        KeepsCore plannerWarning "Block too large (24000 chars)" fields ∧
        ∀ e ∈ contextFields, fields.get? e.1 = some e.2 := by
  have hextras : Additional contextFields := ⟨by decide, by decide⟩
  obtain ⟨hwritten, hkept⟩ :=
    @structured_keeps_core_iff_harmless plannerWarning none contextFields rfl hextras
  have halone : plannerWarning.structured none =
      .ok (Json.compact (.object (warningFields "WARNING"))) := by decide +kernel
  obtain ⟨line, hline⟩ := (hwritten ⟨_, halone⟩).mpr ⟨by decide, by decide +kernel⟩
  obtain ⟨message, fields, hmessage, -, -, hall, hcore, hread⟩ := hkept line hline
  have htext : plannerWarning.text = .ok "Block too large (24000 chars)" := by decide +kernel
  obtain rfl := Except.ok.inj (hmessage.symm.trans htext)
  have hharmless : Harmless plannerWarning contextFields := by
    refine ⟨fun v hv => ?_, fun v hv => ?_⟩
    · have hnone : "level".toList ∉ contextFields.map Prod.fst := by decide
      exact absurd (List.mem_map_of_mem hv) hnone
    · have hsame : Pairs.get? contextFields "logger" = some plannerWarning.name := rfl
      exact Option.some.inj ((Pairs.get?_of_mem hextras.nodup hv).symm.trans hsame)
  have hplain : ∀ e ∈ contextFields, Json.Plain e.2 := by
    simp only [contextFields, List.forall_mem_cons]
    exact ⟨.text _, .int _, .text _, List.forall_mem_nil _⟩
  exact ⟨rfl, hextras, line, fields, hline, (hread (.text _) (.text _) hplain).1,
    hcore.mpr hharmless, hall⟩

/-- A field that says something else of the level, and one that hides the message. -/
def urgencyField : List (Text × Value) := [("level", .text "low")]

def hidingField : List (Text × Value) := [("getMessage", .text "none")]

/-- The level of the record is lost to an extra field, and a record whose message is hidden has no
line. -/
theorem core_lost_to_extra_field :
    (Additional urgencyField ∧ plannerWarning.levelName = .text "WARNING" ∧
      (plannerWarning.setAll urgencyField).structured none =
        .ok (Json.compact (.object (warningFields "low"))) ∧
      ¬KeepsCore plannerWarning "Block too large (24000 chars)" (warningFields "low")) ∧
      Additional hidingField ∧
      (plannerWarning.setAll hidingField).structured none = .error .messageArguments := by
  refine ⟨⟨⟨by decide, by decide⟩, rfl, by decide +kernel, fun hkept => ?_⟩,
    ⟨by decide, by decide⟩, by decide +kernel⟩
  have hlevel : (warningFields "low").get? "level" = some (.text "low") := rfl
  have hsame : some (Value.text "low") = some (.text "WARNING") := hlevel.symm.trans hkept.level
  have hne : "low".toList ≠ "WARNING".toList := by decide
  exact hne (Value.text.inj (Option.some.inj hsame))

end Record
end Log
end Refit

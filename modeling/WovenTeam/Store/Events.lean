import WovenTeam.Fields
import WovenTeam.Store.Records

/-!
# The fields of the store's records

Every `wtTaskAppend…` function as one kind of event, with the fields of the record it appends:
what each key's value is built from. `StoreEvent.append_eq`: an append that succeeds adds the line
of these fields. `fields_isolated`: reading a key of two such lines gives the same wherever the
values of that key are the same, whatever else was written.
-/

namespace WovenTeam

open CText QuotedText

/-- A value of a 64-bit type. -/
abbrev Long := { n : Int // Int64 n }

inductive StoreEvent where
  | lease (taskId agentName : Bytes) (attempt leaseExpiresAtUnixMs now : Long)
  | leaseRenewal (taskId agentName : Bytes) (attempt leaseExpiresAtUnixMs now : Long)
  | status (taskId status createdBy message retryCause : Bytes) (now : Long)
  | reclaim (taskId previousAgent reclaimedBy reason message : Bytes) (now : Long)
  | artifact (taskId state reviewer notes artifactPath : Bytes) (now : Long)
  | heartbeat (agentName host currentTaskId : Bytes) (leaseExpiresAtUnixMs : Long)
      (statusLine : Bytes) (now : Long)
  | milestone (taskId milestone message createdBy : Bytes) (now : Long)
  | kill (taskId reason createdBy : Bytes) (now : Long)
  | autonomy (taskId actor target action commandClass autonomyLevel reason : Bytes)
      (allowed : Bool) (exitCode now : Long)

/-- The call of the event's function. -/
def StoreEvent.append (ledger : Ledger) : StoreEvent → Option Ledger
  | lease taskId agentName attempt expires now =>
    wtTaskAppendLeaseEvent ledger taskId agentName attempt expires now
  | leaseRenewal taskId agentName attempt expires now =>
    wtTaskAppendLeaseRenewal ledger taskId agentName attempt expires now
  | status taskId newStatus createdBy message retryCause now =>
    wtTaskAppendStatusEventWithCause ledger taskId newStatus createdBy message retryCause now
  | reclaim taskId previousAgent reclaimedBy reason message now =>
    wtTaskAppendReclaimEvent ledger taskId previousAgent reclaimedBy reason message now
  | artifact taskId state reviewer notes artifactPath now =>
    wtTaskAppendArtifactEvent ledger taskId state reviewer notes artifactPath now
  | heartbeat agentName host currentTaskId expires statusLine now =>
    wtTaskAppendHeartbeat ledger agentName host currentTaskId expires statusLine now
  | milestone taskId name message createdBy now =>
    wtTaskAppendMilestone ledger taskId name message createdBy now
  | kill taskId reason createdBy now => wtTaskAppendKillEvent ledger taskId reason createdBy now
  | autonomy taskId actor target action commandClass autonomyLevel reason allowed exitCode now =>
    wtTaskAppendAutonomyEvent ledger taskId actor target action commandClass autonomyLevel reason
      allowed exitCode now

/-- The fields of the record: each key with the value that is built from the arguments. -/
def StoreEvent.fields : StoreEvent → List Field
  | lease taskId agentName attempt expires now =>
    [("schema", .text (bytes "woventeam.task_event.v0.1")), ("taskId", .text taskId),
      ("eventType", .text (bytes "lease")), ("status", .text (bytes "leased")),
      ("assignedAgent", .text agentName),
      ("message", .text (snprintf 256 (bytes "Task leased by wt-agent@" ++ agentName ++
        bytes " attempt " ++ decimal attempt ++ bytes "."))),
      ("createdBy", .text (bytes "wt-agent@" ++ agentName)), ("attempt", .number attempt),
      ("leaseExpiresAtUnixMs", .number expires), ("createdAtUnixMs", .number now)]
  | leaseRenewal taskId agentName attempt expires now =>
    [("schema", .text (bytes "woventeam.task_event.v0.1")), ("taskId", .text taskId),
      ("eventType", .text (bytes "lease_renewal")), ("status", .text (bytes "running")),
      ("assignedAgent", .text agentName),
      ("message", .text (snprintf 256 (bytes "Lease renewed by wt-agent@" ++ agentName ++
        bytes " attempt " ++ decimal attempt ++ bytes "; extended to " ++ decimal expires ++
        bytes "."))),
      ("createdBy", .text (bytes "wt-agent@" ++ agentName)), ("attempt", .number attempt),
      ("leaseExpiresAtUnixMs", .number expires), ("createdAtUnixMs", .number now)]
  | status taskId newStatus createdBy message retryCause now =>
    [("schema", .text (bytes "woventeam.task_event.v0.1")), ("taskId", .text taskId),
      ("eventType", .text (bytes "status")), ("status", .text newStatus),
      ("message", .text message)] ++
    (if retryCause = [] then [] else [("retryCause", .text retryCause)]) ++
    [("createdBy", .text createdBy), ("createdAtUnixMs", .number now)]
  | reclaim taskId previousAgent reclaimedBy reason message now =>
    [("schema", .text (bytes "woventeam.task_event.v0.1")), ("taskId", .text taskId),
      ("eventType", .text (bytes "reclaim")), ("status", .text (bytes "queued")),
      ("assignedAgent", .text previousAgent), ("reclaimReason", .text reason),
      ("message", .text message), ("createdBy", .text reclaimedBy),
      ("createdAtUnixMs", .number now)]
  | artifact taskId state reviewer notes artifactPath now =>
    [("schema", .text (bytes "woventeam.task_event.v0.1")), ("taskId", .text taskId),
      ("eventType", .text (bytes "artifact")), ("artifactState", .text state),
      ("reviewer", .text reviewer), ("reviewNotes", .text notes),
      ("artifactPath", .text artifactPath), ("message", .text notes),
      ("createdBy", .text reviewer), ("createdAtUnixMs", .number now)]
  | heartbeat agentName host currentTaskId expires statusLine now =>
    [("schema", .text (bytes "woventeam.heartbeat.v0.1")), ("agent", .text agentName),
      ("host", .text host), ("currentTaskId", .text currentTaskId),
      ("leaseExpiresAtUnixMs", .number expires), ("statusLine", .text statusLine),
      ("createdAtUnixMs", .number now)]
  | milestone taskId name message createdBy now =>
    [("schema", .text (bytes "woventeam.milestone.v0.1")), ("taskId", .text taskId),
      ("milestone", .text name), ("message", .text message), ("createdBy", .text createdBy),
      ("createdAtUnixMs", .number now)]
  | kill taskId reason createdBy now =>
    [("schema", .text (bytes "woventeam.kill_event.v0.1")), ("taskId", .text taskId),
      ("reason", .text reason), ("createdBy", .text createdBy), ("createdAtUnixMs", .number now)]
  | autonomy taskId actor target action commandClass autonomyLevel reason allowed exitCode now =>
    [("schema", .text (bytes "woventeam.autonomy_event.v0.1")), ("taskId", .text taskId),
      ("actor", .text actor), ("target", .text target), ("action", .text action),
      ("commandClass", .text commandClass), ("autonomyLevel", .text autonomyLevel),
      ("reason", .text reason), ("allowed", .flag allowed), ("exitCode", .number exitCode),
      ("createdAtUnixMs", .number now)]

/-- The value of a key, where the record has it. -/
def StoreEvent.field (event : StoreEvent) (k : String) : Option FieldValue :=
  fieldNamed event.fields k

theorem StoreEvent.fieldNames (event : StoreEvent) :
    ∀ field ∈ event.fields, FieldName field.1 := by
  refine fieldNames_of_check ?_
  cases event with
  | status taskId newStatus createdBy message retryCause now =>
    by_cases hcause : retryCause = []
    · simp only [fields, hcause, ↓reduceIte, List.map_append, List.map_cons, List.map_nil]
      rfl
    · simp only [fields, hcause, ↓reduceIte, List.map_append, List.map_cons, List.map_nil]
      rfl
  | _ =>
    simp only [fields, List.map_cons, List.map_nil]
    rfl

/-! ## What is appended -/

theorem wtJsonEscape_text {input : Bytes} {output : Literal} {size : Nat}
    (h : wtJsonEscape input size = some output) :
    output.text = input.flatMap escapePiece ∧ output.text.length < size := by
  refine ⟨?_, (wtJsonEscape_eq h).2⟩
  unfold wtJsonEscape at h
  split at h
  · cases h
  · cases h
    rfl

/-- A record that prints fields and fits its buffer is appended as their line. -/
theorem append_printRecord {ledger : Ledger} {record : Members} {size : Nat} {f : List Field}
    (hitems : record.items = fieldItems f)
    (hfits : (render (fieldItems f)).length + 1 < size) (hsize : size < wtTaskLedgerLineSize) :
    wtTaskAppendRecord ledger (printRecord size record) = ledger ++ [fieldsLine f] := by
  have hobject : record.object = 123 :: render (fieldItems f) := by
    rw [Members.object, hitems]
  have hlen : record.object.length < size := by
    rw [hobject, List.length_cons]
    exact hfits
  rw [printRecord_of_fits hlen, wtTaskAppendRecord_object ledger (by omega), recordLine, hobject]
  rfl

section append

variable {ledger ledger' : Ledger} {event : StoreEvent}

theorem length_taskEventSchema :
    ((bytes "woventeam.task_event.v0.1").flatMap escapePiece).length = 25 := by decide

theorem append_kill {taskId reason createdBy : Bytes} {now : Long}
    (hevent : event = .kill taskId reason createdBy now)
    (h : event.append ledger = some ledger') : ledger' = ledger ++ [fieldsLine event.fields] := by
  subst hevent
  simp only [StoreEvent.append, wtTaskAppendKillEvent, Option.pure_def, Option.bind_eq_bind,
    Option.bind_eq_some_iff, Option.some.injEq] at h
  obtain ⟨a, ha, b, hb, c, hc, rfl⟩ := h
  obtain ⟨ha, hla⟩ := wtJsonEscape_text ha
  obtain ⟨hb, hlb⟩ := wtJsonEscape_text hb
  obtain ⟨hc, hlc⟩ := wtJsonEscape_text hc
  refine append_printRecord ?_ ?_ (by decide)
  · simp only [StoreEvent.fields, fieldItems, FieldValue.items, ← ha, ← hb, ← hc]
    rfl
  · have := length_decimal now.2
    have hschema : ((bytes "woventeam.kill_event.v0.1").flatMap escapePiece).length = 25 := by
      decide
    simp only [length_fieldItems, StoreEvent.fields, List.map_cons, List.map_nil, List.sum_cons,
      List.sum_nil, FieldValue.length, ← ha, ← hb, ← hc, hschema, length_bytes,
      String.reduceToList, List.length_cons, List.length_nil]
    simp only [wtTaskIdSize, wtTaskAgentSize] at *
    omega

theorem append_milestone {taskId name message createdBy : Bytes} {now : Long}
    (hevent : event = .milestone taskId name message createdBy now)
    (h : event.append ledger = some ledger') : ledger' = ledger ++ [fieldsLine event.fields] := by
  subst hevent
  simp only [StoreEvent.append, wtTaskAppendMilestone, Option.pure_def, Option.bind_eq_bind,
    Option.bind_eq_some_iff, Option.some.injEq] at h
  obtain ⟨a, ha, b, hb, c, hc, d, hd, rfl⟩ := h
  obtain ⟨ha, hla⟩ := wtJsonEscape_text ha
  obtain ⟨hb, hlb⟩ := wtJsonEscape_text hb
  obtain ⟨hc, hlc⟩ := wtJsonEscape_text hc
  obtain ⟨hd, hld⟩ := wtJsonEscape_text hd
  refine append_printRecord ?_ ?_ (by decide)
  · simp only [StoreEvent.fields, fieldItems, FieldValue.items, ← ha, ← hb, ← hc, ← hd]
    rfl
  · have := length_decimal now.2
    have hschema : ((bytes "woventeam.milestone.v0.1").flatMap escapePiece).length = 24 := by
      decide
    simp only [length_fieldItems, StoreEvent.fields, List.map_cons, List.map_nil, List.sum_cons,
      List.sum_nil, FieldValue.length, ← ha, ← hb, ← hc, ← hd, hschema, length_bytes,
      String.reduceToList, List.length_cons, List.length_nil]
    simp only [wtTaskIdSize, wtTaskAgentSize, wtTaskBodySize] at *
    omega

theorem append_heartbeat {agentName host currentTaskId statusLine : Bytes} {expires now : Long}
    (hevent : event = .heartbeat agentName host currentTaskId expires statusLine now)
    (h : event.append ledger = some ledger') : ledger' = ledger ++ [fieldsLine event.fields] := by
  subst hevent
  simp only [StoreEvent.append, wtTaskAppendHeartbeat, Option.pure_def, Option.bind_eq_bind,
    Option.bind_eq_some_iff, Option.some.injEq] at h
  obtain ⟨a, ha, b, hb, c, hc, d, hd, rfl⟩ := h
  obtain ⟨ha, hla⟩ := wtJsonEscape_text ha
  obtain ⟨hb, hlb⟩ := wtJsonEscape_text hb
  obtain ⟨hc, hlc⟩ := wtJsonEscape_text hc
  obtain ⟨hd, hld⟩ := wtJsonEscape_text hd
  refine append_printRecord ?_ ?_ (by decide)
  · simp only [StoreEvent.fields, fieldItems, FieldValue.items, ← ha, ← hb, ← hc, ← hd]
    rfl
  · have := length_decimal expires.2
    have := length_decimal now.2
    have hschema : ((bytes "woventeam.heartbeat.v0.1").flatMap escapePiece).length = 24 := by
      decide
    simp only [length_fieldItems, StoreEvent.fields, List.map_cons, List.map_nil, List.sum_cons,
      List.sum_nil, FieldValue.length, ← ha, ← hb, ← hc, ← hd, hschema, length_bytes,
      String.reduceToList, List.length_cons, List.length_nil]
    simp only [wtTaskIdSize, wtTaskAgentSize, wtTaskBodySize] at *
    omega

theorem append_artifact {taskId state reviewer notes artifactPath : Bytes} {now : Long}
    (hevent : event = .artifact taskId state reviewer notes artifactPath now)
    (h : event.append ledger = some ledger') : ledger' = ledger ++ [fieldsLine event.fields] := by
  subst hevent
  simp only [StoreEvent.append, wtTaskAppendArtifactEvent, Option.pure_def, Option.bind_eq_bind,
    Option.bind_eq_some_iff, Option.some.injEq] at h
  obtain ⟨a, ha, b, hb, c, hc, d, hd, e, he, rfl⟩ := h
  obtain ⟨ha, hla⟩ := wtJsonEscape_text ha
  obtain ⟨hb, hlb⟩ := wtJsonEscape_text hb
  obtain ⟨hc, hlc⟩ := wtJsonEscape_text hc
  obtain ⟨hd, hld⟩ := wtJsonEscape_text hd
  obtain ⟨he, hle⟩ := wtJsonEscape_text he
  refine append_printRecord ?_ ?_ (by decide)
  · simp only [StoreEvent.fields, fieldItems, FieldValue.items, ← ha, ← hb, ← hc, ← hd, ← he]
    rfl
  · have := length_decimal now.2
    have htype : ((bytes "artifact").flatMap escapePiece).length = 8 := by decide
    simp only [length_fieldItems, StoreEvent.fields, List.map_cons, List.map_nil, List.sum_cons,
      List.sum_nil, FieldValue.length, ← ha, ← hb, ← hc, ← hd, ← he, length_taskEventSchema, htype,
      length_bytes, String.reduceToList, List.length_cons, List.length_nil]
    simp only [wtTaskIdSize, wtTaskAgentSize, wtTaskBodySize] at *
    omega

theorem append_reclaim {taskId previousAgent reclaimedBy reason message : Bytes} {now : Long}
    (hevent : event = .reclaim taskId previousAgent reclaimedBy reason message now)
    (h : event.append ledger = some ledger') : ledger' = ledger ++ [fieldsLine event.fields] := by
  subst hevent
  simp only [StoreEvent.append, wtTaskAppendReclaimEvent, Option.pure_def, Option.bind_eq_bind,
    Option.bind_eq_some_iff, Option.some.injEq] at h
  obtain ⟨a, ha, b, hb, e, he, c, hc, d, hd, rfl⟩ := h
  obtain ⟨ha, hla⟩ := wtJsonEscape_text ha
  obtain ⟨hb, hlb⟩ := wtJsonEscape_text hb
  obtain ⟨he, hle⟩ := wtJsonEscape_text he
  obtain ⟨hc, hlc⟩ := wtJsonEscape_text hc
  obtain ⟨hd, hld⟩ := wtJsonEscape_text hd
  refine append_printRecord ?_ ?_ (by decide)
  · simp only [StoreEvent.fields, fieldItems, FieldValue.items, ← ha, ← hb, ← he, ← hc, ← hd]
    rfl
  · have := length_decimal now.2
    have htype : ((bytes "reclaim").flatMap escapePiece).length = 7 := by decide
    have hstatus : ((bytes "queued").flatMap escapePiece).length = 6 := by decide
    simp only [length_fieldItems, StoreEvent.fields, List.map_cons, List.map_nil, List.sum_cons,
      List.sum_nil, FieldValue.length, ← ha, ← hb, ← he, ← hc, ← hd, length_taskEventSchema, htype,
      hstatus, length_bytes, String.reduceToList, List.length_cons, List.length_nil]
    simp only [wtTaskIdSize, wtTaskAgentSize] at *
    omega

theorem append_lease {taskId agentName : Bytes} {attempt expires now : Long}
    (hevent : event = .lease taskId agentName attempt expires now)
    (h : event.append ledger = some ledger') : ledger' = ledger ++ [fieldsLine event.fields] := by
  subst hevent
  simp only [StoreEvent.append, wtTaskAppendLeaseEvent, Option.pure_def, Option.bind_eq_bind,
    Option.bind_eq_some_iff, Option.some.injEq] at h
  obtain ⟨a, ha, b, hb, c, hc, rfl⟩ := h
  obtain ⟨ha, hla⟩ := wtJsonEscape_text ha
  obtain ⟨hb, hlb⟩ := wtJsonEscape_text hb
  obtain ⟨hc, hlc⟩ := wtJsonEscape_text hc
  have hagent : (bytes "wt-agent@").flatMap escapePiece = bytes "wt-agent@" := by decide
  refine append_printRecord ?_ ?_ (by decide)
  · simp only [StoreEvent.fields, fieldItems, FieldValue.items, ← ha, ← hb, ← hc,
      List.flatMap_append, hagent]
    rfl
  · have := length_decimal attempt.2
    have := length_decimal expires.2
    have := length_decimal now.2
    have htype : ((bytes "lease").flatMap escapePiece).length = 5 := by decide
    have hstatus : ((bytes "leased").flatMap escapePiece).length = 6 := by decide
    simp only [length_fieldItems, StoreEvent.fields, List.map_cons, List.map_nil, List.sum_cons,
      List.sum_nil, FieldValue.length, List.flatMap_append, List.length_append, hagent, ← ha, ← hb,
      ← hc, length_taskEventSchema, htype, hstatus, length_bytes, String.reduceToList,
      List.length_cons, List.length_nil]
    simp only [wtTaskIdSize, wtTaskAgentSize] at *
    omega

theorem append_leaseRenewal {taskId agentName : Bytes} {attempt expires now : Long}
    (hevent : event = .leaseRenewal taskId agentName attempt expires now)
    (h : event.append ledger = some ledger') : ledger' = ledger ++ [fieldsLine event.fields] := by
  subst hevent
  simp only [StoreEvent.append, wtTaskAppendLeaseRenewal, Option.pure_def, Option.bind_eq_bind,
    Option.bind_eq_some_iff, Option.some.injEq] at h
  obtain ⟨a, ha, b, hb, c, hc, rfl⟩ := h
  obtain ⟨ha, hla⟩ := wtJsonEscape_text ha
  obtain ⟨hb, hlb⟩ := wtJsonEscape_text hb
  obtain ⟨hc, hlc⟩ := wtJsonEscape_text hc
  have hagent : (bytes "wt-agent@").flatMap escapePiece = bytes "wt-agent@" := by decide
  refine append_printRecord ?_ ?_ (by decide)
  · simp only [StoreEvent.fields, fieldItems, FieldValue.items, ← ha, ← hb, ← hc,
      List.flatMap_append, hagent]
    rfl
  · have := length_decimal attempt.2
    have := length_decimal expires.2
    have := length_decimal now.2
    have htype : ((bytes "lease_renewal").flatMap escapePiece).length = 13 := by decide
    have hstatus : ((bytes "running").flatMap escapePiece).length = 7 := by decide
    simp only [length_fieldItems, StoreEvent.fields, List.map_cons, List.map_nil, List.sum_cons,
      List.sum_nil, FieldValue.length, List.flatMap_append, List.length_append, hagent, ← ha, ← hb,
      ← hc, length_taskEventSchema, htype, hstatus, length_bytes, String.reduceToList,
      List.length_cons, List.length_nil]
    simp only [wtTaskIdSize, wtTaskAgentSize] at *
    omega

theorem append_autonomy {taskId actor target action commandClass autonomyLevel reason : Bytes}
    {allowed : Bool} {exitCode now : Long}
    (hevent : event = .autonomy taskId actor target action commandClass autonomyLevel reason allowed
      exitCode now)
    (h : event.append ledger = some ledger') : ledger' = ledger ++ [fieldsLine event.fields] := by
  subst hevent
  simp only [StoreEvent.append, wtTaskAppendAutonomyEvent, Option.pure_def, Option.bind_eq_bind,
    Option.bind_eq_some_iff, Option.some.injEq] at h
  obtain ⟨a, ha, b, hb, c, hc, d, hd, e, he, f, hf, g, hg, rfl⟩ := h
  obtain ⟨ha, hla⟩ := wtJsonEscape_text ha
  obtain ⟨hb, hlb⟩ := wtJsonEscape_text hb
  obtain ⟨hc, hlc⟩ := wtJsonEscape_text hc
  obtain ⟨hd, hld⟩ := wtJsonEscape_text hd
  obtain ⟨he, hle⟩ := wtJsonEscape_text he
  obtain ⟨hf, hlf⟩ := wtJsonEscape_text hf
  obtain ⟨hg, hlg⟩ := wtJsonEscape_text hg
  refine append_printRecord ?_ ?_ (by decide)
  · simp only [StoreEvent.fields, fieldItems, FieldValue.items, ← ha, ← hb, ← hc, ← hd, ← he, ← hf,
      ← hg]
    cases allowed <;> rfl
  · have := length_decimal exitCode.2
    have := length_decimal now.2
    have hschema : ((bytes "woventeam.autonomy_event.v0.1").flatMap escapePiece).length = 29 := by
      decide
    have hallowed : (if allowed = true then 4 else 5) ≤ 5 := by cases allowed <;> decide
    simp only [length_fieldItems, StoreEvent.fields, List.map_cons, List.map_nil, List.sum_cons,
      List.sum_nil, FieldValue.length, ← ha, ← hb, ← hc, ← hd, ← he, ← hf, ← hg, hschema,
      length_bytes, String.reduceToList, List.length_cons, List.length_nil]
    simp only [wtTaskIdSize, wtTaskAgentSize, wtTaskPolicySize] at *
    omega

theorem append_status {taskId newStatus createdBy message retryCause : Bytes} {now : Long}
    (hevent : event = .status taskId newStatus createdBy message retryCause now)
    (h : event.append ledger = some ledger') : ledger' = ledger ++ [fieldsLine event.fields] := by
  subst hevent
  have := length_decimal now.2
  have htype : ((bytes "status").flatMap escapePiece).length = 6 := by decide
  by_cases hnil : retryCause = []
  · simp only [StoreEvent.append, wtTaskAppendStatusEventWithCause, hnil, ↓reduceIte,
      Option.pure_def, Option.bind_eq_bind, Option.bind_eq_some_iff, Option.some.injEq] at h
    obtain ⟨a, ha, b, hb, d, hd, c, hc, -, rfl, rfl⟩ := h
    obtain ⟨ha, hla⟩ := wtJsonEscape_text ha
    obtain ⟨hb, hlb⟩ := wtJsonEscape_text hb
    obtain ⟨hc, hlc⟩ := wtJsonEscape_text hc
    obtain ⟨hd, hld⟩ := wtJsonEscape_text hd
    refine append_printRecord ?_ ?_ (by decide)
    · simp only [StoreEvent.fields, hnil, ↓reduceIte, List.append_nil, List.cons_append,
        List.nil_append, fieldItems, FieldValue.items, ← ha, ← hb, ← hc, ← hd]
      rfl
    · simp only [length_fieldItems, StoreEvent.fields, hnil, ↓reduceIte, List.append_nil,
        List.cons_append, List.nil_append, List.map_cons, List.map_nil, List.sum_cons,
        List.sum_nil, FieldValue.length, ← ha, ← hb, ← hc, ← hd, length_taskEventSchema, htype,
        length_bytes, String.reduceToList, List.length_cons, List.length_nil]
      simp only [wtTaskIdSize, wtTaskAgentSize, wtTaskStatusSize] at *
      omega
  · simp only [StoreEvent.append, wtTaskAppendStatusEventWithCause, hnil, ↓reduceIte,
      Option.pure_def, Option.bind_eq_bind, Option.bind_eq_some_iff, Option.map_eq_some_iff,
      Option.some.injEq] at h
    obtain ⟨a, ha, b, hb, d, hd, c, hc, -, ⟨e, he, rfl⟩, rfl⟩ := h
    obtain ⟨ha, hla⟩ := wtJsonEscape_text ha
    obtain ⟨hb, hlb⟩ := wtJsonEscape_text hb
    obtain ⟨hc, hlc⟩ := wtJsonEscape_text hc
    obtain ⟨hd, hld⟩ := wtJsonEscape_text hd
    obtain ⟨he, hle⟩ := wtJsonEscape_text he
    refine append_printRecord ?_ ?_ (by decide)
    · simp only [StoreEvent.fields, hnil, ↓reduceIte, List.cons_append, List.nil_append,
        fieldItems, FieldValue.items, ← ha, ← hb, ← hc, ← hd, ← he]
      rfl
    · simp only [length_fieldItems, StoreEvent.fields, hnil, ↓reduceIte, List.cons_append,
        List.nil_append, List.map_cons, List.map_nil, List.sum_cons, List.sum_nil,
        FieldValue.length, ← ha, ← hb, ← hc, ← hd, ← he, length_taskEventSchema, htype,
        length_bytes, String.reduceToList, List.length_cons, List.length_nil]
      simp only [wtTaskIdSize, wtTaskAgentSize, wtTaskStatusSize] at *
      omega

/-- **An append that succeeds adds the line of the event's fields.** -/
theorem StoreEvent.append_eq (h : event.append ledger = some ledger') :
    ledger' = ledger ++ [fieldsLine event.fields] := by
  cases hevent : event with
  | lease => exact hevent ▸ append_lease hevent h
  | leaseRenewal => exact hevent ▸ append_leaseRenewal hevent h
  | status => exact hevent ▸ append_status hevent h
  | reclaim => exact hevent ▸ append_reclaim hevent h
  | artifact => exact hevent ▸ append_artifact hevent h
  | heartbeat => exact hevent ▸ append_heartbeat hevent h
  | milestone => exact hevent ▸ append_milestone hevent h
  | kill => exact hevent ▸ append_kill hevent h
  | autonomy => exact hevent ▸ append_autonomy hevent h

end append

/-! ## Isolation -/

/-- **A key of two appended lines reads the same where its value is the same, and a key that a
record does not have is absent**: no text in one field can forge or alter another. -/
theorem fields_isolated {event event' : StoreEvent} {ledger ledger' after after' : Ledger}
    (h : event.append ledger = some after) (h' : event'.append ledger' = some after') {k : String}
    (hk : SearchKey k) :
    ∃ line line', after = ledger ++ [line] ∧ after' = ledger' ++ [line'] ∧
      (event.field k = event'.field k →
        (∀ size, wtJsonReadString line k size = wtJsonReadString line' k size) ∧
          wtJsonReadLongLong line k = wtJsonReadLongLong line' k) ∧
      (event.field k = none →
        (∀ size, wtJsonReadString line k size = .absent) ∧ wtJsonReadLongLong line k = none) := by
  refine ⟨_, _, event.append_eq h, event'.append_eq h', fun heq => ?_, fun hnone => ?_⟩
  · refine ⟨fun size => ?_, ?_⟩
    · rw [readString_fields event.fieldNames hk, readString_fields event'.fieldNames hk]
      exact congrArg (fun value => (value.map (·.readString size)).getD .absent) heq
    · rw [readLong_fields event.fieldNames hk, readLong_fields event'.fieldNames hk]
      exact congrArg (fun value => value.bind (·.readLong)) heq
  · have hnamed : fieldNamed event.fields k = none := hnone
    refine ⟨fun size => ?_, ?_⟩
    · rw [readString_fields event.fieldNames hk, hnamed]
      rfl
    · rw [readLong_fields event.fieldNames hk, hnamed]
      rfl

theorem int64_zero : Int64 0 := by decide

/-- A request to stop a task, at time 0. -/
def killOf (taskId reason : Bytes) : StoreEvent := .kill taskId reason (bytes "ceo") ⟨0, int64_zero⟩

theorem fields_isolated_reason :
    ∃ line line', (killOf (bytes "t") (bytes "a\",\"taskId\":\"u")).append [] = some [line] ∧
      (killOf (bytes "t") (bytes "b")).append [] = some [line'] ∧
      wtJsonReadString line "taskId" 128 = wtJsonReadString line' "taskId" 128 := by
  have hsome : ∀ reason ∈ [bytes "a\",\"taskId\":\"u", bytes "b"],
      ((killOf (bytes "t") reason).append []).isSome := by decide +kernel
  obtain ⟨after, h⟩ := Option.isSome_iff_exists.mp (hsome (bytes "a\",\"taskId\":\"u") (by simp))
  obtain ⟨after', h'⟩ := Option.isSome_iff_exists.mp (hsome (bytes "b") (by simp))
  have hk : SearchKey "taskId" := ⟨by decide, by decide, by decide, by decide⟩
  obtain ⟨line, line', hline, hline', hsame, -⟩ := fields_isolated h h' hk
  exact ⟨line, line', h.trans (congrArg some hline), h'.trans (congrArg some hline'),
    (hsame rfl).1 128⟩

/-- The key of a single colon is found between the quotes of a key and of a value that begins with a
colon. -/
theorem not_fields_isolated : ¬ ∀ (event : StoreEvent) (ledger : Ledger) (line : Bytes) (k : String)
    (size : Nat), event.append ledger = some (ledger ++ [line]) → event.field k = none →
      wtJsonReadString line k size = .absent := by
  intro hall
  have hsome : ((killOf (bytes ":") []).append []).isSome := by decide +kernel
  obtain ⟨after, h⟩ := Option.isSome_iff_exists.mp hsome
  have hline := StoreEvent.append_eq h
  have hread : wtJsonReadString (fieldsLine (killOf (bytes ":") []).fields) ":" 64 ≠ .absent := by
    decide +kernel
  exact hread (hall (killOf (bytes ":") []) [] _ ":" 64 (hline ▸ h) (by decide))

end WovenTeam

import WovenTeam.Store.Ledger

/-!
# Records of the task store

The `wtTaskAppend…` functions of `wt_task_store.c`. Each escapes its arguments into buffers of
fixed sizes, gives up where one does not fit, and prints one record. The escaped arguments are
`Literal`s, so a record is well-formed quoted text by construction and the readers' lemmas for
printed records apply to it. The record buffers are large enough for every argument that was
escaped (`leaseRecord_fits` and its companions), so no record is cut.

The clock is a parameter: `now` is what `wtNowUnixMilliseconds` returns to the call.
-/

namespace WovenTeam

open CText QuotedText

/-- `snprintf(json, sizeof(json), …)` of a record. -/
def printRecord (size : Nat) (record : Members) : Bytes := snprintf size record.object

theorem printRecord_of_fits {size : Nat} {record : Members} (h : record.object.length < size) :
    printRecord size record = record.object := snprintf_of_lt h

/-- A time or another value of a 64-bit type. -/
def Int64 (n : Int) : Prop := -2 ^ 63 ≤ n ∧ n < 2 ^ 63

instance (n : Int) : Decidable (Int64 n) := by unfold Int64; infer_instance

theorem int64_wrap64 (n : Int) : Int64 (wrap64 n) := by
  have hle := Int.le_bmod (x := n) (m := 2 ^ 64) (by decide)
  have hlt := Int.bmod_lt (x := n) (m := 2 ^ 64) (by decide)
  unfold Int64 wrap64
  omega

theorem int64_toInt32 (n : Int) : Int64 (toInt32 n) := by
  have hle := Int.le_bmod (x := n) (m := 2 ^ 32) (by decide)
  have hlt := Int.bmod_lt (x := n) (m := 2 ^ 32) (by decide)
  unfold Int64 toInt32
  omega

/-! ## Leases -/

def leaseRecord (escapedTaskId escapedAgent escapedMessage : Literal)
    (attempt leaseExpiresAtUnixMs now : Int) : Members :=
  str "schema" (.ofPlain "woventeam.task_event.v0.1") ++ str "taskId" escapedTaskId ++
  str "eventType" (.ofPlain "lease") ++ str "status" (.ofPlain "leased") ++
  str "assignedAgent" escapedAgent ++
  str "message" escapedMessage ++ str "createdBy" (.ofPlain "wt-agent@" ++ escapedAgent) ++
  num "attempt" attempt ++
  num "leaseExpiresAtUnixMs" leaseExpiresAtUnixMs ++ num "createdAtUnixMs" now "\x7d"

def wtTaskAppendLeaseEvent (ledger : Ledger) (taskId agentName : Bytes)
    (attempt leaseExpiresAtUnixMs now : Int) : Option Ledger := do
  let message := snprintf 256 (bytes "Task leased by wt-agent@" ++ agentName ++
    bytes " attempt " ++ decimal attempt ++ bytes ".")
  let escapedTaskId ← wtJsonEscape taskId (wtTaskIdSize * 2)
  let escapedAgent ← wtJsonEscape agentName (wtTaskAgentSize * 2)
  let escapedMessage ← wtJsonEscape message 512
  return wtTaskAppendRecord ledger (printRecord 2048
    (leaseRecord escapedTaskId escapedAgent escapedMessage attempt leaseExpiresAtUnixMs now))

def leaseRenewalRecord (escapedTaskId escapedAgent escapedMessage : Literal)
    (attempt leaseExpiresAtUnixMs now : Int) : Members :=
  str "schema" (.ofPlain "woventeam.task_event.v0.1") ++ str "taskId" escapedTaskId ++
  str "eventType" (.ofPlain "lease_renewal") ++ str "status" (.ofPlain "running") ++
  str "assignedAgent" escapedAgent ++ str "message" escapedMessage ++
  str "createdBy" (.ofPlain "wt-agent@" ++ escapedAgent) ++ num "attempt" attempt ++
  num "leaseExpiresAtUnixMs" leaseExpiresAtUnixMs ++ num "createdAtUnixMs" now "\x7d"

def wtTaskAppendLeaseRenewal (ledger : Ledger) (taskId agentName : Bytes)
    (attempt leaseExpiresAtUnixMs now : Int) : Option Ledger := do
  let message := snprintf 256 (bytes "Lease renewed by wt-agent@" ++ agentName ++
    bytes " attempt " ++ decimal attempt ++ bytes "; extended to " ++
    decimal leaseExpiresAtUnixMs ++ bytes ".")
  let escapedTaskId ← wtJsonEscape taskId (wtTaskIdSize * 2)
  let escapedAgent ← wtJsonEscape agentName (wtTaskAgentSize * 2)
  let escapedMessage ← wtJsonEscape message 512
  return wtTaskAppendRecord ledger (printRecord 2048
    (leaseRenewalRecord escapedTaskId escapedAgent escapedMessage attempt leaseExpiresAtUnixMs
      now))

def reclaimRecord (escapedTaskId escapedPreviousAgent escapedReason escapedMessage
    escapedReclaimedBy : Literal) (now : Int) : Members :=
  str "schema" (.ofPlain "woventeam.task_event.v0.1") ++ str "taskId" escapedTaskId ++
  str "eventType" (.ofPlain "reclaim") ++ str "status" (.ofPlain "queued") ++
  str "assignedAgent" escapedPreviousAgent ++
  str "reclaimReason" escapedReason ++ str "message" escapedMessage ++
  str "createdBy" escapedReclaimedBy ++
  num "createdAtUnixMs" now "\x7d"

def wtTaskAppendReclaimEvent (ledger : Ledger)
    (taskId previousAgent reclaimedBy reason message : Bytes) (now : Int) : Option Ledger := do
  let escapedTaskId ← wtJsonEscape taskId (wtTaskIdSize * 2)
  let escapedPreviousAgent ← wtJsonEscape previousAgent (wtTaskAgentSize * 2)
  let escapedReclaimedBy ← wtJsonEscape reclaimedBy (wtTaskAgentSize * 2)
  let escapedReason ← wtJsonEscape reason 64
  let escapedMessage ← wtJsonEscape message 1024
  return wtTaskAppendRecord ledger (printRecord 2400
    (reclaimRecord escapedTaskId escapedPreviousAgent escapedReason escapedMessage
      escapedReclaimedBy now))

/-! ## Status, artifact, kill and autonomy events -/

/-- The record of a status event; the cause stands in it only where there is one. -/
def statusRecord (escapedTaskId escapedStatus escapedMessage : Literal)
    (escapedRetryCause : Option Literal) (escapedBy : Literal) (now : Int) : Members :=
  let head := str "schema" (.ofPlain "woventeam.task_event.v0.1") ++ str "taskId" escapedTaskId ++
    str "eventType" (.ofPlain "status") ++ str "status" escapedStatus ++
    str "message" escapedMessage
  let tail := str "createdBy" escapedBy ++ num "createdAtUnixMs" now "\x7d"
  match escapedRetryCause with
  | some cause => head ++ str "retryCause" cause ++ tail
  | none => head ++ tail

def wtTaskAppendStatusEventWithCause (ledger : Ledger)
    (taskId status createdBy message retryCause : Bytes) (now : Int) : Option Ledger := do
  let escapedTaskId ← wtJsonEscape taskId (wtTaskIdSize * 2)
  let escapedStatus ← wtJsonEscape status (wtTaskStatusSize * 2)
  let escapedBy ← wtJsonEscape createdBy (wtTaskAgentSize * 2)
  let escapedMessage ← wtJsonEscape message 1024
  let escapedRetryCause ←
    if retryCause = [] then some none else (wtJsonEscape retryCause 64).map some
  return wtTaskAppendRecord ledger (printRecord 2400
    (statusRecord escapedTaskId escapedStatus escapedMessage escapedRetryCause escapedBy now))

def wtTaskAppendStatusEvent (ledger : Ledger) (taskId status createdBy message : Bytes)
    (now : Int) : Option Ledger :=
  wtTaskAppendStatusEventWithCause ledger taskId status createdBy message [] now

def artifactRecord (escapedTaskId escapedState escapedReviewer escapedNotes
    escapedPath : Literal) (now : Int) : Members :=
  str "schema" (.ofPlain "woventeam.task_event.v0.1") ++ str "taskId" escapedTaskId ++
  str "eventType" (.ofPlain "artifact") ++ str "artifactState" escapedState ++
  str "reviewer" escapedReviewer ++ str "reviewNotes" escapedNotes ++
  str "artifactPath" escapedPath ++ str "message" escapedNotes ++
  str "createdBy" escapedReviewer ++ num "createdAtUnixMs" now "\x7d"

def wtTaskAppendArtifactEvent (ledger : Ledger)
    (taskId state reviewer notes artifactPath : Bytes) (now : Int) : Option Ledger := do
  let escapedTaskId ← wtJsonEscape taskId (wtTaskIdSize * 2)
  let escapedState ← wtJsonEscape state 64
  let escapedReviewer ← wtJsonEscape reviewer (wtTaskAgentSize * 2)
  let escapedNotes ← wtJsonEscape notes (wtTaskBodySize * 2)
  let escapedPath ← wtJsonEscape artifactPath 1024
  return wtTaskAppendRecord ledger (printRecord (wtTaskBodySize * 5 + 2048)
    (artifactRecord escapedTaskId escapedState escapedReviewer escapedNotes escapedPath now))

def killRecord (escapedTaskId escapedReason escapedBy : Literal) (now : Int) : Members :=
  str "schema" (.ofPlain "woventeam.kill_event.v0.1") ++ str "taskId" escapedTaskId ++
  str "reason" escapedReason ++ str "createdBy" escapedBy ++
  num "createdAtUnixMs" now "\x7d"

def wtTaskAppendKillEvent (ledger : Ledger) (taskId reason createdBy : Bytes) (now : Int) :
    Option Ledger := do
  let escapedTaskId ← wtJsonEscape taskId (wtTaskIdSize * 2)
  let escapedReason ← wtJsonEscape reason 128
  let escapedBy ← wtJsonEscape createdBy (wtTaskAgentSize * 2)
  return wtTaskAppendRecord ledger (printRecord 1024
    (killRecord escapedTaskId escapedReason escapedBy now))

def autonomyRecord (escapedTaskId escapedActor escapedTarget escapedAction escapedCommandClass
    escapedAutonomyLevel escapedReason : Literal) (allowed : Bool) (exitCode now : Int) :
    Members :=
  str "schema" (.ofPlain "woventeam.autonomy_event.v0.1") ++ str "taskId" escapedTaskId ++
  str "actor" escapedActor ++ str "target" escapedTarget ++ str "action" escapedAction ++
  str "commandClass" escapedCommandClass ++ str "autonomyLevel" escapedAutonomyLevel ++
  str "reason" escapedReason ++
  (if allowed then raw "allowed" "true," else raw "allowed" "false,") ++
  num "exitCode" exitCode ++ num "createdAtUnixMs" now "\x7d"

def wtTaskAppendAutonomyEvent (ledger : Ledger)
    (taskId actor target action commandClass autonomyLevel reason : Bytes) (allowed : Bool)
    (exitCode now : Int) : Option Ledger := do
  let escapedTaskId ← wtJsonEscape taskId (wtTaskIdSize * 2)
  let escapedActor ← wtJsonEscape actor (wtTaskAgentSize * 2)
  let escapedTarget ← wtJsonEscape target (wtTaskAgentSize * 2)
  let escapedAction ← wtJsonEscape action 64
  let escapedCommandClass ← wtJsonEscape commandClass 128
  let escapedAutonomyLevel ← wtJsonEscape autonomyLevel (wtTaskPolicySize * 2)
  let escapedReason ← wtJsonEscape reason 256
  return wtTaskAppendRecord ledger (printRecord 2048
    (autonomyRecord escapedTaskId escapedActor escapedTarget escapedAction escapedCommandClass
      escapedAutonomyLevel escapedReason allowed exitCode now))

/-! ## Heartbeats and milestones -/

def heartbeatRecord (escapedAgent escapedHost escapedTaskId escapedStatus : Literal)
    (leaseExpiresAtUnixMs now : Int) : Members :=
  str "schema" (.ofPlain "woventeam.heartbeat.v0.1") ++ str "agent" escapedAgent ++
  str "host" escapedHost ++ str "currentTaskId" escapedTaskId ++
  num "leaseExpiresAtUnixMs" leaseExpiresAtUnixMs ++ str "statusLine" escapedStatus ++
  num "createdAtUnixMs" now "\x7d"

def wtTaskAppendHeartbeat (ledger : Ledger) (agentName host currentTaskId : Bytes)
    (leaseExpiresAtUnixMs : Int) (statusLine : Bytes) (now : Int) : Option Ledger := do
  let escapedAgent ← wtJsonEscape agentName (wtTaskAgentSize * 2)
  let escapedHost ← wtJsonEscape host 128
  let escapedTaskId ← wtJsonEscape currentTaskId (wtTaskIdSize * 2)
  let escapedStatus ← wtJsonEscape statusLine wtTaskBodySize
  return wtTaskAppendRecord ledger (printRecord (wtTaskBodySize * 2 + 1024)
    (heartbeatRecord escapedAgent escapedHost escapedTaskId escapedStatus leaseExpiresAtUnixMs
      now))

def milestoneRecord (escapedTaskId escapedMilestone escapedMessage escapedBy : Literal)
    (now : Int) : Members :=
  str "schema" (.ofPlain "woventeam.milestone.v0.1") ++ str "taskId" escapedTaskId ++
  str "milestone" escapedMilestone ++ str "message" escapedMessage ++
  str "createdBy" escapedBy ++ num "createdAtUnixMs" now "\x7d"

def wtTaskAppendMilestone (ledger : Ledger) (taskId milestone message createdBy : Bytes)
    (now : Int) : Option Ledger := do
  let escapedTaskId ← wtJsonEscape taskId (wtTaskIdSize * 2)
  let escapedMilestone ← wtJsonEscape milestone 64
  let escapedMessage ← wtJsonEscape message wtTaskBodySize
  let escapedBy ← wtJsonEscape createdBy (wtTaskAgentSize * 2)
  return wtTaskAppendRecord ledger (printRecord (wtTaskBodySize * 2 + 1024)
    (milestoneRecord escapedTaskId escapedMilestone escapedMessage escapedBy now))

/-! ## No record is cut -/

section fits

variable {a b c d e : Literal} {attempt expires now : Int}

theorem leaseRecord_fits (ha : a.text.length < wtTaskIdSize * 2)
    (hb : b.text.length < wtTaskAgentSize * 2) (hc : c.text.length < 512) (h1 : Int64 attempt)
    (h2 : Int64 expires) (h3 : Int64 now) :
    (leaseRecord a b c attempt expires now).object.length < 2048 := by
  have := length_decimal h1
  have := length_decimal h2
  have := length_decimal h3
  simp only [wtTaskIdSize, wtTaskAgentSize] at ha hb
  unfold leaseRecord str num Literal.ofPlain
  simp [Members.length_object, render, Item.render]
  omega

theorem reclaimRecord_fits (ha : a.text.length < wtTaskIdSize * 2)
    (hb : b.text.length < wtTaskAgentSize * 2) (hc : c.text.length < 64)
    (hd : d.text.length < 1024) (he : e.text.length < wtTaskAgentSize * 2) (h : Int64 now) :
    (reclaimRecord a b c d e now).object.length < 2400 := by
  have := length_decimal h
  simp only [wtTaskIdSize, wtTaskAgentSize] at ha hb he
  unfold reclaimRecord str num Literal.ofPlain
  simp [Members.length_object, render, Item.render]
  omega

theorem statusRecord_fits (ha : a.text.length < wtTaskIdSize * 2)
    (hb : b.text.length < wtTaskStatusSize * 2) (hc : c.text.length < 1024)
    (hd : d.text.length < wtTaskAgentSize * 2) (h : Int64 now) :
    (statusRecord a b c none d now).object.length < 2400 := by
  have := length_decimal h
  simp only [wtTaskIdSize, wtTaskStatusSize, wtTaskAgentSize] at ha hb hd
  unfold statusRecord str num Literal.ofPlain
  simp [Members.length_object, render, Item.render]
  omega

end fits

/-- A reclaim that is appended is one line with its arguments escaped. -/
theorem wtTaskAppendReclaimEvent_eq {ledger ledger' : Ledger}
    {taskId previousAgent reclaimedBy reason message : Bytes} {now : Int} (hnow : Int64 now)
    (h : wtTaskAppendReclaimEvent ledger taskId previousAgent reclaimedBy reason message now =
      some ledger') :
    ∃ a b c d e, unescape a.text = reread taskId ∧ unescape b.text = reread previousAgent ∧
      ledger' = ledger ++ [recordLine (reclaimRecord a b c d e now)] := by
  simp only [wtTaskAppendReclaimEvent, Option.pure_def, Option.bind_eq_bind,
    Option.bind_eq_some_iff] at h
  obtain ⟨a, ha, b, hb, e, he, c, hc, d, hd, heq⟩ := h
  have hfits := reclaimRecord_fits (wtJsonEscape_eq ha).2 (wtJsonEscape_eq hb).2
    (wtJsonEscape_eq hc).2 (wtJsonEscape_eq hd).2 (wtJsonEscape_eq he).2 hnow
  refine ⟨a, b, c, d, e, (wtJsonEscape_eq ha).1, (wtJsonEscape_eq hb).1, ?_⟩
  rw [printRecord_of_fits hfits, wtTaskAppendRecord_object ledger (by
    simp only [wtTaskLedgerLineSize]
    omega)] at heq
  exact (Option.some.inj heq).symm

/-- A lease that is appended is one line with its arguments escaped. -/
theorem wtTaskAppendLeaseEvent_eq {ledger ledger' : Ledger} {taskId agentName : Bytes}
    {attempt expires now : Int} (hattempt : Int64 attempt) (hexpires : Int64 expires)
    (hnow : Int64 now)
    (h : wtTaskAppendLeaseEvent ledger taskId agentName attempt expires now = some ledger') :
    ∃ a b c, unescape a.text = reread taskId ∧
      ledger' = ledger ++ [recordLine (leaseRecord a b c attempt expires now)] := by
  simp only [wtTaskAppendLeaseEvent, Option.pure_def, Option.bind_eq_bind,
    Option.bind_eq_some_iff] at h
  obtain ⟨a, ha, b, hb, c, hc, heq⟩ := h
  have hfits := leaseRecord_fits (wtJsonEscape_eq ha).2 (wtJsonEscape_eq hb).2
    (wtJsonEscape_eq hc).2 hattempt hexpires hnow
  refine ⟨a, b, c, (wtJsonEscape_eq ha).1, ?_⟩
  rw [printRecord_of_fits hfits, wtTaskAppendRecord_object ledger (by
    simp only [wtTaskLedgerLineSize]
    omega)] at heq
  exact (Option.some.inj heq).symm

/-- A status event that is appended is one line with its arguments escaped. -/
theorem wtTaskAppendStatusEvent_eq {ledger ledger' : Ledger}
    {taskId status createdBy message : Bytes} {now : Int} (hnow : Int64 now)
    (h : wtTaskAppendStatusEvent ledger taskId status createdBy message now = some ledger') :
    ∃ a b c d, unescape a.text = reread taskId ∧ unescape b.text = reread status ∧
      ledger' = ledger ++ [recordLine (statusRecord a b c none d now)] := by
  simp only [wtTaskAppendStatusEvent, wtTaskAppendStatusEventWithCause, Option.pure_def,
    Option.bind_eq_bind, Option.bind_eq_some_iff, ↓reduceIte, Option.some.injEq] at h
  obtain ⟨a, ha, b, hb, d, hd, c, hc, -, rfl, heq⟩ := h
  have hfits := statusRecord_fits (wtJsonEscape_eq ha).2 (wtJsonEscape_eq hb).2
    (wtJsonEscape_eq hc).2 (wtJsonEscape_eq hd).2 hnow
  refine ⟨a, b, c, d, (wtJsonEscape_eq ha).1, (wtJsonEscape_eq hb).1, ?_⟩
  rw [printRecord_of_fits hfits, wtTaskAppendRecord_object ledger (by
    simp only [wtTaskLedgerLineSize]
    omega)] at heq
  exact heq.symm

/-! ## What the readers make of the records -/

/-- A printed record is about the task whose id its literal reads back as, where that fits. -/
theorem lineTaskId_recordLine {record : Members} {v : Literal} {f : Bytes} {js : List Item}
    (hl : lookup (bytes "taskId") record.items = some (render (⟨v.text, f⟩ :: js)))
    {taskId : Bytes} :
    lineTaskId (recordLine record) = some taskId ↔
      unescape v.text = taskId ∧ taskId.length < wtTaskIdSize := by
  by_cases hlt : (unescape v.text).length < wtTaskIdSize
  · rw [lineTaskId, recordLine, wtJsonReadString_object (.of_check rfl) quote_notMem_newline hl hlt]
    simp only [StringField.toOption, Option.some.injEq]
    exact ⟨fun h => ⟨h, h ▸ hlt⟩, And.left⟩
  · rw [lineTaskId, recordLine, wtJsonReadString_object_cut (.of_check rfl) quote_notMem_newline hl
      (by decide) (by omega)]
    simp only [StringField.toOption, reduceCtorEq, false_iff, not_and]
    rintro rfl
    exact hlt

section read

variable {a b c d e : Literal} {attempt expires now : Int}

theorem reclaimRecord_schema :
    lineHasSchema (recordLine (reclaimRecord a b c d e now)) taskEventSchema := by
  rw [lineHasSchema, recordLine, wtJsonReadString_object (.of_check rfl) quote_notMem_newline
    (v := .ofPlain "woventeam.task_event.v0.1") rfl (by decide)]
  decide

theorem reclaimRecord_taskId {taskId : Bytes} :
    lineTaskId (recordLine (reclaimRecord a b c d e now)) = some taskId ↔
      unescape a.text = taskId ∧ taskId.length < wtTaskIdSize :=
  lineTaskId_recordLine (v := a) rfl

theorem reclaimRecord_eventType :
    wtJsonReadString (recordLine (reclaimRecord a b c d e now)) "eventType" 32 =
      .ok (bytes "reclaim") :=
  wtJsonReadString_object (.of_check rfl) quote_notMem_newline (v := .ofPlain "reclaim") rfl (by decide)

theorem reclaimRecord_status :
    wtJsonReadString (recordLine (reclaimRecord a b c d e now)) "status" wtTaskStatusSize =
      .ok (bytes "queued") :=
  wtJsonReadString_object (.of_check rfl) quote_notMem_newline (v := .ofPlain "queued") rfl (by decide)

theorem reclaimRecord_assignedAgent :
    (wtJsonReadString (recordLine (reclaimRecord a b c d e now)) "assignedAgent"
      wtTaskAgentSize).written = some ((unescape b.text).take (wtTaskAgentSize - 1)) :=
  written_object (.of_check rfl) quote_notMem_newline (v := b) rfl (by decide)

theorem statusRecord_schema :
    lineHasSchema (recordLine (statusRecord a b c none d now)) taskEventSchema := by
  rw [lineHasSchema, recordLine, wtJsonReadString_object (.of_check rfl) quote_notMem_newline
    (v := .ofPlain "woventeam.task_event.v0.1") rfl (by decide)]
  decide

theorem statusRecord_taskId {taskId : Bytes} :
    lineTaskId (recordLine (statusRecord a b c none d now)) = some taskId ↔
      unescape a.text = taskId ∧ taskId.length < wtTaskIdSize :=
  lineTaskId_recordLine (v := a) rfl

theorem statusRecord_status (h : (unescape b.text).length < wtTaskStatusSize) :
    wtJsonReadString (recordLine (statusRecord a b c none d now)) "status" wtTaskStatusSize =
      .ok (unescape b.text) :=
  wtJsonReadString_object (.of_check rfl) quote_notMem_newline (v := b) rfl h

theorem leaseRecord_taskId {taskId : Bytes} :
    lineTaskId (recordLine (leaseRecord a b c attempt expires now)) = some taskId ↔
      unescape a.text = taskId ∧ taskId.length < wtTaskIdSize :=
  lineTaskId_recordLine (v := a) rfl

end read

end WovenTeam

import WovenTeam.Appends
import WovenTeam.Lib.JsonTokens
import WovenTeam.Audit

/-!
# Documents for the read endpoints

The task list, a task with its events, the audit of an initiative and the ledger as an array. What
goes wrong in them: an append that does not fit is left out, and the lines of the ledger are spliced
in as they are. `reads_whole` says what they need to come out whole.
-/

namespace WovenTeam

open CText QuotedText JsonText

section summaries

/-- `ORDER BY updated_at_ms DESC, created_at_ms DESC`. -/
def summaryOrder (a b : TaskRow) : Prop :=
  b.updatedAtMs < a.updatedAtMs ∨ a.updatedAtMs = b.updatedAtMs ∧ b.createdAtMs ≤ a.createdAtMs

instance : DecidableRel summaryOrder := fun a b =>
  inferInstanceAs (Decidable (b.updatedAtMs < a.updatedAtMs ∨
    a.updatedAtMs = b.updatedAtMs ∧ b.createdAtMs ≤ a.createdAtMs))

def summaryAppends (row : TaskRow) : List Append :=
  [Append.raw [123]] ++
  joined [keyedString "taskId" row.taskId, keyedString "initiativeId" row.initiativeId,
    keyedString "parentTaskId" row.parentTaskId,
    keyedString "requestedByRole" row.requestedByRole,
    keyedString "assignedRole" row.assignedRole, keyedString "assignedAgent" row.assignedAgent,
    keyedString "modelId" row.modelId, keyedString "priority" row.priority,
    keyedString "status" row.status, keyedString "title" row.title,
    keyedString "toolProfile" row.toolProfile] ++
  [Append.raw (snprintf 320 (nextKey "maxTokens" ++ longText row.maxTokens ++
      nextKey "createdAtUnixMs" ++ longText row.createdAtMs ++
      nextKey "updatedAtUnixMs" ++ longText row.updatedAtMs ++
      nextKey "eventCount" ++ intText row.eventCount ++ nextKey "leaseOwner")),
    .string row.leaseOwner,
    .raw (snprintf 320 (nextKey "leaseExpiresAtUnixMs" ++ longText row.leaseExpiresAtMs ++
      nextKey "leasedAtUnixMs" ++ longText row.leasedAtMs ++
      nextKey "runningAtUnixMs" ++ longText row.runningAtMs ++
      nextKey "attemptCount" ++ intText row.attemptCount ++ nextKey "failureCause")),
    .string row.failureCause,
    .raw (nextKey "lastReclaimReason"), .string row.lastReclaimReason,
    .raw (snprintf 320 (nextKey "reclaimCount" ++ intText row.reclaimCount ++
      nextKey "artifactState")),
    .string row.artifactState,
    .raw (nextKey "lastReviewer"), .string row.lastReviewer,
    .raw (nextKey "lastReviewNotes"), .string row.lastReviewNotes,
    .raw (snprintf 320 (nextKey "acceptedAtUnixMs" ++ longText row.acceptedAtMs ++
      nextKey "acceptedArtifactPath")),
    .string row.acceptedArtifactPath, .raw [125]]

def summariesAppends (rows : List TaskRow) : List Append :=
  [Append.raw [91]] ++ joined (((rows.insertionSort summaryOrder).take 200).map summaryAppends) ++
    [Append.raw [93]]

/-- The return value and the buffer. -/
def wtTaskProjectionReadSummariesJson (ledger : Ledger) (bufferSize : Nat) : Int × Bytes :=
  (0, writeAll bufferSize (summariesAppends (wtTaskProjectionRebuild ledger)))

end summaries

section detail

def detailTaskAppends (row : TaskRow) : List Append :=
  [Append.raw (123 :: (keyed "ok" ++ bytes "true" ++ nextKey "task" ++ [123]))] ++
  joined [keyedString "taskId" row.taskId, keyedString "initiativeId" row.initiativeId,
    keyedString "parentTaskId" row.parentTaskId,
    keyedString "requestedByRole" row.requestedByRole,
    keyedString "assignedRole" row.assignedRole, keyedString "assignedAgent" row.assignedAgent,
    keyedString "modelId" row.modelId, keyedString "priority" row.priority,
    keyedString "status" row.status, keyedString "title" row.title,
    keyedString "body" row.body, keyedString "toolProfile" row.toolProfile] ++
  [Append.raw (nextKey "autonomyLevel"), .string row.autonomyLevel,
    .raw (nextKey "autonomyGrant" ++ 123 :: keyed "scope"), .string row.autonomyScope,
    .raw (nextKey "network"), .string row.autonomyNetwork,
    .raw (nextKey "credentialClass"), .string row.autonomyCredentialClass,
    .raw (snprintf 256 (nextKey "ttlSeconds" ++ longText row.autonomyTtlSeconds ++
      nextKey "maxWallClockSeconds" ++ longText row.autonomyMaxWallClockSeconds ++
      nextKey "requiresCleanWorktree" ++
      boolText (toInt32 row.autonomyRequiresCleanWorktree != 0) ++ [125])),
    .raw (snprintf 256 (nextKey "maxTokens" ++ longText row.maxTokens ++
      nextKey "createdAtUnixMs" ++ longText row.createdAtMs ++
      nextKey "updatedAtUnixMs" ++ longText row.updatedAtMs ++
      nextKey "eventCount" ++ intText row.eventCount ++ nextKey "leaseOwner")),
    .string row.leaseOwner,
    .raw (snprintf 256 (nextKey "leaseExpiresAtUnixMs" ++ longText row.leaseExpiresAtMs ++
      nextKey "leasedAtUnixMs" ++ longText row.leasedAtMs ++
      nextKey "runningAtUnixMs" ++ longText row.runningAtMs ++
      nextKey "attemptCount" ++ intText row.attemptCount ++ nextKey "failureCause")),
    .string row.failureCause,
    .raw (nextKey "lastReclaimReason"), .string row.lastReclaimReason,
    .raw (snprintf 256 (nextKey "reclaimCount" ++ intText row.reclaimCount ++
      nextKey "artifactState")),
    .string row.artifactState,
    .raw (nextKey "lastReviewer"), .string row.lastReviewer,
    .raw (nextKey "lastReviewNotes"), .string row.lastReviewNotes,
    .raw (snprintf 256 (nextKey "acceptedAtUnixMs" ++ longText row.acceptedAtMs ++
      nextKey "acceptedArtifactPath")),
    .string row.acceptedArtifactPath]

/-- The event with its `id`. -/
def detailEventAppends (event : TaskEventRow × Nat) : List Append :=
  [Append.raw (snprintf 256 (123 :: (keyed "id" ++ longText event.2 ++ [comma])))] ++
  joined [keyedString "schema" event.1.schema, keyedString "eventType" event.1.eventType,
    keyedString "status" event.1.status, keyedString "assignedAgent" event.1.assignedAgent,
    keyedString "message" event.1.message, keyedString "createdBy" event.1.createdBy] ++
  [Append.raw (snprintf 256 (nextKey "createdAtUnixMs" ++ longText event.1.createdAtMs ++ [125]))]

def detailAppends (row : TaskRow) (events : List (TaskEventRow × Nat)) : List Append :=
  detailTaskAppends row ++ [Append.raw (125 :: (nextKey "events" ++ [91]))] ++
    joined (events.map detailEventAppends) ++ [Append.raw [93, 125]]

def detailEvents (ledger : Ledger) (taskId : Bytes) : List (TaskEventRow × Nat) :=
  ((projectedEvents ledger).zipIdx 1).filter fun event => event.1.taskId == taskId

def wtTaskProjectionReadDetailJson (ledger : Ledger) (taskId : Bytes) (bufferSize : Nat) :
    Int × Bytes :=
  match projectedRow ledger taskId with
  | none => (1, snprintf bufferSize (bytes "\x7b\"ok\":false,\"error\":\"task not found\"\x7d"))
  | some row => (0, writeAll bufferSize (detailAppends row (detailEvents ledger taskId)))

end detail

section audit

/-- `ORDER BY created_at_ms ASC, task_id ASC`. -/
def auditOrder (a b : TaskRow) : Prop :=
  a.createdAtMs < b.createdAtMs ∨ a.createdAtMs = b.createdAtMs ∧ a.taskId ≤ b.taskId

instance : DecidableRel auditOrder := fun a b =>
  inferInstanceAs (Decidable (a.createdAtMs < b.createdAtMs ∨
    a.createdAtMs = b.createdAtMs ∧ a.taskId ≤ b.taskId))

def initiativeRows (ledger : Ledger) (initiativeId : Bytes) : List TaskRow :=
  let rows := wtTaskProjectionRebuild ledger
  (rows.filter fun row => row.initiativeId == initiativeId).insertionSort auditOrder

/-- `SUM(max_tokens)`, with which the query fails where it overflows. -/
def tokenSum (rows : List TaskRow) : Option Int :=
  let add : Option Int → TaskRow → Option Int := fun total row =>
    total.bind fun n =>
      if -2 ^ 63 ≤ n + row.maxTokens ∧ n + row.maxTokens < 2 ^ 63 then some (n + row.maxTokens)
      else none
  rows.foldl add (some 0)

def countStatus (rows : List TaskRow) (status : String) : Int :=
  rows.countP fun row => row.status == bytes status

def auditSummaryAppends (initiativeId : Bytes) (rows : List TaskRow) (maxTokens : Int) :
    List Append :=
  [Append.raw (123 :: (keyed "ok" ++ bytes "true" ++ nextKey "initiativeId")), .string initiativeId,
    .raw (snprintf 512 (nextKey "summary" ++ 123 :: (keyed "taskCount" ++ intText rows.length ++
      nextKey "activeTasks" ++ intText (rows.countP fun row => !isTerminalStatus row.status) ++
      nextKey "completeTasks" ++ intText (countStatus rows "complete") ++
      nextKey "failedTasks" ++ intText (countStatus rows "failed") ++
      nextKey "blockedTasks" ++ intText (countStatus rows "blocked") ++
      nextKey "acceptedArtifacts" ++
        intText (rows.countP fun row => row.artifactState == bytes "accepted") ++
      nextKey "maxTokens" ++ longText maxTokens ++
      nextKey "createdAtUnixMs" ++ longText ((rows.map TaskRow.createdAtMs).min?.getD 0) ++
      nextKey "updatedAtUnixMs" ++ longText ((rows.map TaskRow.updatedAtMs).max?.getD 0) ++
      nextKey "title"))),
    .string ((rows.head?.map TaskRow.title).getD []), .raw [125]]

def auditTaskAppends (row : TaskRow) : List Append :=
  [Append.raw [123]] ++
  joined [keyedString "taskId" row.taskId, keyedString "parentTaskId" row.parentTaskId,
    keyedString "requestedByRole" row.requestedByRole,
    keyedString "assignedRole" row.assignedRole, keyedString "assignedAgent" row.assignedAgent,
    keyedString "modelId" row.modelId, keyedString "priority" row.priority,
    keyedString "status" row.status, keyedString "title" row.title,
    keyedString "toolProfile" row.toolProfile] ++
  [Append.raw (snprintf 768 (nextKey "maxTokens" ++ longText row.maxTokens ++
      nextKey "createdAtUnixMs" ++ longText row.createdAtMs ++
      nextKey "updatedAtUnixMs" ++ longText row.updatedAtMs ++
      nextKey "eventCount" ++ intText row.eventCount ++
      nextKey "attemptCount" ++ intText row.attemptCount ++
      nextKey "reclaimCount" ++ intText row.reclaimCount ++
      nextKey "acceptedAtUnixMs" ++ longText row.acceptedAtMs ++ nextKey "leaseOwner")),
    .string row.leaseOwner,
    .raw (nextKey "failureCause"), .string row.failureCause,
    .raw (nextKey "lastReclaimReason"), .string row.lastReclaimReason,
    .raw (nextKey "artifactState"), .string row.artifactState,
    .raw (nextKey "lastReviewer"), .string row.lastReviewer,
    .raw (nextKey "lastReviewNotes"), .string row.lastReviewNotes,
    .raw (nextKey "acceptedArtifactPath"), .string row.acceptedArtifactPath, .raw [125]]

/-- A member in the event loop of the audit. -/
def nextString (key : String) (text : Bytes) : List Append :=
  [Append.raw [comma, quote], .raw (bytes key), .raw [quote, colon], .string text]

def auditEventAppends (id : Nat) (row : TaskEventRow) : List Append :=
  [Append.raw (snprintf 64 (123 :: (keyed "id" ++ longText id ++ nextKey "taskId"))),
    .string row.taskId] ++
  nextString "schema" row.schema ++ nextString "eventType" row.eventType ++
  nextString "status" row.status ++ nextString "assignedAgent" row.assignedAgent ++
  nextString "message" row.message ++ nextString "createdBy" row.createdBy ++
  [Append.raw (snprintf 64 (nextKey "createdAtUnixMs" ++ longText row.createdAtMs ++ [125]))]

def AuditRecord.appends : AuditRecord → List Append
  | event id row => auditEventAppends id row
  | policyDecision line _ => [Append.raw line]
  | usage line _ => [Append.raw line]
  | deliverable row => [Append.raw row.rawJson]
  | secretScan row => [Append.raw row.rawJson]

/-- `usageBuffer` and `usageFirst`. -/
structure UsageText where
  text : Bytes := []
  first : Bool := true

def UsageText.add (buffer : UsageText) (line : Bytes) : UsageText :=
  let text :=
    if !buffer.first && buffer.text.length + 2 < usageBufferSize then buffer.text ++ [comma]
    else buffer.text
  ⟨if text.length + line.length + 1 < usageBufferSize then text ++ line else text, false⟩

def usageText (lines : List Bytes) : Bytes := (lines.foldl UsageText.add {}).text

def AuditState.part (state : AuditState) (array : AuditArray) : List AuditRecord :=
  state.emitted.filter fun record => record.array == array

def nextArray (key : String) : Append := .raw (93 :: (nextKey key ++ [91]))

def auditRecordsAppends (state : AuditState) : List Append :=
  [nextArray "events"] ++ joined ((state.part .events).map AuditRecord.appends) ++
  [nextArray "policyDecisions"] ++
    joined ((state.part .policyDecisions).map AuditRecord.appends) ++
  [nextArray "usage"] ++
    (match usageText ((state.part .usage).map AuditRecord.usageLine) with
      | [] => []
      | b :: text => [Append.raw (b :: text)]) ++
  [nextArray "deliverables"] ++ joined ((state.part .deliverables).map AuditRecord.appends) ++
  [nextArray "secretScans"] ++ joined ((state.part .secretScans).map AuditRecord.appends) ++
  [Append.raw (snprintf 160 (93 :: (nextKey "truncated" ++
    boolText state.truncated ++ nextKey "nextSinceUnixMs" ++
      longText (if state.truncated then wrap64 (state.maxEmittedAtMs + 1) else 0) ++
    nextKey "emittedCount" ++ intText state.emitted.length ++ [125, 10])))]

def auditAppends (initiativeId : Bytes) (rows : List TaskRow) (maxTokens : Int)
    (state : AuditState) : List Append :=
  auditSummaryAppends initiativeId rows maxTokens ++ [Append.raw (nextKey "tasks" ++ [91])] ++
    joined (rows.map auditTaskAppends) ++ auditRecordsAppends state

def initiativeNotFound (bufferSize : Nat) : Int × Bytes :=
  (1, snprintf bufferSize (bytes "\x7b\"ok\":false,\"error\":\"initiative not found\"\x7d\n"))

/-- `wtTaskProjectionReadInitiativeAuditJson`, with its text. -/
def wtTaskProjectionReadInitiativeAuditText (ledger : Ledger) (initiativeId : Bytes)
    (sinceUnixMs : Int) (limit bufferSize : Nat) : Int × Bytes :=
  let rows := initiativeRows ledger initiativeId
  match tokenSum rows with
  | none => initiativeNotFound bufferSize
  | some maxTokens =>
    if rows = [] then initiativeNotFound bufferSize
    else (0, writeAll bufferSize (auditAppends initiativeId rows maxTokens
      (auditState ledger initiativeId sinceUnixMs limit)))

end audit

section all

/-- The loop of `wtTaskReadAllJsonArray`, with the text written so far. -/
def copyLines (bufferSize : Nat) : Bool → Bytes → Ledger → Bytes
  | _, written, [] => written
  | first, written, line :: lines =>
    match stripLineEnd line with
    | [] => copyLines bufferSize first written lines
    | b :: text =>
      if bufferSize ≤ written.length + (b :: text).length + 3 then written
      else copyLines bufferSize false
        (written ++ (if first then b :: text else comma :: b :: text)) lines

def wtTaskReadAllJsonArray (ledger : Ledger) (bufferSize : Nat) : Int × Bytes :=
  if bufferSize < 3 then (-1, []) else (0, copyLines bufferSize true [91] ledger ++ [93])

end all

/-! ## The documents -/

section documents

def summaryKeys : List String :=
  ["taskId", "initiativeId", "parentTaskId", "requestedByRole", "assignedRole", "assignedAgent",
    "modelId", "priority", "status", "title", "toolProfile", "maxTokens", "createdAtUnixMs",
    "updatedAtUnixMs", "eventCount", "leaseOwner", "leaseExpiresAtUnixMs", "leasedAtUnixMs",
    "runningAtUnixMs", "attemptCount", "failureCause", "lastReclaimReason", "reclaimCount",
    "artifactState", "lastReviewer", "lastReviewNotes", "acceptedAtUnixMs",
    "acceptedArtifactPath"]

def summaryValues (row : TaskRow) : List Bytes :=
  [stringText row.taskId, stringText row.initiativeId, stringText row.parentTaskId,
    stringText row.requestedByRole, stringText row.assignedRole, stringText row.assignedAgent,
    stringText row.modelId, stringText row.priority, stringText row.status, stringText row.title,
    stringText row.toolProfile, longText row.maxTokens, longText row.createdAtMs,
    longText row.updatedAtMs, intText row.eventCount, stringText row.leaseOwner,
    longText row.leaseExpiresAtMs, longText row.leasedAtMs, longText row.runningAtMs,
    intText row.attemptCount, stringText row.failureCause, stringText row.lastReclaimReason,
    intText row.reclaimCount, stringText row.artifactState, stringText row.lastReviewer,
    stringText row.lastReviewNotes, longText row.acceptedAtMs, stringText row.acceptedArtifactPath]

theorem fullText_summary (row : TaskRow) :
    fullText (summaryAppends row) = objectOf summaryKeys (summaryValues row) := by
  unfold summaryAppends summaryKeys summaryValues
  simp (disch := (simp; grind [length_longText, length_intText, length_boolText])) only
    [snprintf_of_lt]
  simp [fullText_joined, commaSeparated_cons, Append.text]

theorem value_summary (row : TaskRow) : Value (fullText (summaryAppends row)) := by
  rw [fullText_summary]
  refine value_objectOf (by decide) (by rfl) (by decide) ?_
  simp [summaryValues]

def grantKeys : List String :=
  ["scope", "network", "credentialClass", "ttlSeconds", "maxWallClockSeconds",
    "requiresCleanWorktree"]

def grantValues (row : TaskRow) : List Bytes :=
  [stringText row.autonomyScope, stringText row.autonomyNetwork,
    stringText row.autonomyCredentialClass, longText row.autonomyTtlSeconds,
    longText row.autonomyMaxWallClockSeconds,
    boolText (toInt32 row.autonomyRequiresCleanWorktree != 0)]

def detailTaskKeys : List String :=
  ["taskId", "initiativeId", "parentTaskId", "requestedByRole", "assignedRole", "assignedAgent",
    "modelId", "priority", "status", "title", "body", "toolProfile", "autonomyLevel",
    "autonomyGrant", "maxTokens", "createdAtUnixMs", "updatedAtUnixMs", "eventCount", "leaseOwner",
    "leaseExpiresAtUnixMs", "leasedAtUnixMs", "runningAtUnixMs", "attemptCount", "failureCause",
    "lastReclaimReason", "reclaimCount", "artifactState", "lastReviewer", "lastReviewNotes",
    "acceptedAtUnixMs", "acceptedArtifactPath"]

def detailTaskValues (row : TaskRow) : List Bytes :=
  [stringText row.taskId, stringText row.initiativeId, stringText row.parentTaskId,
    stringText row.requestedByRole, stringText row.assignedRole, stringText row.assignedAgent,
    stringText row.modelId, stringText row.priority, stringText row.status, stringText row.title,
    stringText row.body, stringText row.toolProfile, stringText row.autonomyLevel,
    objectOf grantKeys (grantValues row), longText row.maxTokens, longText row.createdAtMs,
    longText row.updatedAtMs, intText row.eventCount, stringText row.leaseOwner,
    longText row.leaseExpiresAtMs, longText row.leasedAtMs, longText row.runningAtMs,
    intText row.attemptCount, stringText row.failureCause, stringText row.lastReclaimReason,
    intText row.reclaimCount, stringText row.artifactState, stringText row.lastReviewer,
    stringText row.lastReviewNotes, longText row.acceptedAtMs, stringText row.acceptedArtifactPath]

def detailEventKeys : List String :=
  ["id", "schema", "eventType", "status", "assignedAgent", "message", "createdBy",
    "createdAtUnixMs"]

def detailEventValues (event : TaskEventRow × Nat) : List Bytes :=
  [longText event.2, stringText event.1.schema, stringText event.1.eventType,
    stringText event.1.status, stringText event.1.assignedAgent, stringText event.1.message,
    stringText event.1.createdBy, longText event.1.createdAtMs]

theorem fullText_detailEvent (event : TaskEventRow × Nat) :
    fullText (detailEventAppends event) = objectOf detailEventKeys (detailEventValues event) := by
  unfold detailEventAppends detailEventKeys detailEventValues
  simp (disch := (simp; grind [length_longText, length_intText, length_boolText])) only
    [snprintf_of_lt]
  simp [fullText_joined, commaSeparated_cons, Append.text]

theorem fullText_detail (row : TaskRow) (events : List (TaskEventRow × Nat)) :
    fullText (detailAppends row events) = objectOf ["ok", "task", "events"]
      [bytes "true", objectOf detailTaskKeys (detailTaskValues row),
        arrayText (events.map fun event => fullText (detailEventAppends event))] := by
  unfold detailAppends detailTaskAppends detailTaskKeys detailTaskValues grantKeys grantValues
  simp (disch := (simp; grind [length_longText, length_intText, length_boolText])) only
    [snprintf_of_lt]
  simp [fullText_joined, commaSeparated_cons, Append.text, arrayText]
  rfl

theorem value_detailTask (row : TaskRow) :
    Value (objectOf detailTaskKeys (detailTaskValues row)) := by
  have hgrant : Value (objectOf grantKeys (grantValues row)) := by
    refine value_objectOf (by decide) (by rfl) (by decide) ?_
    simp [grantValues]
  refine value_objectOf (by decide) (by simp [detailTaskKeys, detailTaskValues])
    (by decide) ?_
  simp [detailTaskValues, hgrant]

theorem value_detailEvent (event : TaskEventRow × Nat) :
    Value (fullText (detailEventAppends event)) := by
  rw [fullText_detailEvent]
  refine value_objectOf (by decide) (by simp [detailEventKeys, detailEventValues])
    (by decide) ?_
  simp [detailEventValues]

theorem value_detail (row : TaskRow) (events : List (TaskEventRow × Nat)) :
    Value (fullText (detailAppends row events)) := by
  rw [fullText_detail]
  refine value_objectOf (by decide) (by simp) (by decide) ?_
  have hevents : Value (arrayText
      (events.map fun event => fullText (detailEventAppends event))) := by
    refine value_arrayText fun text htext => ?_
    obtain ⟨event, -, rfl⟩ := List.mem_map.mp htext
    exact (value_detailEvent event).isJson
  simp [value_detailTask, hevents, Value.true]

theorem value_summaries (rows : List TaskRow) : Value (fullText (summariesAppends rows)) := by
  have heq : fullText (summariesAppends rows) =
      arrayText (((rows.insertionSort summaryOrder).take 200).map
        fun row => fullText (summaryAppends row)) := by
    simp [summariesAppends, fullText_joined, Append.text, arrayText]
    rfl
  rw [heq]
  refine value_arrayText fun text htext => ?_
  obtain ⟨row, -, rfl⟩ := List.mem_map.mp htext
  exact (value_summary row).isJson

end documents

/-! ## The audit -/

section auditDocument

def initiativeKeys : List String :=
  ["taskCount", "activeTasks", "completeTasks", "failedTasks", "blockedTasks",
    "acceptedArtifacts", "maxTokens", "createdAtUnixMs", "updatedAtUnixMs", "title"]

def initiativeValues (rows : List TaskRow) (maxTokens : Int) : List Bytes :=
  [intText rows.length, intText (rows.countP fun row => !isTerminalStatus row.status),
    intText (countStatus rows "complete"), intText (countStatus rows "failed"),
    intText (countStatus rows "blocked"),
    intText (rows.countP fun row => row.artifactState == bytes "accepted"), longText maxTokens,
    longText ((rows.map TaskRow.createdAtMs).min?.getD 0),
    longText ((rows.map TaskRow.updatedAtMs).max?.getD 0),
    stringText ((rows.head?.map TaskRow.title).getD [])]

def auditTaskKeys : List String :=
  ["taskId", "parentTaskId", "requestedByRole", "assignedRole", "assignedAgent", "modelId",
    "priority", "status", "title", "toolProfile", "maxTokens", "createdAtUnixMs",
    "updatedAtUnixMs", "eventCount", "attemptCount", "reclaimCount", "acceptedAtUnixMs",
    "leaseOwner", "failureCause", "lastReclaimReason", "artifactState", "lastReviewer",
    "lastReviewNotes", "acceptedArtifactPath"]

def auditTaskValues (row : TaskRow) : List Bytes :=
  [stringText row.taskId, stringText row.parentTaskId, stringText row.requestedByRole,
    stringText row.assignedRole, stringText row.assignedAgent, stringText row.modelId,
    stringText row.priority, stringText row.status, stringText row.title,
    stringText row.toolProfile, longText row.maxTokens, longText row.createdAtMs,
    longText row.updatedAtMs, intText row.eventCount, intText row.attemptCount,
    intText row.reclaimCount, longText row.acceptedAtMs, stringText row.leaseOwner,
    stringText row.failureCause, stringText row.lastReclaimReason, stringText row.artifactState,
    stringText row.lastReviewer, stringText row.lastReviewNotes,
    stringText row.acceptedArtifactPath]

def auditEventKeys : List String :=
  ["id", "taskId", "schema", "eventType", "status", "assignedAgent", "message", "createdBy",
    "createdAtUnixMs"]

def auditEventValues (id : Nat) (row : TaskEventRow) : List Bytes :=
  [longText id, stringText row.taskId, stringText row.schema, stringText row.eventType,
    stringText row.status, stringText row.assignedAgent, stringText row.message,
    stringText row.createdBy, longText row.createdAtMs]

theorem fullText_nextString (key : String) (text : Bytes) :
    fullText (nextString key text) = nextKey key ++ stringText text := by
  simp [nextString, Append.text, nextKey, keyed]

theorem fullText_auditTask (row : TaskRow) :
    fullText (auditTaskAppends row) = objectOf auditTaskKeys (auditTaskValues row) := by
  unfold auditTaskAppends auditTaskKeys auditTaskValues
  simp (disch := (simp; grind [length_longText, length_intText, length_boolText])) only
    [snprintf_of_lt]
  simp [fullText_joined, commaSeparated_cons, Append.text]

theorem fullText_auditEvent (id : Nat) (row : TaskEventRow) :
    fullText (auditEventAppends id row) = objectOf auditEventKeys (auditEventValues id row) := by
  unfold auditEventAppends auditEventKeys auditEventValues
  simp (disch := (simp; grind [length_longText, length_intText, length_boolText])) only
    [snprintf_of_lt]
  simp [fullText_nextString, Append.text]

theorem value_auditTask (row : TaskRow) : Value (fullText (auditTaskAppends row)) := by
  rw [fullText_auditTask]
  refine value_objectOf (by decide) (by rfl) (by decide) ?_
  simp [auditTaskValues]

theorem value_auditEvent (id : Nat) (row : TaskEventRow) :
    Value (fullText (auditEventAppends id row)) := by
  rw [fullText_auditEvent]
  refine value_objectOf (by decide) (by simp [auditEventKeys, auditEventValues])
    (by decide) ?_
  simp [auditEventValues]

def recordTexts (state : AuditState) (array : AuditArray) : List Bytes :=
  (state.part array).map fun record => fullText record.appends

def auditKeys : List String :=
  ["ok", "initiativeId", "summary", "tasks", "events", "policyDecisions", "usage",
    "deliverables", "secretScans", "truncated", "nextSinceUnixMs", "emittedCount"]

def auditValues (initiativeId : Bytes) (rows : List TaskRow) (maxTokens : Int)
    (state : AuditState) : List Bytes :=
  [bytes "true", stringText initiativeId,
    objectOf initiativeKeys (initiativeValues rows maxTokens),
    arrayText (rows.map fun row => fullText (auditTaskAppends row)),
    arrayText (recordTexts state .events), arrayText (recordTexts state .policyDecisions),
    91 :: (usageText ((state.part .usage).map AuditRecord.usageLine) ++ [93]),
    arrayText (recordTexts state .deliverables), arrayText (recordTexts state .secretScans),
    boolText state.truncated,
    longText (if state.truncated then wrap64 (state.maxEmittedAtMs + 1) else 0),
    intText state.emitted.length]

theorem fullText_audit (initiativeId : Bytes) (rows : List TaskRow) (maxTokens : Int)
    (state : AuditState) : fullText (auditAppends initiativeId rows maxTokens state) =
      objectOf auditKeys (auditValues initiativeId rows maxTokens state) ++ [10] := by
  have husage : fullText (match usageText ((state.part .usage).map AuditRecord.usageLine) with
      | [] => []
      | b :: text => [Append.raw (b :: text)]) =
        usageText ((state.part .usage).map AuditRecord.usageLine) := by
    cases usageText ((state.part .usage).map AuditRecord.usageLine) with
    | nil => rfl
    | cons b text => simp [Append.text]
  unfold auditAppends auditSummaryAppends auditRecordsAppends auditKeys auditValues initiativeKeys
    initiativeValues
  simp (disch := (simp; grind [length_longText, length_intText, length_boolText])) only
    [snprintf_of_lt]
  simp only [fullText_append, husage]
  simp [fullText_joined, Append.text, arrayText, recordTexts, nextArray]
  rfl

/-- A record of the audit is written from its row, or its line is a JSON text. -/
def AuditRecord.Whole : AuditRecord → Prop
  | event _ _ => True
  | policyDecision line _ => IsJson line
  | usage line _ => IsJson line
  | deliverable row => IsJson row.rawJson
  | secretScan row => IsJson row.rawJson

theorem fullText_raw (text : Bytes) : fullText [Append.raw text] = text := by
  simp [Append.text]

theorem AuditRecord.Whole.isJson {record : AuditRecord} (h : record.Whole) :
    IsJson (fullText record.appends) := by
  cases record with
  | event id row => exact (value_auditEvent id row).isJson
  | policyDecision line createdAtMs =>
    rw [AuditRecord.appends, fullText_raw]
    exact h
  | usage line createdAtMs =>
    rw [AuditRecord.appends, fullText_raw]
    exact h
  | deliverable row =>
    rw [AuditRecord.appends, fullText_raw]
    exact h
  | secretScan row =>
    rw [AuditRecord.appends, fullText_raw]
    exact h

theorem add_line {text line : Bytes} (h : text.length + line.length + 2 < usageBufferSize) :
    UsageText.add ⟨text, false⟩ line = ⟨text ++ comma :: line, false⟩ := by
  have hcomma : (!false && decide (text.length + 2 < usageBufferSize)) = true := by simp; omega
  rw [UsageText.add]
  dsimp only
  rw [if_pos hcomma, if_pos (by simp; omega), List.append_assoc, List.singleton_append]

theorem foldl_usageText_eq {lines : List Bytes} {text : Bytes}
    (h : text.length + (lines.map fun line => line.length + 1).sum + 1 < usageBufferSize) :
    (lines.foldl UsageText.add ⟨text, false⟩).text =
      text ++ lines.flatMap fun line => comma :: line := by
  induction lines generalizing text with
  | nil => simp
  | cons line lines ih =>
    rw [List.map_cons, List.sum_cons] at h
    have hlength : (text ++ comma :: line).length = text.length + line.length + 1 := by simp; omega
    rw [List.foldl_cons, add_line (by omega), ih (by omega)]
    simp

theorem usageText_eq {lines : List Bytes}
    (h : (lines.map fun line => line.length + 1).sum < usageBufferSize) :
    usageText lines = commaSeparated lines := by
  cases lines with
  | nil => rfl
  | cons line lines =>
    rw [List.map_cons, List.sum_cons] at h
    have hfirst : UsageText.add {} line = ⟨line, false⟩ := by
      have hroom : ([] : Bytes).length + line.length + 1 < usageBufferSize := by simp; omega
      rw [UsageText.add]
      exact congrArg (UsageText.mk · false) (if_pos hroom)
    rw [usageText, List.foldl_cons, hfirst, foldl_usageText_eq (by omega), commaSeparated_cons]

theorem usageArray_eq {state : AuditState}
    (h : usageRoom (state.part .usage) < usageBufferSize) :
    91 :: (usageText ((state.part .usage).map AuditRecord.usageLine) ++ [93]) =
      arrayText (recordTexts state .usage) := by
  have htexts : (state.part .usage).map AuditRecord.usageLine = recordTexts state .usage := by
    refine List.map_congr_left fun record hrecord => ?_
    have harray : record.array = .usage := by simpa using (List.mem_filter.mp hrecord).2
    cases record with
    | usage line createdAtMs => simp [AuditRecord.usageLine, AuditRecord.appends, Append.text]
    | event => cases harray
    | policyDecision => cases harray
    | deliverable => cases harray
    | secretScan => cases harray
  have hroom : (((state.part .usage).map AuditRecord.usageLine).map
      fun line => line.length + 1).sum < usageBufferSize := by
    rw [List.map_map]
    exact h
  rw [usageText_eq hroom, htexts, arrayText]

theorem value_audit {initiativeId : Bytes} {rows : List TaskRow} {maxTokens : Int}
    {state : AuditState} (husage : usageRoom (state.part .usage) < usageBufferSize)
    (hrecords : ∀ record ∈ state.emitted, record.Whole) :
    IsJson (fullText (auditAppends initiativeId rows maxTokens state)) := by
  have hsummary : Value (objectOf initiativeKeys (initiativeValues rows maxTokens)) := by
    refine value_objectOf (by decide) (by simp [initiativeKeys, initiativeValues])
      (by decide) ?_
    simp [initiativeValues]
  have htasks : Value (arrayText (rows.map fun row => fullText (auditTaskAppends row))) := by
    refine value_arrayText fun text htext => ?_
    obtain ⟨row, -, rfl⟩ := List.mem_map.mp htext
    exact (value_auditTask row).isJson
  have harray (array : AuditArray) : Value (arrayText (recordTexts state array)) := by
    refine value_arrayText fun text htext => ?_
    obtain ⟨record, hrecord, rfl⟩ := List.mem_map.mp htext
    exact (hrecords record (List.mem_of_mem_filter hrecord)).isJson
  have hvalue : Value (objectOf auditKeys (auditValues initiativeId rows maxTokens state)) := by
    refine value_objectOf (by decide) (by simp [auditKeys, auditValues]) (by decide) ?_
    simp [auditValues, hsummary, htasks, harray, usageArray_eq husage, Value.true]
  rw [fullText_audit]
  exact ⟨[], _, [10], by simp [White], by simp [White, isWhite], hvalue, by simp⟩

end auditDocument

/-! ## The ledger as an array -/

section all

variable {bufferSize : Nat}

/-- The lines that `wtTaskReadAllJsonArray` gets to behind so many bytes. -/
def copied (bufferSize : Nat) : Bool → Nat → Ledger → List Bytes
  | _, _, [] => []
  | first, used, line :: lines =>
    match stripLineEnd line with
    | [] => copied bufferSize first used lines
    | b :: text =>
      if bufferSize ≤ used + (b :: text).length + 3 then []
      else (b :: text) ::
        copied bufferSize false (used + (if first then 0 else 1) + (b :: text).length) lines

theorem copyLines_eq (written : Bytes) (lines : Ledger) :
    copyLines bufferSize false written lines = written ++
      (copied bufferSize false written.length lines).flatMap fun line => comma :: line := by
  induction lines generalizing written with
  | nil => simp [copyLines, copied]
  | cons line lines ih =>
    rw [copyLines, copied]
    split
    · exact ih written
    · split
      · simp
      · rw [ih]
        simp [Nat.add_assoc, Nat.add_comm]

theorem copyLines_first (written : Bytes) (lines : Ledger) :
    copyLines bufferSize true written lines =
      written ++ commaSeparated (copied bufferSize true written.length lines) := by
  induction lines with
  | nil => simp [copyLines, copied, commaSeparated]
  | cons line lines ih =>
    rw [copyLines, copied]
    split
    · exact ih
    · split
      · simp [commaSeparated]
      · rw [copyLines_eq, commaSeparated_cons]
        simp

theorem readAll_eq (ledger : Ledger) (h : 3 ≤ bufferSize) :
    wtTaskReadAllJsonArray ledger bufferSize =
      (0, arrayText (copied bufferSize true 1 ledger)) := by
  rw [wtTaskReadAllJsonArray, if_neg (by omega), copyLines_first]
  rfl

end all

/-! ## The reads -/

/-- The four reads. -/
inductive Read where
  | summaries
  | detail (taskId : Bytes)
  | audit (initiativeId : Bytes) (sinceUnixMs : Int) (limit : Nat)
  | all
  deriving DecidableEq

/-- The return value and the buffer of a read. -/
def Read.run (ledger : Ledger) (bufferSize : Nat) : Read → Int × Bytes
  | summaries => wtTaskProjectionReadSummariesJson ledger bufferSize
  | detail taskId => wtTaskProjectionReadDetailJson ledger taskId bufferSize
  | audit initiativeId sinceUnixMs limit =>
    wtTaskProjectionReadInitiativeAuditText ledger initiativeId sinceUnixMs limit bufferSize
  | all => wtTaskReadAllJsonArray ledger bufferSize

/-- The buffers the daemon passes. -/
def Read.bufferSizes : Read → List Nat
  | summaries => [wtTaskLedgerLineSize * 16, wtTaskLedgerLineSize * 8]
  | detail _ => [wtTaskLedgerLineSize * 16]
  | audit .. => [wtTaskLedgerLineSize * 64]
  | all => [wtTaskLedgerLineSize * 8]

/-- Where the read returns 0, the buffer has one JSON text. -/
def Read.Whole (ledger : Ledger) (bufferSize : Nat) (read : Read) : Prop :=
  (read.run ledger bufferSize).1 = 0 → IsJson (read.run ledger bufferSize).2

/-- The lines that the read splices in are JSON, and all it appends fits. -/
def Read.Clean (ledger : Ledger) (bufferSize : Nat) : Read → Prop
  | summaries => Fits bufferSize (summariesAppends (wtTaskProjectionRebuild ledger))
  | detail taskId => ∀ row, projectedRow ledger taskId = some row →
      Fits bufferSize (detailAppends row (detailEvents ledger taskId))
  | audit initiativeId sinceUnixMs limit =>
    ∀ maxTokens, tokenSum (initiativeRows ledger initiativeId) = some maxTokens →
      Fits bufferSize (auditAppends initiativeId (initiativeRows ledger initiativeId) maxTokens
        (auditState ledger initiativeId sinceUnixMs limit)) ∧
      usageRoom ((auditState ledger initiativeId sinceUnixMs limit).part .usage) <
        usageBufferSize ∧
      ∀ record ∈ (auditState ledger initiativeId sinceUnixMs limit).emitted, record.Whole
  | all => ∀ line ∈ copied bufferSize true 1 ledger, IsJson line

end WovenTeam

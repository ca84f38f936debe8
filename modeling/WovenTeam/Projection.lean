import Mathlib.Data.List.DropRight
import WovenTeam.Store.Find

/-!
# The task projection

`wt_task_projection.c` rebuilds a SQLite read model from the ledger: the `tasks` table, one row
for each task id, filled by an upsert for every package and a guarded `UPDATE` for every task
event or task request. The table is a `FirstSeen` table without a bound, keyed by the primary
key. The queries that admission control puts to it are below it.
-/

namespace WovenTeam

open CText QuotedText FirstSeen

/-! ## Rows -/

/-- A row of `tasks`, with the column defaults of its `CREATE TABLE`. -/
structure TaskRow where
  taskId : Bytes
  initiativeId : Bytes
  parentTaskId : Bytes
  requestedByRole : Bytes
  assignedRole : Bytes
  assignedAgent : Bytes
  modelId : Bytes
  priority : Bytes
  status : Bytes
  title : Bytes
  body : Bytes
  toolProfile : Bytes
  autonomyLevel : Bytes
  autonomyScope : Bytes
  autonomyNetwork : Bytes
  autonomyCredentialClass : Bytes
  autonomyTtlSeconds : Int
  autonomyMaxWallClockSeconds : Int
  autonomyRequiresCleanWorktree : Int
  maxTokens : Int
  createdAtMs : Int
  updatedAtMs : Int
  eventCount : Int := 0
  leaseOwner : Bytes := []
  leaseExpiresAtMs : Int := 0
  leasedAtMs : Int := 0
  runningAtMs : Int := 0
  attemptCount : Int := 0
  failureCause : Bytes := []
  lastReclaimReason : Bytes := []
  reclaimCount : Int := 0
  artifactState : Bytes := []
  lastReviewer : Bytes := []
  lastReviewNotes : Bytes := []
  acceptedAtMs : Int := 0
  acceptedArtifactPath : Bytes := []
  deriving DecidableEq, Repr

/-- The row `projectPackage` inserts. -/
def packageRow (line taskId : Bytes) : TaskRow where
  taskId := taskId
  initiativeId := (wtJsonReadString line "initiativeId" wtTaskIdSize).orElse []
  parentTaskId := (wtJsonReadString line "parentTaskId" wtTaskIdSize).orElse []
  requestedByRole := (wtJsonReadString line "requestedByRole" wtTaskAgentSize).orElse []
  assignedRole := (wtJsonReadString line "assignedRole" wtTaskAgentSize).orElse []
  assignedAgent := (wtJsonReadString line "assignedAgent" wtTaskAgentSize).orElse (bytes "all")
  modelId := (wtJsonReadString line "modelId" wtTaskModelSize).orElse []
  priority := (wtJsonReadString line "priority" 32).orElse (bytes "normal")
  status := (wtJsonReadString line "status" wtTaskStatusSize).orElse (bytes "queued")
  title := (wtJsonReadString line "title" wtTaskTitleSize).orElse (bytes "Untitled task")
  body := (wtJsonReadString line "body" wtTaskBodySize).orElse []
  toolProfile := (wtJsonReadString line "profile" wtTaskPolicySize).orElse (bytes "observe")
  autonomyLevel := (wtJsonReadString line "autonomyLevel" wtTaskPolicySize).orElse []
  autonomyScope := (wtJsonReadString line "scope" wtTaskBodySize).orElse []
  autonomyNetwork := (wtJsonReadString line "network" wtTaskPolicySize).orElse (bytes "none")
  autonomyCredentialClass :=
    (wtJsonReadString line "credentialClass" wtTaskPolicySize).orElse (bytes "none")
  autonomyTtlSeconds := (wtJsonReadLong line "ttlSeconds").getD 0
  autonomyMaxWallClockSeconds := (wtJsonReadLong line "maxWallClockSeconds").getD 0
  autonomyRequiresCleanWorktree := (wtJsonReadLong line "requiresCleanWorktree").getD 0
  maxTokens := (wtJsonReadLong line "maxTokens").getD 0
  createdAtMs := (wtJsonReadLongLong line "createdAtUnixMs").getD 0
  updatedAtMs := (wtJsonReadLongLong line "createdAtUnixMs").getD 0

/-- The `ON CONFLICT(task_id) DO UPDATE` of `projectPackage`: the lease, artifact and counter
columns stay. -/
def upsertPackage (line : Bytes) (row : TaskRow) : TaskRow :=
  { packageRow line row.taskId with
    updatedAtMs := max row.updatedAtMs (packageRow line row.taskId).updatedAtMs
    eventCount := row.eventCount
    leaseOwner := row.leaseOwner
    leaseExpiresAtMs := row.leaseExpiresAtMs
    leasedAtMs := row.leasedAtMs
    runningAtMs := row.runningAtMs
    attemptCount := row.attemptCount
    failureCause := row.failureCause
    lastReclaimReason := row.lastReclaimReason
    reclaimCount := row.reclaimCount
    artifactState := row.artifactState
    lastReviewer := row.lastReviewer
    lastReviewNotes := row.lastReviewNotes
    acceptedAtMs := row.acceptedAtMs
    acceptedArtifactPath := row.acceptedArtifactPath }

def taskRequestSchema : String := "woventeam.task_request.v0.1"

/-- The fields `insertEvent` reads for its `UPDATE`. -/
structure EventFields where
  eventType : Bytes
  status : Bytes
  assignedAgent : Bytes
  retryCause : Bytes
  reclaimReason : Bytes
  artifactState : Bytes
  artifactReviewer : Bytes
  artifactNotes : Bytes
  artifactPath : Bytes
  eventPriority : Bytes
  createdAtMs : Int
  leaseExpiresAtMs : Int
  attempt : Int

def readEventFields (line : Bytes) (schema : String) : EventFields where
  eventType := (wtJsonReadString line "eventType" 64).orElse
    (if schema = taskRequestSchema then bytes "request" else bytes "event")
  status := (wtJsonReadString line "status" wtTaskStatusSize).orElse []
  assignedAgent := (wtJsonReadString line "assignedAgent" wtTaskAgentSize).orElse []
  retryCause := (wtJsonReadString line "retryCause" 64).orElse []
  reclaimReason := (wtJsonReadString line "reclaimReason" 64).orElse []
  artifactState := (wtJsonReadString line "artifactState" 64).orElse []
  artifactReviewer := (wtJsonReadString line "reviewer" wtTaskAgentSize).orElse []
  artifactNotes := (wtJsonReadString line "reviewNotes" wtTaskBodySize).orElse []
  artifactPath := (wtJsonReadString line "artifactPath" 512).orElse []
  eventPriority := (wtJsonReadString line "priority" 32).orElse []
  createdAtMs := (wtJsonReadLongLong line "createdAtUnixMs").getD 0
  leaseExpiresAtMs := (wtJsonReadLongLong line "leaseExpiresAtUnixMs").getD 0
  attempt := (wtJsonReadLong line "attempt").getD 0

/-- The guard in front of the `UPDATE`. -/
def EventFields.applies (e : EventFields) : Bool :=
  e.status != [] || e.assignedAgent != [] || e.eventType == bytes "reclaim" ||
    e.eventType == bytes "artifact" || e.eventType == bytes "priority"

/-- The `UPDATE tasks SET …` of `insertEvent`. -/
def updateRow (e : EventFields) (row : TaskRow) : TaskRow :=
  let lease := e.eventType == bytes "lease"
  let reclaim := e.eventType == bytes "reclaim"
  let status := e.eventType == bytes "status"
  let artifact := e.eventType == bytes "artifact"
  let accepted := artifact && e.artifactState == bytes "accepted"
  { row with
    status := if e.status != [] then e.status else row.status
    assignedAgent := if e.assignedAgent != [] then e.assignedAgent else row.assignedAgent
    leaseOwner := if lease then e.assignedAgent else if reclaim then [] else row.leaseOwner
    leaseExpiresAtMs :=
      if lease then e.leaseExpiresAtMs else if reclaim then 0 else row.leaseExpiresAtMs
    leasedAtMs := if lease then e.createdAtMs else if reclaim then 0 else row.leasedAtMs
    runningAtMs :=
      if status && e.status == bytes "running" then e.createdAtMs
      else if reclaim then 0 else row.runningAtMs
    attemptCount := if lease then max (row.attemptCount + 1) e.attempt else row.attemptCount
    failureCause :=
      if status && e.status == bytes "failed" && e.retryCause != [] then e.retryCause
      else if lease || reclaim then [] else row.failureCause
    lastReclaimReason := if reclaim then e.reclaimReason else row.lastReclaimReason
    reclaimCount := if reclaim then row.reclaimCount + 1 else row.reclaimCount
    artifactState :=
      if artifact && e.artifactState != [] then e.artifactState else row.artifactState
    lastReviewer :=
      if artifact && e.artifactReviewer != [] then e.artifactReviewer else row.lastReviewer
    lastReviewNotes := if artifact then e.artifactNotes else row.lastReviewNotes
    acceptedAtMs := if accepted then e.createdAtMs else row.acceptedAtMs
    acceptedArtifactPath :=
      if accepted && e.artifactPath != [] then e.artifactPath else row.acceptedArtifactPath
    priority :=
      if e.eventType == bytes "priority" && e.eventPriority != [] then e.eventPriority
      else row.priority
    updatedAtMs := max row.updatedAtMs e.createdAtMs
    eventCount := row.eventCount + 1 }

def insertEvent (line : Bytes) (schema : String) (row : TaskRow) : TaskRow :=
  let e := readEventFields line schema
  if e.applies then updateRow e row else row

/-! ## The rebuild -/

/-- The line without the `\n` and `\r` at its end. -/
def stripLineEnd (line : Bytes) : Bytes := line.rdropWhile fun b => b == 10 || b == 13

/-- The row a line changes. A package with no readable id goes to the row of the empty id; other
records with the empty id change no row. -/
def projectionKey (line : Bytes) : Option Bytes :=
  let taskId := (wtJsonReadString line "taskId" wtTaskIdSize).orElse []
  if lineHasSchema line taskPackageSchema then some taskId
  else if taskId = [] then none
  else some taskId

/-- The dispatch of `wtTaskProjectionRebuild`, as far as it concerns `tasks`. -/
def projectLine (line : Bytes) (row : TaskRow) : TaskRow :=
  if lineHasSchema line taskPackageSchema then upsertPackage line row
  else if lineHasSchema line taskEventSchema then insertEvent line taskEventSchema row
  else if lineHasSchema line taskRequestSchema then insertEvent line taskRequestSchema row
  else row

theorem insertEvent_taskId (line : Bytes) (schema : String) (row : TaskRow) :
    (insertEvent line schema row).taskId = row.taskId := by
  simp only [insertEvent]
  split <;> rfl

def projectionTable : Table Bytes Bytes TaskRow where
  key := projectionKey
  creates line := lineHasSchema line taskPackageSchema
  idOf row := row.taskId
  create := packageRow
  update := projectLine
  idOf_create _ _ := rfl
  idOf_update line row := by
    unfold projectLine
    split
    · rfl
    · split
      · exact insertEvent_taskId ..
      · split
        · exact insertEvent_taskId ..
        · rfl

/-- The rows of `tasks` after `wtTaskProjectionRebuild`, in insertion order. -/
def wtTaskProjectionRebuild (ledger : Ledger) : List TaskRow :=
  projectionTable.scan none (ledger.map stripLineEnd)

/-- The row of a task. -/
def projectedRow (ledger : Ledger) (taskId : Bytes) : Option TaskRow :=
  projectionTable.stateOf (ledger.map stripLineEnd) taskId

theorem projectedRow_append (ledger : Ledger) (line taskId : Bytes) :
    projectedRow (ledger ++ [line]) taskId =
      projectionTable.stateStep taskId (projectedRow ledger taskId) (stripLineEnd line) := by
  rw [projectedRow, List.map_append, List.map_singleton, Table.stateOf_append, ← projectedRow]

theorem mem_rebuild_iff {ledger : Ledger} {row : TaskRow} :
    row ∈ wtTaskProjectionRebuild ledger ↔ projectedRow ledger row.taskId = some row := by
  rw [wtTaskProjectionRebuild, projectedRow, projectionTable.mem_scan_iff]
  refine ⟨fun h => h.2, fun h => ⟨projectionTable.mem_firstSeen_iff.mpr ?_, h⟩⟩
  exact Option.isSome_of_eq_some h

/-! ### Reading a stripped line -/

theorem stripLineEnd_append (line : Bytes) :
    ∃ tail, (∀ b ∈ tail, isSpace b) ∧ line = stripLineEnd line ++ tail := by
  refine ⟨line.rtakeWhile fun b => b == 10 || b == 13, fun b hb => ?_, ?_⟩
  · have := List.mem_rtakeWhile_imp hb
    simp only [Bool.or_eq_true, beq_iff_eq] at this
    rcases this with rfl | rfl <;> decide
  · exact List.rdropWhile_append_rtakeWhile.symm

variable {k : String}

theorem readString_stripLineEnd (hk : KeyFits k) (line : Bytes) (size : Nat) :
    (wtJsonReadString (stripLineEnd line) k size).toOption =
      (wtJsonReadString line k size).toOption := by
  obtain ⟨tail, ht, hline⟩ := stripLineEnd_append line
  conv_rhs => rw [hline]
  exact (wtJsonReadString_append hk ht size).symm

theorem readString_orElse_stripLineEnd (hk : KeyFits k) (line : Bytes) (size : Nat)
    (fallback : Bytes) :
    (wtJsonReadString (stripLineEnd line) k size).orElse fallback =
      (wtJsonReadString line k size).orElse fallback := by
  rw [StringField.orElse_eq, StringField.orElse_eq, readString_stripLineEnd hk]

theorem readLong_stripLineEnd (hk : KeyFits k) (line : Bytes) :
    wtJsonReadLong (stripLineEnd line) k = wtJsonReadLong line k := by
  obtain ⟨tail, ht, hline⟩ := stripLineEnd_append line
  conv_rhs => rw [hline]
  exact (wtJsonReadLong_append hk ht).symm

theorem lineHasSchema_stripLineEnd (line : Bytes) (schema : String) :
    lineHasSchema (stripLineEnd line) schema = lineHasSchema line schema := by
  have h := readString_stripLineEnd (k := "schema") (by decide) line 128
  unfold lineHasSchema
  cases h1 : wtJsonReadString (stripLineEnd line) "schema" 128 <;>
    cases h2 : wtJsonReadString line "schema" 128 <;>
    simp_all [StringField.toOption]

theorem lineTaskId_stripLineEnd (line : Bytes) : lineTaskId (stripLineEnd line) = lineTaskId line :=
  readString_stripLineEnd (by decide) line wtTaskIdSize

/-! ## Queries -/

def isTerminalStatus (status : Bytes) : Bool :=
  status == bytes "complete" || status == bytes "failed" || status == bytes "cancelled" ||
    status == bytes "closed"

/-- `countActiveWhere`. -/
def countActiveWhere (rows : List TaskRow) (column : TaskRow → Bytes) (value : Bytes) : Nat :=
  rows.countP fun row => column row == value && !isTerminalStatus row.status

def wtTaskProjectionCountActiveForAgent (rows : List TaskRow) (agent : Bytes) : Nat :=
  countActiveWhere rows TaskRow.assignedAgent agent

def wtTaskProjectionCountActiveForParent (rows : List TaskRow) (parentTaskId : Bytes) : Nat :=
  countActiveWhere rows TaskRow.parentTaskId parentTaskId

def wtTaskProjectionCountActiveForInitiative (rows : List TaskRow) (initiativeId : Bytes) : Nat :=
  countActiveWhere rows TaskRow.initiativeId initiativeId

/-- `COALESCE(SUM(max_tokens), 0)`, which fails with an integer overflow; the caller then returns
-1. -/
def sumTokens (rows : List TaskRow) : Int :=
  let add : Option Int → TaskRow → Option Int := fun total row =>
    total.bind fun n =>
      if -2 ^ 63 ≤ n + row.maxTokens ∧ n + row.maxTokens < 2 ^ 63 then some (n + row.maxTokens)
      else none
  (rows.foldl add (some 0)).getD (-1)

def wtTaskProjectionAllocatedTokensForInitiative (rows : List TaskRow) (initiativeId : Bytes) :
    Int :=
  sumTokens (rows.filter fun row => row.initiativeId == initiativeId && !isTerminalStatus row.status)

def likeFold (b : UInt8) : UInt8 := if 65 ≤ b ∧ b ≤ 90 then b + 32 else b

/-- The text after its first character, which may have continuation bytes. -/
def skipChar : Bytes → Bytes
  | [] => []
  | b :: t => if 192 ≤ b then t.dropWhile fun c => c &&& 192 == 128 else t

/-- SQLite's `LIKE`: `%` stands for any text, `_` for a character, ASCII letters match in either
case. -/
def sqlLike : Bytes → Bytes → Bool
  | [], text => text.isEmpty
  | p :: pattern, text =>
    if p = 37 then text.tails.any (sqlLike pattern)
    else if p = 95 then !text.isEmpty && sqlLike pattern (skipChar text)
    else
      match text with
      | [] => false
      | c :: text => likeFold p == likeFold c && sqlLike pattern text

def wtTaskProjectionAllocatedTokensForModelFamily (rows : List TaskRow) (modelFamily : Bytes) :
    Int :=
  let pattern := snprintf 128 (modelFamily ++ bytes "/%")
  sumTokens (rows.filter fun row => sqlLike pattern row.modelId && !isTerminalStatus row.status)

end WovenTeam

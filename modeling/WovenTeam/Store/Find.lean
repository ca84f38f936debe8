import WovenTeam.Lib.FirstSeen
import WovenTeam.Store.Ledger

/-!
# The task finders

`wtTaskFindQueuedForAgent`, `wtTaskFindClaimableForAgent` and
`wtTaskFindClaimableForAgentOnHost`. Each folds the ledger into a table of at most 256 tasks in
the order of their first packages and then picks the first row that fits. The folds are
`FirstSeen` tables, so what a row holds is the fold of its own task's lines (`foldedState`), and
which tasks have a row is a matter of the order of first packages alone.
-/

namespace WovenTeam

open CText QuotedText FirstSeen

/-! ## Rows -/

/-- The fields of `WtTaskSummary` the finders write, after `memset` where they do not. -/
structure WtTaskSummary where
  taskId : Bytes := []
  assignedAgent : Bytes := []
  assignedRole : Bytes := []
  status : Bytes := []
  title : Bytes := []
  body : Bytes := []
  modelId : Bytes := []
  toolProfile : Bytes := []
  executionHost : Bytes := []
  autonomyLevel : Bytes := []
  autonomyScope : Bytes := []
  autonomyNetwork : Bytes := []
  autonomyCredentialClass : Bytes := []
  autonomyTtlSeconds : Int := 0
  autonomyMaxWallClockSeconds : Int := 0
  autonomyRequiresCleanWorktree : Bool := false
  autonomyCreatedAtUnixMs : Int := 0
  timeoutSeconds : Int := 0
  maxOutputBytes : Int := 0
  updatedAtUnixMs : Int := 0
  deriving DecidableEq, Repr

def populateTaskAutonomy (line : Bytes) (task : WtTaskSummary) : WtTaskSummary :=
  { task with
    autonomyLevel := (wtJsonReadString line "autonomyLevel" wtTaskPolicySize).orElse []
    autonomyScope := (wtJsonReadString line "scope" wtTaskBodySize).orElse []
    autonomyNetwork := (wtJsonReadString line "network" wtTaskPolicySize).orElse (bytes "none")
    autonomyCredentialClass :=
      (wtJsonReadString line "credentialClass" wtTaskPolicySize).orElse (bytes "none")
    autonomyTtlSeconds :=
      ((wtJsonReadLong line "ttlSeconds").map toInt32).getD task.autonomyTtlSeconds
    autonomyMaxWallClockSeconds :=
      ((wtJsonReadLong line "maxWallClockSeconds").map toInt32).getD
        task.autonomyMaxWallClockSeconds
    autonomyRequiresCleanWorktree :=
      ((wtJsonReadLong line "requiresCleanWorktree").map (· != 0)).getD
        task.autonomyRequiresCleanWorktree
    autonomyCreatedAtUnixMs :=
      (wtJsonReadLongLong line "createdAtUnixMs").getD task.autonomyCreatedAtUnixMs }

def populateTaskPackageFields (line : Bytes) (task : WtTaskSummary) : WtTaskSummary :=
  let task := { task with
    assignedAgent := (wtJsonReadString line "assignedAgent" wtTaskAgentSize).orElse []
    assignedRole := (wtJsonReadString line "assignedRole" wtTaskAgentSize).orElse []
    status := (wtJsonReadString line "status" wtTaskStatusSize).orElse (bytes "queued")
    title := (wtJsonReadString line "title" wtTaskTitleSize).orElse (bytes "Untitled task")
    body := (wtJsonReadString line "body" wtTaskBodySize).orElse []
    modelId := (wtJsonReadString line "modelId" wtTaskModelSize).orElse []
    toolProfile := (wtJsonReadString line "profile" wtTaskPolicySize).orElse (bytes "observe")
    executionHost := (wtJsonReadString line "executionHost" wtTaskAgentSize).orElse [] }
  let task := populateTaskAutonomy line task
  { task with
    timeoutSeconds := ((wtJsonReadLong line "timeoutSeconds").map toInt32).getD task.timeoutSeconds
    maxOutputBytes := ((wtJsonReadLong line "maxOutputBytes").map toInt32).getD task.maxOutputBytes
    updatedAtUnixMs := (wtJsonReadLongLong line "createdAtUnixMs").getD task.updatedAtUnixMs }

/-! ## The queued-task finder -/

/-- The event branch of `wtTaskFindQueuedForAgent`. -/
def overlayTaskEvent (line : Bytes) (task : WtTaskSummary) : WtTaskSummary :=
  { task with
    status := (wtJsonReadString line "status" wtTaskStatusSize).overwrite task.status
    assignedAgent :=
      (wtJsonReadString line "assignedAgent" wtTaskAgentSize).overwrite task.assignedAgent
    updatedAtUnixMs := (wtJsonReadLongLong line "createdAtUnixMs").getD task.updatedAtUnixMs }

def scanQueuedLine (line : Bytes) (task : WtTaskSummary) : WtTaskSummary :=
  if lineHasSchema line taskPackageSchema then populateTaskPackageFields line task
  else if lineHasSchema line taskEventSchema then overlayTaskEvent line task
  else task

def queuedTable : Table Bytes Bytes WtTaskSummary where
  key := lineTaskId
  creates line := lineHasSchema line taskPackageSchema
  idOf task := task.taskId
  create line taskId := populateTaskPackageFields line { taskId }
  update := scanQueuedLine
  idOf_create _ _ := rfl
  idOf_update line task := by
    unfold scanQueuedLine
    split
    · rfl
    · split <;> rfl

theorem queuedTable_key (line : Bytes) : queuedTable.key line = lineTaskId line := rfl

theorem queuedTable_creates (line : Bytes) :
    queuedTable.creates line = lineHasSchema line taskPackageSchema := rfl

theorem queuedTable_update (line : Bytes) (task : WtTaskSummary) :
    queuedTable.update line task = scanQueuedLine line task := rfl

def taskTableSize : Nat := 256

def scanQueued (ledger : Ledger) : List WtTaskSummary :=
  queuedTable.scan (some taskTableSize) ledger

/-- The test of the finder's last loop. -/
def isQueuedFor (agentName : Bytes) (task : WtTaskSummary) : Bool :=
  task.executionHost == [] && task.assignedAgent == agentName &&
    (task.status == bytes "queued" || task.status == bytes "assigned")

/-- The summary written to `*task` where the function returns 1. -/
def wtTaskFindQueuedForAgent (ledger : Ledger) (agentName : Bytes) : Option WtTaskSummary :=
  (scanQueued ledger).find? (isQueuedFor agentName)

/-! ## The claimable-task finders -/

/-- A row of the second pass: `tasks[i]`, `ownerAgent[i]` and `leaseExpiresAt[i]`. -/
structure ClaimRow where
  task : WtTaskSummary
  ownerAgent : Bytes := []
  leaseExpiresAt : Int := 0
  deriving DecidableEq, Repr

/-- The event branch of the second pass. The two finders differ in the event types that move the
expiry. -/
def overlayClaimEvent (movesExpiry : List String) (line : Bytes) (row : ClaimRow) : ClaimRow :=
  let eventType := lineEventType line
  let agent := wtJsonReadString line "assignedAgent" wtTaskAgentSize
  let routed := eventType == bytes "routing" || eventType == bytes "assignment"
  { task := { row.task with
      status := (wtJsonReadString line "status" wtTaskStatusSize).overwrite row.task.status
      updatedAtUnixMs := (wtJsonReadLongLong line "createdAtUnixMs").getD row.task.updatedAtUnixMs
      assignedAgent :=
        if routed then agent.overwrite row.task.assignedAgent else row.task.assignedAgent }
    ownerAgent := if routed then agent.overwrite row.ownerAgent else row.ownerAgent
    leaseExpiresAt :=
      if (movesExpiry.map bytes).contains eventType then
        (wtJsonReadLongLong line "leaseExpiresAtUnixMs").getD row.leaseExpiresAt
      else if eventType == bytes "reclaim" then 0
      else row.leaseExpiresAt }

/-- The package branch of the second pass. -/
def populateClaimRow (line : Bytes) (row : ClaimRow) : ClaimRow :=
  let task := populateTaskPackageFields line row.task
  { row with task, ownerAgent := snprintf wtTaskAgentSize task.assignedAgent }

def scanClaimLine (movesExpiry : List String) (line : Bytes) (row : ClaimRow) : ClaimRow :=
  if lineHasSchema line taskPackageSchema then populateClaimRow line row
  else if lineHasSchema line taskEventSchema then overlayClaimEvent movesExpiry line row
  else row

def claimTable (movesExpiry : List String) : Table Bytes Bytes ClaimRow where
  key := lineTaskId
  creates line := lineHasSchema line taskPackageSchema
  idOf row := row.task.taskId
  create line taskId := populateClaimRow line { task := { taskId } }
  update := scanClaimLine movesExpiry
  idOf_create _ _ := rfl
  idOf_update line row := by
    unfold scanClaimLine
    split
    · rfl
    · split <;> rfl

/-- Leased or running with an expired lease. -/
def ClaimRow.stuck (row : ClaimRow) (nowUnixMs : Int) : Bool :=
  (row.task.status == bytes "leased" || row.task.status == bytes "running") &&
    decide (row.leaseExpiresAt > 0) && decide (row.leaseExpiresAt ≤ nowUnixMs)

def ClaimRow.queued (row : ClaimRow) : Bool :=
  row.task.status == bytes "queued" || row.task.status == bytes "assigned"

/-- The summary handed out: the row with its owner in `assignedAgent`. -/
def ClaimRow.claimed (row : ClaimRow) : WtTaskSummary :=
  { row.task with assignedAgent := snprintf wtTaskAgentSize row.ownerAgent }

def wtTaskFindClaimableForAgent (ledger : Ledger) (agentName : Bytes) (nowUnixMs : Int) :
    Option WtTaskSummary :=
  match wtTaskFindQueuedForAgent ledger agentName with
  | some task => some task
  | none =>
    (((claimTable ["lease"]).scan (some taskTableSize) ledger).find? fun row =>
      row.stuck nowUnixMs && row.task.executionHost == [] && row.ownerAgent == agentName).map
        ClaimRow.claimed

def wtTaskFindClaimableForAgentOnHost (ledger : Ledger) (agentName executionHost : Bytes)
    (nowUnixMs : Int) : Option WtTaskSummary :=
  (((claimTable ["lease", "lease_renewal"]).scan (some taskTableSize) ledger).find? fun row =>
    (row.queued || row.stuck nowUnixMs) && row.ownerAgent == agentName &&
      (row.task.executionHost == [] || row.task.executionHost == executionHost)).map
        ClaimRow.claimed

/-- Whether the operator's last control record for the agent paused it. -/
def wtTaskAgentPaused (ledger : Ledger) (agentName : Bytes) : Bool :=
  let step : Bool → Bytes → Bool := fun paused line =>
    if lineHasSchema line "woventeam.agent_control.v0.1" &&
        wtJsonReadString line "agent" wtTaskAgentSize == .ok agentName then
      match wtJsonReadString line "action" 32 with
      | .ok action =>
        if action = bytes "pause" then true
        else if action = bytes "resume" then false
        else paused
      | _ => paused
    else paused
  ledger.foldl step false

/-! ## What a row holds -/

/-- The state a task's own lines fold to: its latest package overlaid by its later events. -/
def foldedState (ledger : Ledger) (taskId : Bytes) : Option WtTaskSummary :=
  queuedTable.stateOf ledger taskId

/-- The task is in the ledger and waits for no particular host. -/
def Unpinned (ledger : Ledger) (taskId : Bytes) : Prop :=
  (foldedState ledger taskId).map WtTaskSummary.executionHost = some []

instance (ledger : Ledger) (taskId : Bytes) : Decidable (Unpinned ledger taskId) := by
  unfold Unpinned
  infer_instance

/-- The ids of the task packages in the order of each id's first one. -/
def packageIds (ledger : Ledger) : List Bytes := queuedTable.firstSeen ledger

/-- The line of a task's first package. -/
def firstPackage (ledger : Ledger) (taskId : Bytes) : Option Nat :=
  queuedTable.firstIndex ledger taskId

/-- The ids the finders have a row for. -/
def trackedIds (ledger : Ledger) : List Bytes := (packageIds ledger).take taskTableSize

theorem mem_scanQueued_iff {ledger : Ledger} {task : WtTaskSummary} :
    task ∈ scanQueued ledger ↔
      task.taskId ∈ trackedIds ledger ∧ foldedState ledger task.taskId = some task :=
  queuedTable.mem_scan_iff

theorem foldedState_taskId {ledger : Ledger} {taskId : Bytes} {task : WtTaskSummary}
    (h : foldedState ledger taskId = some task) : task.taskId = taskId :=
  queuedTable.idOf_stateOf h

theorem mem_packageIds_iff {ledger : Ledger} {taskId : Bytes} :
    taskId ∈ packageIds ledger ↔ (foldedState ledger taskId).isSome :=
  queuedTable.mem_firstSeen_iff

/-- A task event gives no task a row and changes the state of its own task alone. -/
theorem packageIds_append_event {ledger : Ledger} {line : Bytes}
    (h : lineHasSchema line taskEventSchema) : packageIds (ledger ++ [line]) = packageIds ledger := by
  rw [packageIds, Table.firstSeen_append, Table.seenStep, queuedTable_creates,
    taskEvent_ne_taskPackage h]
  cases queuedTable.key line <;> simp [packageIds]

theorem trackedIds_append_event {ledger : Ledger} {line : Bytes}
    (h : lineHasSchema line taskEventSchema) : trackedIds (ledger ++ [line]) = trackedIds ledger := by
  rw [trackedIds, packageIds_append_event h, trackedIds]

theorem foldedState_append_event {ledger : Ledger} {line : Bytes}
    (h : lineHasSchema line taskEventSchema) (taskId : Bytes) :
    foldedState (ledger ++ [line]) taskId =
      if lineTaskId line = some taskId then (foldedState ledger taskId).map (overlayTaskEvent line)
      else foldedState ledger taskId := by
  have hpkg := taskEvent_ne_taskPackage h
  rw [foldedState, Table.stateOf_append, ← foldedState]
  by_cases hid : lineTaskId line = some taskId
  · rw [if_pos hid]
    cases foldedState ledger taskId with
    | none => simp [queuedTable.stateStep_none (queuedTable_key line ▸ hid), queuedTable_creates, hpkg]
    | some task =>
      rw [queuedTable.stateStep_some (queuedTable_key line ▸ hid), queuedTable_update,
        scanQueuedLine, hpkg]
      simp [h]
  · rw [if_neg hid, queuedTable.stateStep_of_ne (queuedTable_key line ▸ hid)]

/-! ## What the finder should return -/

/-- The task's folded state waits, on no particular host, for the agent. -/
def Eligible (ledger : Ledger) (agentName taskId : Bytes) : Prop :=
  ∃ task, foldedState ledger taskId = some task ∧ task.executionHost = [] ∧
    task.assignedAgent = agentName ∧ (task.status = bytes "queued" ∨ task.status = bytes "assigned")

/-- The finder returns a task exactly when one is eligible, and then the state of the eligible
task whose first package comes earliest. -/
def FindsQueued (ledger : Ledger) (agentName : Bytes) : Prop :=
  ((wtTaskFindQueuedForAgent ledger agentName).isSome ↔
      ∃ taskId, Eligible ledger agentName taskId) ∧
    ∀ task, wtTaskFindQueuedForAgent ledger agentName = some task →
      foldedState ledger task.taskId = some task ∧ Eligible ledger agentName task.taskId ∧
        ∃ i, firstPackage ledger task.taskId = some i ∧
          ∀ taskId, Eligible ledger agentName taskId →
            ∃ j, firstPackage ledger taskId = some j ∧ i ≤ j

theorem isQueuedFor_iff {agentName : Bytes} {task : WtTaskSummary} :
    isQueuedFor agentName task ↔ task.executionHost = [] ∧ task.assignedAgent = agentName ∧
      (task.status = bytes "queued" ∨ task.status = bytes "assigned") := by
  simp [isQueuedFor, and_assoc]

theorem eligible_of_find {ledger : Ledger} {agentName : Bytes} {task : WtTaskSummary}
    (h : wtTaskFindQueuedForAgent ledger agentName = some task) :
    foldedState ledger task.taskId = some task ∧ Eligible ledger agentName task.taskId ∧
      task.taskId ∈ trackedIds ledger := by
  obtain ⟨htracked, hstate⟩ := mem_scanQueued_iff.mp (List.mem_of_find?_eq_some h)
  have hq := isQueuedFor_iff.mp (List.find?_some h)
  exact ⟨hstate, ⟨task, hstate, hq⟩, htracked⟩

theorem find_isSome_of_eligible {ledger : Ledger} {agentName taskId : Bytes}
    (ht : taskId ∈ trackedIds ledger) (h : Eligible ledger agentName taskId) :
    (wtTaskFindQueuedForAgent ledger agentName).isSome := by
  obtain ⟨task, hstate, hq⟩ := h
  have hid := foldedState_taskId hstate
  rw [wtTaskFindQueuedForAgent, List.find?_isSome]
  refine ⟨task, mem_scanQueued_iff.mpr ?_, isQueuedFor_iff.mpr hq⟩
  rw [hid]
  exact ⟨ht, hstate⟩

def packageRecord (taskId agent : Literal) : Members :=
  str "schema" (.ofPlain "woventeam.task_package.v0.1") ++ str "taskId" taskId ++
    str "assignedRole" (.ofPlain "dev") ++ str "assignedAgent" agent "\x7d"

def numberedId (n : Nat) : Literal :=
  ⟨decimalNat n, .of_plain fun b hb => by
    obtain ⟨d, hd, rfl⟩ := mem_decimalNat hb
    interval_cases d <;> decide⟩

/-- Packages `0` to `n - 1` for one agent. -/
def numberedPackages (n : Nat) : Ledger :=
  (List.range n).map fun i => recordLine (packageRecord (numberedId i) (.ofPlain "gemini"))

theorem plain_numberedId (n : Nat) : Plain (numberedId n).text := fun b hb => by
  obtain ⟨d, hd, rfl⟩ := mem_decimalNat hb
  interval_cases d <;> decide

theorem packageRecord_schema (taskId agent : Literal) :
    lineHasSchema (recordLine (packageRecord taskId agent)) taskPackageSchema := by
  rw [lineHasSchema, recordLine, wtJsonReadString_object (.of_check rfl) quote_notMem_newline
    (v := .ofPlain "woventeam.task_package.v0.1") rfl (by decide)]
  decide

theorem packageRecord_taskId {taskId agent : Literal} (hp : Plain taskId.text)
    (hlen : taskId.text.length < wtTaskIdSize) :
    lineTaskId (recordLine (packageRecord taskId agent)) = some taskId.text := by
  rw [lineTaskId, recordLine, wtJsonReadString_object (.of_check rfl) quote_notMem_newline
    (v := taskId) rfl (by rwa [unescape_of_plain hp]), unescape_of_plain hp]
  rfl

theorem packageRecord_agent (taskId : Literal) :
    wtJsonReadString (recordLine (packageRecord taskId (.ofPlain "gemini"))) "assignedAgent"
      wtTaskAgentSize = .ok (bytes "gemini") :=
  wtJsonReadString_object (.of_check rfl) quote_notMem_newline (v := .ofPlain "gemini") rfl (by decide)

theorem length_numberedId : ∀ n < taskTableSize, (numberedId n).text.length < wtTaskIdSize := by
  decide +kernel

theorem numberedId_injective {m n : Nat} (h : (numberedId m).text = (numberedId n).text) :
    m = n := by
  rw [← digitsValue_decimalNat m, ← digitsValue_decimalNat n]
  exact congrArg digitsValue h

theorem packageIds_numberedPackages {n : Nat} (h : n ≤ taskTableSize) :
    packageIds (numberedPackages n) = (List.range n).map fun i => (numberedId i).text := by
  induction n with
  | zero => rfl
  | succ n ih =>
    have hid := @packageRecord_taskId _ (.ofPlain "gemini") (plain_numberedId n)
      (length_numberedId n (by omega))
    have hnew : (numberedId n).text ∉ (List.range n).map fun i => (numberedId i).text := by
      intro hmem
      obtain ⟨m, hm, heq⟩ := List.mem_map.mp hmem
      have := numberedId_injective heq
      simp only [List.mem_range] at hm
      omega
    rw [packageIds, numberedPackages, List.range_succ, List.map_append, List.map_singleton,
      Table.firstSeen_append, ← numberedPackages, ← packageIds, ih (by omega), Table.seenStep]
    simp only [queuedTable, hid, packageRecord_schema, hnew, not_false_eq_true, and_self,
      ↓reduceIte, List.map_append, List.map_singleton]

def lateLine : Bytes := recordLine (packageRecord (.ofPlain "late") (.ofPlain "claude"))

def fullTableLedger : Ledger := numberedPackages taskTableSize ++ [lateLine]

end WovenTeam

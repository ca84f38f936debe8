import WovenTeam.Config
import WovenTeam.Store.Find
import WovenTeam.Store.Records

/-!
# Elevation

`autonomyGrantActive` decides whether an adapter runs with elevated permissions: the effective
level, the operator's revocations, the lifetime and scope of the grant and the state of the
worktree. The grant is in the package, as `wt-task create` writes it; its reader knows strings and
integers, so the boolean `requiresCleanWorktree` is never read, a lifetime is cut to an `int`, a
creation time that is not positive counts as now, and a revocation with such a time does not count.
`elevation_sound_iff` says that these are the only ways in which an elevation is unsound.
-/

namespace WovenTeam

open CText QuotedText FirstSeen

/-! ## Revocations -/

def autonomyEventSchema : String := "woventeam.autonomy_event.v0.1"

/-- A line that revokes the task's grant. -/
def isRevocationOf (taskId line : Bytes) : Bool :=
  lineHasSchema line autonomyEventSchema && lineTaskId line == some taskId &&
    wtJsonReadString line "action" 64 == .ok (bytes "revoked")

/-- The outputs of `wtTaskReadLatestAutonomyRevocation`. -/
structure AutonomyRevocation where
  revokedAtUnixMs : Int := 0
  revokedBy : Bytes := []
  deriving DecidableEq, Repr

def wtTaskReadLatestAutonomyRevocation (ledger : Ledger) (taskId : Bytes) : AutonomyRevocation :=
  let step : AutonomyRevocation → Bytes → AutonomyRevocation := fun revocation line =>
    if isRevocationOf taskId line then
      { revokedAtUnixMs :=
          (wtJsonReadLongLong line "createdAtUnixMs").getD revocation.revokedAtUnixMs
        revokedBy := (wtJsonReadString line "actor" wtTaskAgentSize).orElse [] }
    else revocation
  ledger.foldl step {}

/-! ## The decision -/

def effectiveAutonomyLevel (config : WtConfig) (agentName : Bytes) (task : WtTaskSummary) : Bytes :=
  if task.autonomyLevel ≠ [] then snprintf wtTaskPolicySize task.autonomyLevel
  else snprintf wtTaskPolicySize
    ((configuredAutonomyForAgent config agentName).getD (profileDefaultAutonomy task.toolProfile))

def scopeCoversAdapter (scope : Bytes) : Bool :=
  (strstr (bytes "workspace") scope).isSome || (strstr (bytes "adapter") scope).isSome ||
    (strstr (bytes "*") scope).isSome

/-- `worktreeClean` is whether `git diff` finds no change. -/
def cleanWorktreeRequiredOk (task : WtTaskSummary) (worktreeClean : Bool) : Bool :=
  !task.autonomyRequiresCleanWorktree || worktreeClean

/-- A grant without a positive creation time starts now. -/
def grantStart (task : WtTaskSummary) (nowUnixMs : Int) : Int :=
  if task.autonomyCreatedAtUnixMs > 0 then task.autonomyCreatedAtUnixMs else nowUnixMs

structure AutonomyDecision where
  active : Bool
  level : Bytes
  reason : Bytes
  deriving DecidableEq, Repr

def autonomyGrantActive (config : WtConfig) (agentName : Bytes) (ledger : Ledger)
    (task : WtTaskSummary) (adapterName : Bytes) (nowUnixMs : Int) (worktreeClean : Bool) :
    AutonomyDecision :=
  let level := effectiveAutonomyLevel config agentName task
  let outcome : Bool → Bytes → AutonomyDecision := fun active reason =>
    { active, level, reason := snprintf 256 reason }
  let revocation := wtTaskReadLatestAutonomyRevocation ledger task.taskId
  if revocation.revokedAtUnixMs > 0 then
    outcome false (bytes "autonomy revoked by " ++
      (if revocation.revokedBy = [] then bytes "operator" else revocation.revokedBy))
  else if level ≠ bytes "autonomous" then
    outcome false (bytes "autonomy level " ++ level ++
      bytes " does not permit elevated adapter flags")
  else if task.autonomyTtlSeconds ≤ 0 ∨ !scopeCoversAdapter task.autonomyScope then
    outcome false (bytes "autonomy grant missing ttl or adapter/workspace scope")
  else if nowUnixMs > wrap64 (grantStart task nowUnixMs + task.autonomyTtlSeconds * 1000) then
    outcome false (bytes "autonomy grant expired")
  else if !cleanWorktreeRequiredOk task worktreeClean then
    outcome false (bytes "autonomy requires a clean worktree")
  else
    outcome true (bytes "autonomy grant permits " ++ adapterName ++ bytes " adapter invocation")

/-! ## The package of `wt-task create` -/

/-- The `autonomyGrant` object. -/
structure AutonomyGrant where
  scope : Literal
  ttlSeconds : Int
  maxTokens : Int
  network : Literal
  credentialClass : Literal
  requiresCleanWorktree : Bool

/-- What `cmd_create` puts in a package. Level and grant stand in it where they were asked for. -/
structure CreateArguments where
  taskId : Literal
  initiativeId : Literal
  assignedRole : Literal
  assignedAgent : Literal
  modelId : Literal
  priority : Literal
  title : Literal
  body : Literal
  toolProfile : Literal
  filesystem : Literal
  policyNetwork : Literal
  git : Literal
  maxTokens : Int
  createdAtUnixMs : Int
  autonomyLevel : Option Literal
  autonomyGrant : Option AutonomyGrant

def AutonomyGrant.members (g : AutonomyGrant) : Members :=
  raw "autonomyGrant" "\x7b" ++ str "scope" g.scope ++ num "ttlSeconds" g.ttlSeconds ++
  num "maxWallClockSeconds" 1800 ++ raw "maxCostUsd" "1.0," ++ num "maxTokens" g.maxTokens ++
  str "network" g.network ++ str "credentialClass" g.credentialClass ++
  (if g.requiresCleanWorktree then raw "requiresCleanWorktree" "true\x7d\x7d"
    else raw "requiresCleanWorktree" "false\x7d\x7d")

/-- The members in front of `createdAtUnixMs`. -/
def CreateArguments.head (a : CreateArguments) : Members :=
  str "schema" (.ofPlain "woventeam.task_package.v0.1") ++ str "taskId" a.taskId ++
  str "initiativeId" a.initiativeId ++ str "createdBy" (.ofPlain "ceo") ++
  str "assignedRole" a.assignedRole ++ str "assignedAgent" a.assignedAgent ++
  str "modelId" a.modelId ++ str "priority" a.priority ++ str "status" (.ofPlain "queued") ++
  str "title" a.title ++ str "body" a.body ++ raw "task" "\x7b" ++ str "title" a.title ++
  str "body" a.body ++ raw "deliverables" "[]\x7d," ++ raw "contextRefs" "[]," ++
  raw "acceptanceCriteria" "[" ++
  elem (.ofPlain "Task result is recorded in the room and task ledger.") "]," ++
  raw "toolPolicy" "\x7b" ++ str "profile" a.toolProfile ++ str "filesystem" a.filesystem ++
  str "network" a.policyNetwork ++ str "system" (.ofPlain "none") ++ str "git" a.git "\x7d," ++
  raw "budget" "\x7b" ++ num "timeoutSeconds" 1800 ++ num "maxOutputBytes" 1048576 ++
  raw "maxCostUsd" "1.0," ++ num "maxTokens" a.maxTokens "\x7d," ++ raw "dependencies" "[],"

/-- The creation time and what follows it. -/
def CreateArguments.tail (a : CreateArguments) : Members :=
  match a.autonomyLevel, a.autonomyGrant with
  | none, none => num "createdAtUnixMs" a.createdAtUnixMs "\x7d"
  | some level, none =>
    num "createdAtUnixMs" a.createdAtUnixMs ++ str "autonomyLevel" level "\x7d"
  | none, some grant => num "createdAtUnixMs" a.createdAtUnixMs ++ grant.members
  | some level, some grant =>
    num "createdAtUnixMs" a.createdAtUnixMs ++ str "autonomyLevel" level ++ grant.members

def CreateArguments.record (a : CreateArguments) : Members := a.head ++ a.tail

/-! ### What the readers make of it -/

section read

variable (a : CreateArguments)

theorem CreateArguments.head_keysAmong : a.head.KeysAmong
    ["schema", "taskId", "initiativeId", "createdBy", "assignedRole", "assignedAgent", "modelId",
      "priority", "status", "title", "body", "task", "deliverables", "contextRefs",
      "acceptanceCriteria", "toolPolicy", "profile", "filesystem", "network", "system", "git",
      "budget", "timeoutSeconds", "maxOutputBytes", "maxCostUsd", "maxTokens", "dependencies"] := by
  unfold CreateArguments.head
  repeat' with_reducible apply Members.KeysAmong.append
  all_goals first
    | refine keysAmong_str _ _ _ _ ?_
    | refine keysAmong_num _ _ _ _ ?_
    | refine keysAmong_raw _ _ _ ?_
    | exact keysAmong_elem _ _ _
  all_goals repeat first | exact List.mem_cons_self | apply List.mem_cons_of_mem

/-- The fields of the grant and the creation time stand in the tail only. -/
theorem lookup_createRecord {k : Bytes} (hk : a.head.Lacks k) :
    lookup k a.record.items = lookup k a.tail.items :=
  lookup_append_of_lacks hk a.tail.items

theorem createRecord_ttlSeconds :
    wtJsonReadLong (recordLine a.record) "ttlSeconds" =
      a.autonomyGrant.map fun grant => clamp64 grant.ttlSeconds := by
  have hhead : a.head.Lacks (bytes "ttlSeconds") := a.head_keysAmong.lacks (by decide)
  have hl := lookup_createRecord a hhead
  unfold CreateArguments.tail at hl
  rcases hlevel : a.autonomyLevel with _ | level <;>
    rcases hgrant : a.autonomyGrant with _ | grant <;> rw [hlevel, hgrant] at hl
  · exact wtJsonReadLong_object_absent (.of_check rfl) quote_notMem_newline (hl.trans rfl)
  · exact wtJsonReadLong_object_clamp (.of_check rfl) quote_notMem_newline (hl.trans rfl) rfl
  · exact wtJsonReadLong_object_absent (.of_check rfl) quote_notMem_newline (hl.trans rfl)
  · exact wtJsonReadLong_object_clamp (.of_check rfl) quote_notMem_newline (hl.trans rfl) rfl

theorem createRecord_createdAtUnixMs :
    wtJsonReadLong (recordLine a.record) "createdAtUnixMs" = some (clamp64 a.createdAtUnixMs) := by
  have hhead : a.head.Lacks (bytes "createdAtUnixMs") := a.head_keysAmong.lacks (by decide)
  have hl := lookup_createRecord a hhead
  unfold CreateArguments.tail at hl
  rcases hlevel : a.autonomyLevel with _ | level <;>
    rcases hgrant : a.autonomyGrant with _ | grant <;> rw [hlevel, hgrant] at hl
  · exact wtJsonReadLong_object_clamp (.of_check rfl) quote_notMem_newline (hl.trans rfl) rfl
  · exact wtJsonReadLong_object_clamp (.of_check rfl) quote_notMem_newline (hl.trans rfl) rfl
  · exact wtJsonReadLong_object_clamp (.of_check rfl) quote_notMem_newline (hl.trans rfl) rfl
  · exact wtJsonReadLong_object_clamp (.of_check rfl) quote_notMem_newline (hl.trans rfl) rfl

theorem createRecord_scope :
    (wtJsonReadString (recordLine a.record) "scope" wtTaskBodySize).toOption =
      a.autonomyGrant.bind fun grant =>
        if (unescape grant.scope.text).length < wtTaskBodySize then some (unescape grant.scope.text)
        else none := by
  have hhead : a.head.Lacks (bytes "scope") := a.head_keysAmong.lacks (by decide)
  have hl := lookup_createRecord a hhead
  have hsize : 0 < wtTaskBodySize := by decide
  unfold CreateArguments.tail at hl
  rcases hlevel : a.autonomyLevel with _ | level <;>
    rcases hgrant : a.autonomyGrant with _ | grant <;> rw [hlevel, hgrant] at hl
  · rw [recordLine, wtJsonReadString_object_absent (.of_check rfl) quote_notMem_newline (hl.trans rfl)]
    rfl
  · exact toOption_object (.of_check rfl) quote_notMem_newline (hl.trans rfl) hsize
  · rw [recordLine, wtJsonReadString_object_absent (.of_check rfl) quote_notMem_newline (hl.trans rfl)]
    rfl
  · exact toOption_object (.of_check rfl) quote_notMem_newline (hl.trans rfl) hsize

/-- The boolean is no integer. -/
theorem createRecord_requiresCleanWorktree :
    wtJsonReadLong (recordLine a.record) "requiresCleanWorktree" = none := by
  have hhead : a.head.Lacks (bytes "requiresCleanWorktree") := a.head_keysAmong.lacks (by decide)
  have hl := lookup_createRecord a hhead
  have htrue : strtoll (dropSpaces ((bytes "true\x7d\x7d" ++ []) ++ [newline])) = none := by decide
  have hfalse : strtoll (dropSpaces ((bytes "false\x7d\x7d" ++ []) ++ [newline])) = none := by
    decide
  unfold CreateArguments.tail AutonomyGrant.members at hl
  rcases hlevel : a.autonomyLevel with _ | level <;>
    rcases hgrant : a.autonomyGrant with _ | grant <;> rw [hlevel, hgrant] at hl
  · exact wtJsonReadLong_object_absent (.of_check rfl) quote_notMem_newline (hl.trans rfl)
  · dsimp only at hl
    cases hclean : grant.requiresCleanWorktree <;> rw [hclean] at hl
    · exact wtJsonReadLong_object_none (.of_check rfl) quote_notMem_newline (hl.trans rfl) hfalse
    · exact wtJsonReadLong_object_none (.of_check rfl) quote_notMem_newline (hl.trans rfl) htrue
  · exact wtJsonReadLong_object_absent (.of_check rfl) quote_notMem_newline (hl.trans rfl)
  · dsimp only at hl
    cases hclean : grant.requiresCleanWorktree <;> rw [hclean] at hl
    · exact wtJsonReadLong_object_none (.of_check rfl) quote_notMem_newline (hl.trans rfl) hfalse
    · exact wtJsonReadLong_object_none (.of_check rfl) quote_notMem_newline (hl.trans rfl) htrue

end read

/-! ## Elevation soundness -/

/-- The summary of a task whose package has the arguments, as a finder reads it into any row, and
after events, which change the status, the assignee and the time of the last change. -/
inductive PackageTask (a : CreateArguments) : WtTaskSummary → Prop
  | package (row : WtTaskSummary) :
      PackageTask a (populateTaskPackageFields (recordLine a.record) row)
  | event (status assignedAgent : Bytes) (updatedAtUnixMs : Int) {task : WtTaskSummary}
      (h : PackageTask a task) : PackageTask a { task with status, assignedAgent, updatedAtUnixMs }

theorem PackageTask.overlayTaskEvent {a : CreateArguments} {task : WtTaskSummary}
    (h : PackageTask a task) (line : Bytes) : PackageTask a (overlayTaskEvent line task) :=
  .event _ _ _ h

theorem PackageTask.overlayClaimEvent {a : CreateArguments} {row : ClaimRow}
    (h : PackageTask a row.task) (movesExpiry : List String) (line : Bytes) :
    PackageTask a (overlayClaimEvent movesExpiry line row).task :=
  .event _ _ _ h

section summary

variable {a : CreateArguments} {task : WtTaskSummary}

theorem populateTaskPackageFields_autonomyScope (line : Bytes) (row : WtTaskSummary) :
    (populateTaskPackageFields line row).autonomyScope =
      (wtJsonReadString line "scope" wtTaskBodySize).orElse [] := rfl

theorem PackageTask.ttlSeconds (h : PackageTask a task) {grant : AutonomyGrant}
    (hgrant : a.autonomyGrant = some grant) :
    task.autonomyTtlSeconds = toInt32 (clamp64 grant.ttlSeconds) := by
  induction h with
  | package row =>
    have hread := createRecord_ttlSeconds a
    rw [hgrant, Option.map_some] at hread
    simp [populateTaskPackageFields, populateTaskAutonomy, hread]
  | event _ _ _ _ ih => exact ih

theorem PackageTask.createdAtUnixMs (h : PackageTask a task) :
    task.autonomyCreatedAtUnixMs = clamp64 a.createdAtUnixMs := by
  induction h with
  | package row =>
    have hread := createRecord_createdAtUnixMs a
    simp [populateTaskPackageFields, populateTaskAutonomy, wtJsonReadLongLong, hread]
  | event _ _ _ _ ih => exact ih

/-- Without a grant, or where its scope is too long, no scope is read. -/
theorem PackageTask.scope (h : PackageTask a task) (hcovers : scopeCoversAdapter task.autonomyScope) :
    ∃ grant, a.autonomyGrant = some grant ∧ scopeCoversAdapter (unescape grant.scope.text) := by
  induction h with
  | package row =>
    rw [populateTaskPackageFields_autonomyScope, StringField.orElse_eq, createRecord_scope]
      at hcovers
    have hempty : scopeCoversAdapter [] = false := by decide
    cases hgrant : a.autonomyGrant with
    | none =>
      rw [hgrant, Option.bind_none, Option.getD_none, hempty] at hcovers
      cases hcovers
    | some grant =>
      rw [hgrant, Option.bind_some] at hcovers
      split at hcovers
      · exact ⟨grant, rfl, hcovers⟩
      · rw [Option.getD_none, hempty] at hcovers
        cases hcovers
  | event _ _ _ _ ih => exact ih hcovers

end summary

/-- What the decision rests on where it is to elevate. -/
structure ElevationSound (config : WtConfig) (agentName : Bytes) (ledger : Ledger)
    (a : CreateArguments) (task : WtTaskSummary) (nowUnixMs : Int) (worktreeClean : Bool) :
    Prop where
  autonomous : effectiveAutonomyLevel config agentName task = bytes "autonomous"
  notRevoked : ∀ line ∈ ledger, ¬ isRevocationOf task.taskId line
  granted : ∃ grant, a.autonomyGrant = some grant ∧ 0 < grant.ttlSeconds ∧
    nowUnixMs ≤ a.createdAtUnixMs + 1000 * grant.ttlSeconds ∧
    scopeCoversAdapter (unescape grant.scope.text) ∧
    (grant.requiresCleanWorktree → worktreeClean)

/-- The inputs whose revocations, times and worktree the decision takes into account. -/
structure ElevationHonours (ledger : Ledger) (a : CreateArguments) (taskId : Bytes)
    (nowUnixMs : Int) (worktreeClean : Bool) : Prop where
  revocations : (∃ line ∈ ledger, isRevocationOf taskId line) →
    0 < (wtTaskReadLatestAutonomyRevocation ledger taskId).revokedAtUnixMs
  lifetime : ∀ grant ∈ a.autonomyGrant, -2 ^ 31 ≤ grant.ttlSeconds
  start : ∀ grant ∈ a.autonomyGrant, a.createdAtUnixMs ≤ 0 →
    nowUnixMs ≤ a.createdAtUnixMs + 1000 * grant.ttlSeconds
  worktree : ∀ grant ∈ a.autonomyGrant, grant.requiresCleanWorktree → worktreeClean

/-- What each test of the decision has let through. -/
structure ElevationPassed (config : WtConfig) (agentName : Bytes) (ledger : Ledger)
    (task : WtTaskSummary) (nowUnixMs : Int) : Prop where
  notRevoked : (wtTaskReadLatestAutonomyRevocation ledger task.taskId).revokedAtUnixMs ≤ 0
  autonomous : effectiveAutonomyLevel config agentName task = bytes "autonomous"
  lifetime : 0 < task.autonomyTtlSeconds
  scope : scopeCoversAdapter task.autonomyScope
  unexpired : nowUnixMs ≤
    wrap64 (grantStart task nowUnixMs + task.autonomyTtlSeconds * 1000)

section soundness

variable {config : WtConfig} {agentName : Bytes} {ledger : Ledger} {task : WtTaskSummary}
  {adapterName : Bytes} {nowUnixMs : Int} {worktreeClean : Bool} {a : CreateArguments}

theorem elevationPassed_of_active
    (h : (autonomyGrantActive config agentName ledger task adapterName nowUnixMs
      worktreeClean).active = true) :
    ElevationPassed config agentName ledger task nowUnixMs := by
  unfold autonomyGrantActive at h
  dsimp only at h
  split at h
  · cases h
  rename_i hrevoked
  split at h
  · cases h
  rename_i hlevel
  split at h
  · cases h
  rename_i hgrant
  split at h
  · cases h
  rename_i hexpired
  rw [not_or] at hgrant
  exact ⟨not_lt.mp hrevoked, not_not.mp hlevel, not_le.mp hgrant.1, by simpa using hgrant.2,
    not_lt.mp hexpired⟩

/-- **An elevation is sound exactly where every revocation of the task has a positive time, the
lifetime is not below the range of an `int`, a grant that was not created at a positive time has
not run out, and the worktree is clean if the grant asks for it.** -/
theorem elevation_sound_iff (htask : PackageTask a task)
    (hactive : (autonomyGrantActive config agentName ledger task adapterName nowUnixMs
      worktreeClean).active = true) :
    ElevationSound config agentName ledger a task nowUnixMs worktreeClean ↔
      ElevationHonours ledger a task.taskId nowUnixMs worktreeClean := by
  have hpassed := elevationPassed_of_active hactive
  obtain ⟨grant, hgrant, hcovers⟩ := htask.scope hpassed.scope
  have httl := htask.ttlSeconds hgrant
  have hcreated := htask.createdAtUnixMs
  have hlifetime := hpassed.lifetime
  have hunexpired := hpassed.unexpired
  rw [httl] at hlifetime
  rw [grantStart, hcreated, httl] at hunexpired
  constructor
  · intro hsound
    obtain ⟨grant', hgrant', hpos, hlive, -, hclean⟩ := hsound.granted
    obtain rfl : grant = grant' := Option.some.inj (hgrant.symm.trans hgrant')
    refine ⟨fun ⟨line, hline, hrev⟩ => absurd hrev (hsound.notRevoked line hline), ?_, ?_, ?_⟩
    · intro g hg
      obtain rfl : grant = g := Option.some.inj (hgrant.symm.trans hg)
      omega
    · intro g hg _
      obtain rfl : grant = g := Option.some.inj (hgrant.symm.trans hg)
      exact hlive
    · intro g hg
      obtain rfl : grant = g := Option.some.inj (hgrant.symm.trans hg)
      exact hclean
  · intro hhonours
    have hrange := hhonours.lifetime grant hgrant
    have hlow : -2 ^ 31 ≤ clamp64 grant.ttlSeconds := by
      unfold clamp64
      omega
    have hread : toInt32 (clamp64 grant.ttlSeconds) ≤ grant.ttlSeconds :=
      (toInt32_le hlow).trans (clamp64_le (by omega))
    refine ⟨hpassed.autonomous, fun line hline hrev => ?_, grant, hgrant, by omega, ?_, hcovers,
      hhonours.worktree grant hgrant⟩
    · have hdated := hhonours.revocations ⟨line, hline, hrev⟩
      exact absurd hdated (not_lt.mpr hpassed.notRevoked)
    · by_cases hstart : a.createdAtUnixMs ≤ 0
      · exact hhonours.start grant hgrant hstart
      · -- the sum may wrap, which only brings the end of the lifetime forward
        have hpositive := clamp64_pos (not_le.mp hstart)
        have hstored : clamp64 a.createdAtUnixMs ≤ a.createdAtUnixMs := clamp64_le (by omega)
        rw [if_pos hpositive] at hunexpired
        have hwrap := wrap64_le (n := clamp64 a.createdAtUnixMs +
          toInt32 (clamp64 grant.ttlSeconds) * 1000) (by omega)
        omega

end soundness

/-- A grant that asks for a clean worktree. -/
def cleanGrantPackage : CreateArguments where
  taskId := .ofPlain "task-1"
  initiativeId := .ofPlain "init-1"
  assignedRole := .ofPlain "backend"
  assignedAgent := .ofPlain "chatgpt"
  modelId := .ofPlain ""
  priority := .ofPlain "normal"
  title := .ofPlain "t"
  body := .ofPlain "b"
  toolProfile := .ofPlain "observe"
  filesystem := .ofPlain "read_only"
  policyNetwork := .ofPlain "none"
  git := .ofPlain "none"
  maxTokens := 100
  createdAtUnixMs := 1000
  autonomyLevel := some (.ofPlain "autonomous")
  autonomyGrant := some {
    scope := .ofPlain "workspace"
    ttlSeconds := 60
    maxTokens := 100
    network := .ofPlain "none"
    credentialClass := .ofPlain "none"
    requiresCleanWorktree := true }

def cleanGrantTask : WtTaskSummary :=
  populateTaskPackageFields (recordLine cleanGrantPackage.record) { taskId := bytes "task-1" }

theorem cleanGrantTask_active : ∀ worktreeClean, (autonomyGrantActive {} (bytes "chatgpt") []
    cleanGrantTask (bytes "codex") 2000 worktreeClean).active = true := by
  decide +kernel

theorem elevation_sound_clean : ElevationSound {} (bytes "chatgpt") [] cleanGrantPackage
    cleanGrantTask 2000 true := by
  have hhonours : ElevationHonours [] cleanGrantPackage cleanGrantTask.taskId 2000 true := by
    refine ⟨by simp, fun grant hgrant => ?_, fun _ _ hstart => ?_, fun _ _ _ => rfl⟩
    · rw [← Option.some.inj hgrant]
      decide
    · exact absurd hstart (by decide)
  exact (elevation_sound_iff (.package _) (cleanGrantTask_active true)).mpr hhonours

/-- The worktree of this grant is not looked at. -/
theorem not_elevation_sound : ¬ ∀ (config : WtConfig) (agentName : Bytes) (ledger : Ledger)
    (a : CreateArguments) (task : WtTaskSummary) (adapterName : Bytes) (nowUnixMs : Int)
    (worktreeClean : Bool), PackageTask a task →
    (autonomyGrantActive config agentName ledger task adapterName nowUnixMs
      worktreeClean).active = true →
    ElevationSound config agentName ledger a task nowUnixMs worktreeClean := by
  intro hall
  obtain ⟨grant, hgrant, -, -, -, hclean⟩ := (hall {} (bytes "chatgpt") [] cleanGrantPackage
    cleanGrantTask (bytes "codex") 2000 false (.package _) (cleanGrantTask_active false)).granted
  rw [← Option.some.inj hgrant] at hclean
  cases hclean rfl

end WovenTeam

import WovenTeam.Policy
import WovenTeam.Projection
import WovenTeam.Roomd.Auth
import WovenTeam.Roomd.Compact
import WovenTeam.Roomd.Http
import WovenTeam.Store.Records
import WovenTeam.Store.Tokens

/-!
# Admission

`POST /api/task-package` and `POST /api/task-request`. Both handlers read a proposal out of the
body, route the agent, choose the model, ask the policy evaluator and check the host; then the
first appends the client's own JSON and a routing event, the second a request and a package
printed anew.
-/

namespace WovenTeam

open CText QuotedText LineReader

/-! ## Routing -/

def defaultAgentForRole (role : Bytes) : Bytes :=
  if role = bytes "backend_dev" ∨ role = bytes "frontend_dev" ∨ role = bytes "database_engineer" ∨
      role = bytes "tester" ∨ role = bytes "code_reviewer" then bytes "chatgpt"
  else if role = bytes "technical_writer" ∨ role = bytes "project_manager" then bytes "claude"
  else if role = bytes "software_architect" ∨ role = bytes "systems_architect" ∨
      role = bytes "performance_engineer" then bytes "gemini"
  else bytes "all"

def agentSupportsProfile (agent profile : Bytes) : Bool :=
  if agent = bytes "chatgpt" then
    profile == bytes "repo_branch" || profile == bytes "test_local" || profile == bytes "observe"
  else if agent = bytes "claude" ∨ agent = bytes "gemini" then
    profile == bytes "observe" || profile == bytes "ops_read"
  else false

def shouldRouteAgent (agent : Bytes) : Bool :=
  agent == [] || agent == bytes "all" || agent == bytes "router"

def routeAgentForTask (config : WtConfig) (role profile agent : Bytes) : Bytes :=
  if !config.roleRoutingEnabled || !shouldRouteAgent agent then agent
  else if profile = bytes "repo_branch" ∨ profile = bytes "test_local" then bytes "chatgpt"
  else if agentSupportsProfile (defaultAgentForRole role) profile then defaultAgentForRole role
  else if profile = bytes "ops_read" then bytes "gemini"
  else bytes "claude"

/-- The model of an agent that has a default one; else the buffer stays. -/
def defaultModelForAgent (agent modelId : Bytes) : Bytes :=
  if agent = bytes "claude" then bytes "anthropic/claude-sonnet"
  else if agent = bytes "gemini" then bytes "google/gemini-pro"
  else if agent = bytes "chatgpt" then bytes "openai/gpt-5.3-codex"
  else modelId

def modelMatchesAgent (agent modelId : Bytes) : Bool :=
  if modelId = [] then false
  else if agent = bytes "claude" then (bytes "anthropic/").isPrefixOf modelId
  else if agent = bytes "gemini" then (bytes "google/").isPrefixOf modelId
  else if agent = bytes "chatgpt" then (bytes "openai/").isPrefixOf modelId
  else true

def pgmRoles : List Bytes :=
  [bytes "project_manager", bytes "software_architect", bytes "systems_architect"]

def pmRoles : List Bytes :=
  [bytes "software_architect", bytes "systems_architect", bytes "mockup_artist",
    bytes "graphic_artist", bytes "frontend_dev", bytes "backend_dev", bytes "database_engineer",
    bytes "code_reviewer", bytes "tester", bytes "performance_engineer",
    bytes "systems_administrator", bytes "network_administrator", bytes "database_administrator",
    bytes "integration_specialist", bytes "deployment_engineer", bytes "technical_writer"]

def roleMaySpawn (requestingRole requestedRole : Bytes) : Bool :=
  if requestingRole = bytes "program_manager" then pgmRoles.contains requestedRole
  else if requestingRole = bytes "project_manager" then pmRoles.contains requestedRole
  else false

/-! ## Autonomy -/

/-- The level the body asks for, where it names one. -/
def requestedAutonomyLevel (body : Bytes) : Option Bytes :=
  (wtJsonReadString body "autonomyLevel" wtTaskPolicySize).toOption.filter (· != [])

def resolveAutonomyLevel (config : WtConfig) (body agent profile : Bytes) : Bytes :=
  (requestedAutonomyLevel body).getD
    (snprintf wtTaskPolicySize
      ((configuredAutonomyForAgent config agent).getD (profileDefaultAutonomy profile)))

/-- A field that was not read or is empty becomes `none`. -/
def orNone (text : Bytes) : Bytes := if text = [] then bytes "none" else text

def readAutonomyGrantFields (body : Bytes) (input : WtPolicyInput) : WtPolicyInput :=
  { input with
    autonomyScope := (wtJsonReadString body "scope" wtTaskBodySize).overwrite []
    autonomyNetwork := orNone ((wtJsonReadString body "network" wtTaskPolicySize).overwrite [])
    autonomyCredentialClass :=
      orNone ((wtJsonReadString body "credentialClass" wtTaskPolicySize).overwrite [])
    autonomyTtlSeconds := (wtJsonReadLong body "ttlSeconds").getD input.autonomyTtlSeconds
    autonomyMaxWallClockSeconds :=
      (wtJsonReadLong body "maxWallClockSeconds").getD input.autonomyMaxWallClockSeconds
    autonomyRequiresCleanWorktree :=
      ((wtJsonReadLong body "requiresCleanWorktree").map (· != 0)).getD
        input.autonomyRequiresCleanWorktree
    autonomyCreatedAtUnixMs :=
      (wtJsonReadLongLong body "createdAtUnixMs").getD input.autonomyCreatedAtUnixMs }

/-! ## Proposals -/

/-- What both handlers read of the task they are asked to admit, before routing. -/
structure TaskProposal where
  taskId : Bytes
  assignedRole : Bytes
  requestedAgent : Bytes
  initiativeId : Bytes
  toolProfile : Bytes
  modelId : Bytes
  executionHost : Bytes
  maxTokens : Int
  deriving DecidableEq, Repr

/-- `maxTokens`, with the handler's default where it is missing and 0 where it is negative. -/
def clampedTokens (body : Bytes) (default : Int) : Int :=
  max 0 ((wtJsonReadLong body "maxTokens").getD default)

theorem clampedTokens_range (body : Bytes) {default : Int} (h : Int64 default) :
    0 ≤ clampedTokens body default ∧ Int64 (clampedTokens body default) := by
  unfold clampedTokens Int64 at *
  cases hr : wtJsonReadLong body "maxTokens" with
  | none =>
    simp only [Option.getD_none]
    omega
  | some n =>
    have := wtJsonReadLong_range hr
    simp only [Option.getD_some]
    omega

/-- The fields `handlePostTaskPackage` reads, with its defaults. -/
def readTaskPackage (body : Bytes) : Option TaskProposal := do
  let schema ← (wtJsonReadString body "schema" 128).toOption
  if schema ≠ bytes taskPackageSchema then none
  let taskId ← (wtJsonReadString body "taskId" wtTaskIdSize).toOption
  let assignedRole ← (wtJsonReadString body "assignedRole" wtTaskAgentSize).toOption
  return {
    taskId
    assignedRole
    requestedAgent := (wtJsonReadString body "assignedAgent" wtTaskAgentSize).orElse (bytes "router")
    initiativeId := (wtJsonReadString body "initiativeId" wtTaskIdSize).orElse []
    toolProfile := (wtJsonReadString body "profile" wtTaskPolicySize).orElse (bytes "observe")
    executionHost := (wtJsonReadString body "executionHost" wtTaskAgentSize).orElse []
    maxTokens := clampedTokens body 0
    modelId := (wtJsonReadString body "modelId" wtTaskModelSize).overwrite [] }

/-- The fields `handlePostTaskRequest` reads beside the proposal. -/
structure TaskRequest where
  proposal : TaskProposal
  parentTaskId : Bytes
  requestedByRole : Bytes
  requestedBy : Bytes
  priority : Bytes
  title : Bytes
  taskBody : Bytes
  deriving DecidableEq, Repr

def readTaskRequest (body : Bytes) : Option TaskRequest := do
  let schema ← (wtJsonReadString body "schema" 128).toOption
  if schema ≠ bytes taskRequestSchema then none
  let parentTaskId ← (wtJsonReadString body "parentTaskId" wtTaskIdSize).toOption
  let requestedTaskId ← (wtJsonReadString body "requestedTaskId" wtTaskIdSize).toOption
  let initiativeId ← (wtJsonReadString body "initiativeId" wtTaskIdSize).toOption
  let requestedByRole ← (wtJsonReadString body "requestedByRole" wtTaskAgentSize).toOption
  let requestedRole ← (wtJsonReadString body "requestedRole" wtTaskAgentSize).toOption
  let title ← (wtJsonReadString body "title" wtTaskTitleSize).toOption
  let taskBody ← (wtJsonReadString body "body" wtTaskBodySize).toOption
  return {
    parentTaskId, requestedByRole, title, taskBody
    requestedBy := (wtJsonReadString body "requestedBy" wtTaskAgentSize).orElse requestedByRole
    priority := (wtJsonReadString body "priority" 32).orElse (bytes "normal")
    proposal := {
      taskId := requestedTaskId
      assignedRole := requestedRole
      requestedAgent :=
        (wtJsonReadString body "assignedAgent" wtTaskAgentSize).orElse (bytes "router")
      initiativeId
      toolProfile := (wtJsonReadString body "profile" wtTaskPolicySize).orElse (bytes "observe")
      executionHost := (wtJsonReadString body "executionHost" wtTaskAgentSize).orElse []
      maxTokens := clampedTokens body 2000000
      modelId := (wtJsonReadString body "modelId" wtTaskModelSize).orElse [] } }

/-! ## The policy input -/

/-- The clock readings of a request, in their order: for the window totals, for the policy, for
the record. -/
structure Clock where
  budgets : Int
  policy : Int
  record : Int
  started : 0 < budgets
  inOrder : budgets ≤ policy ∧ policy ≤ record
  range : record < 2 ^ 63
  deriving DecidableEq

/-- The agent after routing. -/
def TaskProposal.assignedAgent (p : TaskProposal) (config : WtConfig) : Bytes :=
  routeAgentForTask config p.assignedRole p.toolProfile p.requestedAgent

/-- The model was left blank, or does not fit the agent the router chose. -/
def TaskProposal.replacesModel (p : TaskProposal) (config : WtConfig) : Bool :=
  p.modelId == [] ||
    (shouldRouteAgent p.requestedAgent && !modelMatchesAgent (p.assignedAgent config) p.modelId)

/-- The model that is evaluated. -/
def TaskProposal.chosenModel (p : TaskProposal) (config : WtConfig) : Bytes :=
  if p.replacesModel config then defaultModelForAgent (p.assignedAgent config) p.modelId
  else p.modelId

/-- Read the totals. A count or a sum that fails is zero. -/
def preparePolicyInput (ledger : Ledger) (rows : List TaskRow) (clock : Clock)
    (input : WtPolicyInput) : WtPolicyInput :=
  let summary := wtTaskSummarizeTokenBudgets ledger clock.budgets
  { input with
    dayWindowAllocatedTokens := summary.dayWindowAllocatedTokens
    monthWindowAllocatedTokens := summary.monthWindowAllocatedTokens
    initiativeAllocatedTokens :=
      if input.initiativeId = [] then 0
      else max 0 (wtTaskProjectionAllocatedTokensForInitiative rows input.initiativeId)
    modelFamilyAllocatedTokens :=
      match wtPolicyExtractModelFamily input.modelId 64 with
      | some modelFamily => max 0 (wtTaskProjectionAllocatedTokensForModelFamily rows modelFamily)
      | none => 0
    activeTasksForAgent :=
      if input.assignedAgent = [] then 0
      else wtTaskProjectionCountActiveForAgent rows input.assignedAgent
    activeTasksForInitiative :=
      if input.initiativeId = [] then 0
      else wtTaskProjectionCountActiveForInitiative rows input.initiativeId
    nowUnixMs := clock.policy }

def TaskProposal.policyInput (p : TaskProposal) (config : WtConfig) (ledger : Ledger)
    (body : Bytes) (clock : Clock) : WtPolicyInput :=
  let assignedAgent := p.assignedAgent config
  preparePolicyInput ledger (wtTaskProjectionRebuild ledger) clock
    (readAutonomyGrantFields body
      { taskId := p.taskId
        assignedRole := p.assignedRole
        assignedAgent
        modelId := p.chosenModel config
        toolProfile := p.toolProfile
        initiativeId := p.initiativeId
        autonomyLevel := resolveAutonomyLevel config body assignedAgent p.toolProfile
        maxTokens := p.maxTokens })

/-! ## Denials -/

def policyDecisionRecord (escapedTaskId escapedInitiative escapedReason escapedMessage
    escapedBy : Literal) (now : Int) : Members :=
  str "schema" (.ofPlain "woventeam.policy_decision.v0.1") ++ str "taskId" escapedTaskId ++
  str "initiativeId" escapedInitiative ++ str "decision" (.ofPlain "deny") ++
  str "reason" escapedReason ++ str "message" escapedMessage ++ str "createdBy" escapedBy ++
  num "createdAtUnixMs" now "\x7d"

/-- The audit record of a denial, where the arguments fit their buffers. -/
def denialRecord (taskId initiativeId : Bytes) (decision : WtPolicyDecision) (createdBy : Bytes)
    (now : Int) : Option Members := do
  let escapedTaskId ← wtJsonEscape taskId (wtTaskIdSize * 2)
  let escapedInitiative ← wtJsonEscape initiativeId (wtTaskIdSize * 2)
  let escapedReason ← wtJsonEscape decision.reason (wtPolicyReasonSize * 2)
  let escapedMessage ← wtJsonEscape decision.message (wtPolicyMessageSize * 2)
  let escapedBy ← wtJsonEscape createdBy (wtTaskAgentSize * 2)
  return policyDecisionRecord escapedTaskId escapedInitiative escapedReason escapedMessage
    escapedBy now

/-- The notification of a denial goes elsewhere. -/
def recordPolicyDenial (ledger : Ledger) (taskId initiativeId : Bytes)
    (decision : WtPolicyDecision) (createdBy : Bytes) (now : Int) : Ledger :=
  match denialRecord taskId initiativeId decision createdBy now with
  | some record => wtTaskAppendRecord ledger (printRecord wtTaskLedgerLineSize record)
  | none => ledger

def conflict (body : Bytes) : HttpReply where
  status := 409
  reason := "Conflict"
  contentType := "application/json"
  body := body

def policyDenied (decision : WtPolicyDecision) : HttpReply :=
  let escapedReason := escapedOr decision.reason (wtPolicyReasonSize * 2)
  let escapedDetail := escapedOr decision.message (wtPolicyMessageSize * 2)
  conflict (snprintf 1536 (bytes "\x7b\"ok\":false,\"error\":\"" ++ escapedDetail ++
    bytes "\",\"reason\":\"" ++ escapedReason ++ bytes "\",\"detail\":\"" ++ escapedDetail ++
    bytes "\"\x7d\n"))

def capabilityUnmet : HttpReply :=
  conflict (bytes
    "\x7b\"ok\":false,\"error\":\"capability_unmet\",\"reason\":\"capability_unmet\"\x7d\n")

def TaskProposal.capabilityDecision (p : TaskProposal) (config : WtConfig) : WtPolicyDecision :=
  setDecision false "capability_unmet" (bytes "Host " ++ p.executionHost ++
    bytes " does not advertise " ++ p.toolProfile ++ bytes " for " ++ p.assignedAgent config ++
    bytes ".")

/-- The proposal names no host, or one that advertises the profile for the agent. -/
def TaskProposal.hostCapable (p : TaskProposal) (config : WtConfig) (ledger : Ledger) : Bool :=
  p.executionHost == [] ||
    match readHostProfiles ledger p.executionHost (p.assignedAgent config) with
    | some hostProfiles => profileInList hostProfiles p.toolProfile
    | none => false

/-- The part of both handlers from the policy evaluation to the host check: the denial, where
there is one. -/
def TaskProposal.denied (p : TaskProposal) (config : WtConfig) (ledger : Ledger) (body : Bytes)
    (clock : Clock) (deniedBy hostDeniedBy : Bytes) : Option (Ledger × HttpReply) :=
  let decision := wtPolicyEvaluateTaskPackage config (p.policyInput config ledger body clock)
  if !decision.allowed then
    some (recordPolicyDenial ledger p.taskId p.initiativeId decision deniedBy clock.record,
      policyDenied decision)
  else if !p.hostCapable config ledger then
    some (recordPolicyDenial ledger p.taskId p.initiativeId (p.capabilityDecision config)
      hostDeniedBy clock.record, capabilityUnmet)
  else none

theorem TaskProposal.allowed_of_not_denied {p : TaskProposal} {config : WtConfig}
    {ledger : Ledger} {body : Bytes} {clock : Clock} {deniedBy hostDeniedBy : Bytes}
    (h : p.denied config ledger body clock deniedBy hostDeniedBy = none) :
    (wtPolicyEvaluateTaskPackage config (p.policyInput config ledger body clock)).allowed = true := by
  unfold TaskProposal.denied at h
  dsimp only at h
  split at h
  · cases h
  · rename_i hallowed
    simpa using hallowed

/-! ## The package handler -/

def routingRecord (escapedTaskId escapedAgent escapedRole escapedProfile : Literal) (now : Int) :
    Members :=
  str "schema" (.ofPlain "woventeam.task_event.v0.1") ++ str "taskId" escapedTaskId ++
  str "eventType" (.ofPlain "routing") ++ str "status" (.ofPlain "assigned") ++
  str "assignedAgent" escapedAgent ++
  str "message" (.ofPlain "Routed " ++ escapedRole ++ .ofPlain " task to " ++ escapedAgent ++
    .ofPlain " for " ++ escapedProfile ++ .ofPlain ".") ++
  str "createdBy" (.ofPlain "wt-roomd") ++ num "createdAtUnixMs" now "\x7d"

def packageReply (taskId agent status : Bytes) : HttpReply :=
  okReply (snprintf 512 (bytes "\x7b\"ok\":true,\"taskId\":\"" ++ taskId ++
    bytes "\",\"assignedAgent\":\"" ++ agent ++ bytes "\",\"status\":\"" ++ status ++
    bytes "\"\x7d\n"))

def TaskProposal.routingEvent (p : TaskProposal) (config : WtConfig) (now : Int) :
    Option Members := do
  let escapedTaskId ← wtJsonEscape p.taskId (wtTaskIdSize * 2)
  let escapedRole ← wtJsonEscape p.assignedRole (wtTaskAgentSize * 2)
  let escapedAgent ← wtJsonEscape (p.assignedAgent config) (wtTaskAgentSize * 2)
  let escapedProfile ← wtJsonEscape p.toolProfile (wtTaskPolicySize * 2)
  return routingRecord escapedTaskId escapedAgent escapedRole escapedProfile now

/-- The last part of `handlePostTaskPackage`: the client's JSON and, where an agent was found, the
routing event. -/
def TaskProposal.recordPackage (p : TaskProposal) (config : WtConfig) (ledger : Ledger)
    (body : Bytes) (now : Int) : Ledger × HttpReply :=
  let agent := p.assignedAgent config
  let original := compactJsonLine body wtTaskLedgerLineSize
  if shouldRouteAgent agent then
    let status := (wtJsonReadString body "status" wtTaskStatusSize).orElse (bytes "queued")
    (wtTaskAppendRecord ledger original, packageReply p.taskId agent status)
  else
    match p.routingEvent config now with
    | none => (ledger, badRequest "task too large")
    | some record =>
      (wtTaskAppendRecord (wtTaskAppendRecord ledger original)
          (printRecord wtTaskLedgerLineSize record),
        packageReply p.taskId agent (bytes "assigned"))

def handlePostTaskPackage (config : WtConfig) (ledger : Ledger) (request : Bytes) (clock : Clock) :
    Ledger × HttpReply :=
  match requestBody request with
  | none => (ledger, noBody)
  | some body =>
    match readTaskPackage body with
    | none => (ledger, badRequest "invalid task package")
    | some p =>
      let createdBy := (wtJsonReadString body "createdBy" wtTaskAgentSize).orElse (bytes "ceo")
      match p.denied config ledger body clock createdBy (bytes "ceo") with
      | some denial => denial
      | none => p.recordPackage config ledger body clock.record

/-! ## The request handler -/

/-- The capacity checks a subtask has beside the policy: the error text of the first that fails. -/
def enforceCapacity (config : WtConfig) (rows : List TaskRow)
    (agent initiativeId parentTaskId : Bytes) : Option Bytes :=
  if config.maxActiveTasksPerAgent > 0 ∧
      wtTaskProjectionCountActiveForAgent rows agent ≥ config.maxActiveTasksPerAgent then
    some (snprintf 256 (bytes "agent capacity exceeded for " ++ agent))
  else if initiativeId ≠ [] ∧ config.maxTasksPerInitiative > 0 ∧
      wtTaskProjectionCountActiveForInitiative rows initiativeId ≥
        config.maxTasksPerInitiative then
    some (snprintf 256 (bytes "initiative capacity exceeded for " ++ initiativeId))
  else if parentTaskId ≠ [] ∧ config.maxSubtasksPerParent > 0 ∧
      wtTaskProjectionCountActiveForParent rows parentTaskId ≥ config.maxSubtasksPerParent then
    some (snprintf 256 (bytes "parent subtask capacity exceeded for " ++ parentTaskId))
  else none

/-- The escaped arguments of the two records of a request. -/
structure EscapedRequest where
  taskId : Literal
  initiativeId : Literal
  requestedBy : Literal
  requestedByRole : Literal
  role : Literal
  agent : Literal
  model : Literal
  priority : Literal
  title : Literal
  body : Literal
  profile : Literal
  parent : Literal
  host : Literal

def TaskRequest.escape (r : TaskRequest) (config : WtConfig) : Option EscapedRequest := do
  let taskId ← wtJsonEscape r.proposal.taskId (wtTaskIdSize * 2)
  let initiativeId ← wtJsonEscape r.proposal.initiativeId (wtTaskIdSize * 2)
  let requestedBy ← wtJsonEscape r.requestedBy (wtTaskAgentSize * 2)
  let requestedByRole ← wtJsonEscape r.requestedByRole (wtTaskAgentSize * 2)
  let role ← wtJsonEscape r.proposal.assignedRole (wtTaskAgentSize * 2)
  let agent ← wtJsonEscape (r.proposal.assignedAgent config) (wtTaskAgentSize * 2)
  let model ← wtJsonEscape (r.proposal.chosenModel config) (wtTaskModelSize * 2)
  let priority ← wtJsonEscape r.priority 64
  let title ← wtJsonEscape r.title (wtTaskTitleSize * 2)
  let body ← wtJsonEscape r.taskBody (wtTaskBodySize * 2)
  let profile ← wtJsonEscape r.proposal.toolProfile (wtTaskPolicySize * 2)
  let parent ← wtJsonEscape r.parentTaskId (wtTaskIdSize * 2)
  let host ← wtJsonEscape r.proposal.executionHost (wtTaskAgentSize * 2)
  return { taskId, initiativeId, requestedBy, requestedByRole, role, agent, model, priority, title,
           body, profile, parent, host }

def taskRequestRecord (e : EscapedRequest) (now : Int) : Members :=
  str "schema" (.ofPlain "woventeam.task_request.v0.1") ++ str "taskId" e.taskId ++
  str "parentTaskId" e.parent ++ str "requestedTaskId" e.taskId ++
  str "initiativeId" e.initiativeId ++ str "requestedBy" e.requestedBy ++
  str "requestedByRole" e.requestedByRole ++ str "requestedRole" e.role ++
  str "assignedAgent" e.agent ++ str "modelId" e.model ++ str "priority" e.priority ++
  str "executionHost" e.host ++ str "title" e.title ++ str "body" e.body ++
  raw "toolPolicy" "\x7b" ++ str "profile" e.profile "\x7d," ++ num "createdAtUnixMs" now "\x7d"

/-- The profile may write to the workspace. -/
def mayWrite (profile : Bytes) : Bool :=
  profile == bytes "repo_branch" || profile == bytes "test_local"

def filesystemPolicy (profile : Bytes) : Literal :=
  if mayWrite profile then .ofPlain "workspace_write" else .ofPlain "read_only"

def networkPolicy (profile : Bytes) : Literal :=
  if profile = bytes "test_local" then .ofPlain "loopback" else .ofPlain "none"

def gitPolicy (profile : Bytes) : Literal :=
  if mayWrite profile then .ofPlain "branch_only" else .ofPlain "none"

def taskPackageRecord (e : EscapedRequest) (toolProfile : Bytes) (maxTokens now : Int) :
    Members :=
  str "schema" (.ofPlain "woventeam.task_package.v0.1") ++ str "taskId" e.taskId ++
  str "initiativeId" e.initiativeId ++ str "createdBy" e.requestedBy ++
  str "assignedRole" e.role ++ str "assignedAgent" e.agent ++ str "modelId" e.model ++
  str "priority" e.priority ++ str "executionHost" e.host ++
  str "status" (.ofPlain "queued") ++ str "title" e.title ++ str "body" e.body ++
  str "parentTaskId" e.parent ++ str "requestedByRole" e.requestedByRole ++
  raw "task" "\x7b" ++ str "title" e.title ++ str "body" e.body ++
  raw "deliverables" "[]\x7d," ++ raw "contextRefs" "[]," ++ raw "acceptanceCriteria" "[" ++
  elem (.ofPlain "Task result is recorded in the room and task ledger.") "]," ++
  raw "toolPolicy" "\x7b" ++ str "profile" e.profile ++
  str "filesystem" (filesystemPolicy toolProfile) ++ str "network" (networkPolicy toolProfile) ++
  str "system" (.ofPlain "none") ++ str "git" (gitPolicy toolProfile) "\x7d," ++
  raw "budget" "\x7b" ++ num "timeoutSeconds" 1800 ++ num "maxOutputBytes" 1048576 ++
  raw "maxCostUsd" "1.0," ++ num "maxTokens" maxTokens "\x7d," ++
  raw "dependencies" "[" ++ elem e.parent "]," ++ num "createdAtUnixMs" now "\x7d"

def requestReply (r : TaskRequest) (agent : Bytes) : HttpReply :=
  okReply (snprintf 512 (bytes "\x7b\"ok\":true,\"taskId\":\"" ++ r.proposal.taskId ++
    bytes "\",\"parentTaskId\":\"" ++ r.parentTaskId ++ bytes "\",\"assignedRole\":\"" ++
    r.proposal.assignedRole ++ bytes "\",\"assignedAgent\":\"" ++ agent ++
    bytes "\",\"status\":\"queued\"\x7d\n"))

/-- The last part of `handlePostTaskRequest`: a request record and a package record, both printed
anew. -/
def TaskRequest.record (r : TaskRequest) (config : WtConfig) (ledger : Ledger) (now : Int) :
    Ledger × HttpReply :=
  match r.escape config with
  | none => (ledger, badRequest "request too large")
  | some e =>
    (wtTaskAppendRecord
        (wtTaskAppendRecord ledger (printRecord wtTaskLedgerLineSize (taskRequestRecord e now)))
        (printRecord wtTaskLedgerLineSize
          (taskPackageRecord e r.proposal.toolProfile r.proposal.maxTokens now)),
      requestReply r (r.proposal.assignedAgent config))

def handlePostTaskRequest (config : WtConfig) (ledger : Ledger) (request : Bytes) (clock : Clock) :
    Ledger × HttpReply :=
  match requestBody request with
  | none => (ledger, noBody)
  | some body =>
    match readTaskRequest body with
    | none => (ledger, badRequest "invalid task request")
    | some r =>
      if !roleMaySpawn r.requestedByRole r.proposal.assignedRole then
        (ledger, errorReply 403 "Forbidden" "role spawn policy denied")
      else
        match r.proposal.denied config ledger body clock r.requestedBy r.requestedBy with
        | some denial => denial
        | none =>
          match enforceCapacity config (wtTaskProjectionRebuild ledger)
              (r.proposal.assignedAgent config) r.proposal.initiativeId r.parentTaskId with
          | some capacityError =>
            (ledger, conflict (snprintf 512 (bytes "\x7b\"ok\":false,\"error\":\"" ++
              capacityError ++ bytes "\"\x7d\n")))
          | none => r.record config ledger clock.record

end WovenTeam

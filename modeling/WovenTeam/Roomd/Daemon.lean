import WovenTeam.Roomd.Unmentioned
import WovenTeam.Roomd.PostConfig

/-!
# The daemon

`main` forks a child for every client, so what one request leaves to the next stands in files: the
configuration file, the ledger and the operator's session. `handleClient` is one request over them.
-/

namespace WovenTeam

open CText QuotedText LineReader KeyValueFile Runs

/-! ## The configuration in force -/

/-- The variables that override settings. -/
def environmentKeys : List (String × String) := [
  ("WT_ROOM_NAME", "roomName"),
  ("WT_ROOM_LOG_PATH", "roomLogPath"),
  ("WT_TASK_LEDGER_PATH", "taskLedgerPath"),
  ("WT_TASK_PROJECTION_DB_PATH", "taskProjectionDbPath"),
  ("WT_HTTP_BIND_ADDRESS", "httpBindAddress"),
  ("WT_HTTP_PORT", "httpPort"),
  ("WT_CONTEXT_MESSAGE_COUNT", "contextMessageCount"),
  ("WT_AGENT_POLL_MILLISECONDS", "agentPollMilliseconds"),
  ("WT_ADAPTER_TIMEOUT_SECONDS", "adapterTimeoutSeconds"),
  ("WT_ADAPTER_MAX_OUTPUT_BYTES", "adapterMaxOutputBytes"),
  ("WT_MAX_ACTIVE_TASKS_PER_AGENT", "maxActiveTasksPerAgent"),
  ("WT_MAX_SUBTASKS_PER_PARENT", "maxSubtasksPerParent"),
  ("WT_MAX_TASKS_PER_INITIATIVE", "maxTasksPerInitiative"),
  ("WT_FSYNC_EACH_MESSAGE", "fsyncEachMessage"),
  ("WT_ROLE_ROUTING_ENABLED", "roleRoutingEnabled"),
  ("WT_ENABLE_CODEX_ADAPTER", "enableCodexAdapter"),
  ("WT_ENABLE_CLAUDE_ADAPTER", "enableClaudeAdapter"),
  ("WT_ENABLE_GEMINI_ADAPTER", "enableGeminiAdapter"),
  ("WT_TOKEN_TELEMETRY_ENABLED", "tokenTelemetryEnabled"),
  ("WT_TOKEN_DAILY_BUDGET", "tokenDailyBudget"),
  ("WT_TOKEN_MONTHLY_BUDGET", "tokenMonthlyBudget"),
  ("WT_TOKEN_WARNING_PERCENT", "tokenWarningPercent"),
  ("WT_TOKEN_COST_PER_MILLION_CENTS", "tokenCostPerMillionCents"),
  ("WT_RUNTIME_ROOT_PATH", "runtimeRootPath"),
  ("WT_CLAUDE_COMMAND", "claudeCommand"),
  ("WT_GPT_COMMAND", "gptCommand"),
  ("WT_GEMINI_COMMAND", "geminiCommand"),
  ("WT_CLAUDE_MODE", "claudeMode"),
  ("WT_CHATGPT_MODE", "chatgptMode"),
  ("WT_GEMINI_MODE", "geminiMode"),
  ("WT_BLOCKED_VENDORS", "blockedVendors"),
  ("WT_TOKEN_BUDGET_PER_INITIATIVE", "tokenBudgetPerInitiative"),
  ("WT_TOKEN_BUDGET_PER_MODEL_FAMILY", "tokenBudgetPerModelFamily"),
  ("WT_HEARTBEAT_INTERVAL_SECONDS", "heartbeatIntervalSeconds"),
  ("WT_LEASE_RENEWAL_INTERVAL_SECONDS", "leaseRenewalIntervalSeconds"),
  ("WT_LEASE_DURATION_SECONDS", "leaseDurationSeconds"),
  ("WT_CANCEL_POLL_INTERVAL_SECONDS", "cancelPollIntervalSeconds"),
  ("WT_SLACK_WEBHOOK_FILE", "slackWebhookFile"),
  ("WT_NOTIFICATION_ESCALATE_KEY", "notificationEscalateKey"),
  ("WT_NOTIFICATION_STUCK_KEY", "notificationStuckKey"),
  ("WT_DEFAULT_AUTONOMY_LEVEL", "defaultAutonomyLevel"),
  ("WT_CLAUDE_DEFAULT_AUTONOMY_LEVEL", "claudeDefaultAutonomyLevel"),
  ("WT_CHATGPT_DEFAULT_AUTONOMY_LEVEL", "chatgptDefaultAutonomyLevel"),
  ("WT_GEMINI_DEFAULT_AUTONOMY_LEVEL", "geminiDefaultAutonomyLevel"),
  ("WT_DELIVERABLE_ROOT", "deliverableRoot"),
  ("WT_DELIVERABLE_DEFAULT_MODE", "deliverableDefaultMode"),
  ("WT_DELIVERABLE_BRANCH_PREFIX", "deliverableBranchPrefix"),
  ("WT_SECRET_SCAN_PATTERNS_FILE", "secretScanPatternsFile"),
  ("WT_REMOTE_ALLOWED_IPS", "remoteAllowedIps"),
  ("WT_AUTH_TOKEN_DEFAULT_TTL_SECONDS", "authTokenDefaultTtlSeconds"),
  ("WT_OPERATOR_SESSION_PATH", "operatorSessionPath")]

/-- The settings that the environment gives. -/
def environmentAssigns (environment : Bytes → Option Bytes) : List (Bytes × Bytes) :=
  environmentKeys.filterMap fun entry =>
    (environment (bytes entry.1)).map fun value => (bytes entry.2, value)

def wtConfigApplyEnvironment (environment : Bytes → Option Bytes) (config : WtConfig) : WtConfig :=
  (environmentAssigns environment).foldl
    (fun config assign => wtConfigSetValue config assign.1 assign.2) config

/-- What the process keeps while it runs: the configuration it has started with and its
environment. -/
structure Process where
  start : WtConfig
  sound : start.Sound
  environment : Bytes → Option Bytes
  terminated : ∀ name value, environment name = some value → 0 ∉ value

/-- The configuration a child handles its request with. -/
def Process.config (p : Process) (file : Bytes) : WtConfig :=
  if p.start.configPath.text = [] then p.start
  else wtConfigApplyEnvironment p.environment
    (wtConfigLoadFile p.start file p.start.configPath.text)

section config

variable {p : Process} {file : Bytes} {i : Fin configKeys.length}

/-- What the environment says of a setting. -/
def Process.override (p : Process) (i : Fin configKeys.length) : Option SettingValue :=
  (lastAssigned (bytes (configKeys.get i).key) (environmentAssigns p.environment)).map
    (configKeys.get i).kind.read

theorem value_applyEnvironment (p : Process) (config : WtConfig) (i : Fin configKeys.length) :
    (wtConfigApplyEnvironment p.environment config).value i =
      (p.override i).getD (config.value i) :=
  value_assigned config _ i

/-- The environment comes before the file, and the file before what the process has started
with. -/
theorem Process.value_config (hpath : p.start.configPath.text ≠ []) (file : Bytes)
    (i : Fin configKeys.length) :
    (p.config file).value i = (p.override i).getD
      (((lastAssigned (bytes (configKeys.get i).key) (assignments 512 file)).map
        (configKeys.get i).kind.read).getD (p.start.value i)) := by
  rw [Process.config, if_neg hpath, value_applyEnvironment, value_load]
  rfl

theorem Process.sound_config (p : Process) (file : Bytes) : (p.config file).Sound := by
  unfold Process.config
  split
  · exact p.sound
  · intro i
    rw [value_applyEnvironment]
    cases hoverride : p.override i with
    | none => exact sound_load p.sound _ _ i
    | some value =>
      obtain ⟨text, htext, rfl⟩ := Option.map_eq_some_iff.mp hoverride
      obtain ⟨entry, -, hentry⟩ := List.mem_filterMap.mp (lastAssigned_mem htext)
      obtain ⟨value, hvalue, heq⟩ := Option.map_eq_some_iff.mp hentry
      have hzero := p.terminated _ _ hvalue
      obtain rfl : value = text := (Prod.mk.inj heq).2
      exact ⟨holds_read _ value, fun hz => hzero (mem_print_read hz (.inr rfl))⟩

/-- **A setting that is written and survives its line is in force for the next request, unless the
environment overrides it.** -/
theorem Process.value_written {config : WtConfig} (hpath : p.start.configPath.text ≠ [])
    (hconfig : config.Sound) (hline : ∀ i, newline ∉ (config.value i).print)
    (hi : Storable (config.value i)) :
    (p.config (wtConfigWriteFile config)).value i = (p.override i).getD (config.value i) := by
  have hread : (configKeys.get i).kind.read (reloaded (config.value i).print) = config.value i :=
    (hconfig i).holds.read_reloaded.mpr hi.2
  have hwritten : lastAssigned (bytes (configKeys.get i).key)
      (assignments 512 (wtConfigWriteFile config)) = some (reloaded (config.value i).print) :=
    lastAssigned_written hconfig hline i
  rw [p.value_config hpath, hwritten, Option.map_some, Option.getD_some, hread]

end config

/-! ## Requests -/

/-- `%s` with a width: what it reads and what is left. -/
def scanWord (width : Nat) (text : Bytes) : Bytes × Bytes :=
  let word := ((dropSpaces text).takeWhile fun b => !isSpace b).take width
  (word, (dropSpaces text).drop word.length)

/-- The method and the path: `sscanf(request, "%15s %255s", method, path)`. -/
def requestLine (request : Bytes) : Bytes × Bytes :=
  let (method, rest) := scanWord 15 request
  (method, (scanWord 255 rest).1)

/-- Where a request is dispatched to; `read` are the requests that change no file. -/
inductive Endpoint where
  | message
  | taskPackage
  | taskRequest
  | taskEvent
  | taskGate
  | taskUsage
  | agentControl
  | taskReclaim
  | taskCancel
  | autonomyRevoke
  | taskArtifact
  | taskDeliverable
  | taskPriority
  | taskReroute
  | taskNote
  | authToken
  | authTokenRevoke
  | hostCapabilities
  | remoteClaim
  | remoteTaskEvent
  | config
  | operatorSession
  | read
  deriving DecidableEq, Repr

def postPaths : List (String × Endpoint) := [
  ("/api/message", .message),
  ("/api/task-package", .taskPackage),
  ("/api/task-request", .taskRequest),
  ("/api/task-event", .taskEvent),
  ("/api/task-gate", .taskGate),
  ("/api/task-usage", .taskUsage),
  ("/api/agent-control", .agentControl),
  ("/api/task-reclaim", .taskReclaim),
  ("/api/task-cancel", .taskCancel),
  ("/api/autonomy-revoke", .autonomyRevoke),
  ("/api/task-artifact", .taskArtifact),
  ("/api/task-deliverable", .taskDeliverable),
  ("/api/task-priority", .taskPriority),
  ("/api/task-reroute", .taskReroute),
  ("/api/task-note", .taskNote),
  ("/api/auth-token", .authToken),
  ("/api/auth-token/revoke", .authTokenRevoke),
  ("/api/host-capabilities", .hostCapabilities),
  ("/api/remote-claim", .remoteClaim),
  ("/api/remote-task-event", .remoteTaskEvent),
  ("/api/config", .config)]

def route (request : Bytes) : Endpoint :=
  let (method, path) := requestLine request
  if method = bytes "POST" then
    ((postPaths.find? fun entry => bytes entry.1 == path).map (·.2)).getD .read
  else if method = bytes "GET" ∧ path = bytes "/api/operator-session" then .operatorSession
  else .read

/-- What `handleClient` asks of a request before it calls the handler. -/
inductive Access where
  | everyone
  | operator
  | agent
  deriving DecidableEq, Repr

def Endpoint.access : Endpoint → Access
  | taskCancel | autonomyRevoke | taskDeliverable | taskPriority | taskReroute | taskNote
  | authToken | authTokenRevoke => .operator
  | hostCapabilities | remoteClaim | remoteTaskEvent => .agent
  | _ => .everyone

/-- What a handler gets from outside: the clock at each place where it is asked, the files of a
shipment, the source of tokens, and whether a file can be written. -/
structure Outside where
  checkedAt : Long
  clock : Clock
  times : Nat → Long
  now : Long
  killed : Long
  world : World
  source : TokenSource
  made : Long
  issuedAt : Long
  claim : ClaimTimes
  writes : Bool

structure Incoming where
  request : Bytes
  /-- The request is a C string. -/
  terminated : 0 ∉ request
  peerIp : Bytes
  outside : Outside

/-- The call of the handler. -/
def Incoming.call (i : Incoming) (config : WtConfig) (auth : WtAuthContext) : Endpoint → ApiRequest
  | .taskPackage => .taskPackage config i.request i.outside.clock
  | .taskRequest => .taskRequest config i.request i.outside.clock
  | .taskEvent => .taskEvent i.request i.outside.times
  | .taskGate => .taskGate i.request i.outside.now
  | .taskUsage => .taskUsage i.request i.outside.now
  | .agentControl => .agentControl i.request i.outside.now
  | .taskReclaim => .taskReclaim i.request i.outside.now
  | .taskCancel => .taskCancel i.request i.outside.now
  | .autonomyRevoke => .autonomyRevoke i.request i.outside.now i.outside.killed
  | .taskArtifact => .taskArtifact i.request i.outside.now
  | .taskDeliverable => .taskDeliverable i.outside.world config i.request
  | .taskPriority => .taskPriority i.request i.outside.now
  | .taskReroute => .taskReroute i.request i.outside.now
  | .taskNote => .taskNote i.request i.outside.now
  | .authToken => .authToken config i.request i.outside.source i.outside.made i.outside.issuedAt
  | .authTokenRevoke => .authTokenRevoke i.request i.outside.now
  | .hostCapabilities => .hostCapabilities i.request auth i.outside.now
  | .remoteClaim => .remoteClaim config i.request auth i.outside.claim
  | .remoteTaskEvent => .remoteTaskEvent i.request auth i.outside.now
  | .message | .config | .operatorSession | .read => .other

/-! ## The files -/

structure Daemon where
  configFile : Bytes
  ledger : Ledger
  session : Option Bytes

def peerIsLocal (peerIp : Bytes) : Bool := peerIp == bytes "127.0.0.1" || peerIp == bytes "::1"

/-- The session's file behind `ensureOperatorSession`. -/
def ensureOperatorSession (session : Option Bytes) (made : Bytes) (writes : Bool) : Option Bytes :=
  if (readFileToken session 512).isSome || !writes then session else some (made ++ [newline])

/-- The call that the request comes to with the authorisation it has. -/
def Incoming.authorised (i : Incoming) (config : WtConfig) (d : Daemon) : ApiRequest :=
  let endpoint := route i.request
  match endpoint.access with
  | .everyone => i.call config {} endpoint
  | .operator =>
    if requireOperatorAuth config d.session d.ledger i.request i.peerIp i.outside.checkedAt then
      i.call config {} endpoint
    else .other
  | .agent =>
    match validateBearerToken config d.ledger i.request i.peerIp (bytes "agent")
        i.outside.checkedAt with
    | .ok auth => i.call config auth endpoint
    | .error _ => .other

/-- One request; the ledger is the file that the configuration names. -/
def handleClient (p : Process) (d : Daemon) (i : Incoming) : Option Daemon :=
  let config := p.config d.configFile
  match route i.request with
  | .config => some { d with
      configFile := (handlePostConfig config i.request i.outside.writes).file.getD d.configFile }
  | .operatorSession => some { d with
      session :=
        if peerIsLocal i.peerIp then
          ensureOperatorSession d.session (makeToken i.outside.made i.outside.source).1
            i.outside.writes
        else d.session }
  | _ => ((i.authorised config d).serve d.ledger).map fun ledger => { d with ledger }

/-! ## Posted settings -/

/-- What decides who may come in is not posted. -/
theorem applyPosted_access (config : WtConfig) (body : Bytes) :
    (applyPosted config body).remoteAllowedIps = config.remoteAllowedIps ∧
      (applyPosted config body).taskLedgerPath = config.taskLedgerPath := by
  have hstep : ∀ posted ∈ postedKeys, ∀ config : WtConfig,
      (posted.apply body config).remoteAllowedIps = config.remoteAllowedIps ∧
        (posted.apply body config).taskLedgerPath = config.taskLedgerPath := by
    unfold postedKeys
    simp only [List.forall_mem_cons, List.not_mem_nil, false_implies, implies_true, and_true]
    refine ⟨?_, ?_, ?_, ?_, ?_, ?_, ?_, ?_, ?_, ?_, ?_, ?_, ?_, ?_, ?_, ?_, ?_, ?_, ?_, ?_, ?_, ?_,
      ?_, ?_, ?_⟩
    all_goals
      intro config
      rw [PostedKey.apply]
      try split
      all_goals exact ⟨rfl, rfl⟩
  have hfold : ∀ keys : List PostedKey, (∀ posted ∈ keys, posted ∈ postedKeys) →
      ∀ config : WtConfig, (keys.foldl (PostedKey.apply body) config).remoteAllowedIps =
        config.remoteAllowedIps ∧ (keys.foldl (PostedKey.apply body) config).taskLedgerPath =
          config.taskLedgerPath := by
    intro keys
    induction keys with
    | nil => exact fun _ _ => ⟨rfl, rfl⟩
    | cons posted keys ih =>
      intro hmem config
      obtain ⟨hips, hledger⟩ := hstep posted (hmem posted List.mem_cons_self) config
      rw [List.foldl_cons, ← hips, ← hledger]
      exact ih (fun p hp => hmem p (List.mem_cons_of_mem _ hp)) _
  exact hfold postedKeys (fun _ h => h) config

/-- No text that is written breaks its line, and the two settings survive theirs. -/
structure KeepsLines (config : WtConfig) (body : Bytes) : Prop where
  lines : ∀ i, newline ∉ (config.value i).print
  ips : Storable (.text config.remoteAllowedIps.text)
  ledger : Storable (.text config.taskLedgerPath.text)
  texts : ∀ (i : Fin configKeys.length) (text : Bytes),
    (wtJsonReadString body (configKeys.get i).key (configKeys.get i).kind.size).written =
      some text → newline ∉ text

theorem KeepsLines.applied {config : WtConfig} {body : Bytes} (h : KeepsLines config body) :
    ∀ i, newline ∉ ((applyPosted config body).value i).print := by
  refine applyPosted_invariant (P := fun _ value => newline ∉ value.print)
    (fun hconfig happlied => ?_) h.lines
  rcases happlied.decoded with hvalue | hvalue | ⟨text, hvalue, hread⟩
  · rw [hvalue]
    exact hconfig _
  · exact hvalue.1
  · rw [hvalue]
    exact h.texts _ text hread

theorem CString.ext {size : Nat} {a b : CString size} (h : a.text = b.text) : a = b := by
  cases a
  cases b
  cases h
  rfl

/-- A posted configuration leaves the addresses and the ledger as they are. -/
theorem KeepsLines.config_written {p : Process} {file body : Bytes}
    (h : KeepsLines (p.config file) body) (hpath : p.start.configPath.text ≠ [])
    (hbody : 0 ∉ body) :
    let config := p.config (wtConfigWriteFile (applyPosted (p.config file) body))
    config.remoteAllowedIps = (p.config file).remoteAllowedIps ∧
      config.taskLedgerPath = (p.config file).taskLedgerPath := by
  intro config
  have hposted := applyPosted_access (p.config file) body
  have hsound := sound_applyPosted (p.sound_config file) hbody
  have hvalue : ∀ i : Fin configKeys.length,
      (applyPosted (p.config file) body).value i = (p.config file).value i →
      Storable ((p.config file).value i) → config.value i = (p.config file).value i := by
    intro i hkept hstore
    rw [p.value_written hpath hsound h.applied (hkept ▸ hstore), hkept, p.value_config hpath]
    cases p.override i <;> rfl
  have hips : config.value ⟨48, by decide⟩ = (p.config file).value ⟨48, by decide⟩ :=
    hvalue _ (congrArg (fun path : Path => SettingValue.text path.text) hposted.1) h.ips
  have hledger : config.value ⟨2, by decide⟩ = (p.config file).value ⟨2, by decide⟩ :=
    hvalue _ (congrArg (fun path : Path => SettingValue.text path.text) hposted.2) h.ledger
  exact ⟨CString.ext (SettingValue.text.inj hips), CString.ext (SettingValue.text.inj hledger)⟩

/-! ## Runs -/

def daemonStep (p : Process) : Option Daemon → Incoming → Option Daemon := optStep (handleClient p)

/-- The request leaves tokens, hosts and addresses alone: no line of the client's JSON is taken for
one about tokens or hosts, and a posted configuration breaks no line of the file. -/
structure LeavesAccess (p : Process) (d : Daemon) (i : Incoming) : Prop where
  clients : ∀ line ∈ (i.authorised (p.config d.configFile) d).clientLines d.ledger, Harmless line
  posted : route i.request = .config → p.start.configPath.text ≠ [] →
    ∀ body, requestBody i.request = some body → KeepsLines (p.config d.configFile) body

/-- What decides about tokens and hosts is as it was. -/
structure SameAccess (p : Process) (d d' : Daemon) : Prop where
  ips : (p.config d'.configFile).remoteAllowedIps = (p.config d.configFile).remoteAllowedIps
  ledger : (p.config d'.configFile).taskLedgerPath = (p.config d.configFile).taskLedgerPath
  tokens : ∀ request peerIp role now,
    validateBearerToken (p.config d'.configFile) d'.ledger request peerIp role now =
      validateBearerToken (p.config d.configFile) d.ledger request peerIp role now
  hosts : ∀ host agent, readHostProfiles d'.ledger host agent = readHostProfiles d.ledger host agent

section run

variable {p : Process} {d d' : Daemon} {i : Incoming} {incoming : List Incoming}

theorem SameAccess.refl : SameAccess p d d := ⟨rfl, rfl, fun _ _ _ _ => rfl, fun _ _ => rfl⟩

theorem SameAccess.trans {d'' : Daemon} (h : SameAccess p d d') (h' : SameAccess p d' d'') :
    SameAccess p d d'' where
  ips := h'.ips.trans h.ips
  ledger := h'.ledger.trans h.ledger
  tokens _ _ _ _ := (h'.tokens ..).trans (h.tokens ..)
  hosts _ _ := (h'.hosts ..).trans (h.hosts ..)

/-- Every request is a posted configuration, the opening of a session or the call of a handler. -/
theorem handleClient_cases (h : handleClient p d i = some d') :
    (∃ file, route i.request = .config ∧ d' = { d with configFile := file } ∧
      (file = d.configFile ∨ p.start.configPath.text ≠ [] ∧ ∃ body,
        requestBody i.request = some body ∧
          file = wtConfigWriteFile (applyPosted (p.config d.configFile) body))) ∨
    (∃ session, d' = { d with session }) ∨
    ∃ after, (i.authorised (p.config d.configFile) d).serve d.ledger = some after ∧
      d' = { d with ledger := after } := by
  unfold handleClient at h
  dsimp only at h
  split at h
  · rename_i hroute
    cases h
    refine .inl ⟨_, hroute, rfl, ?_⟩
    unfold handlePostConfig
    split
    · exact .inl rfl
    · rename_i body hbody
      split
      · exact .inl rfl
      · rename_i hpath
        dsimp only
        split
        · refine .inr ⟨fun hstart => hpath ?_, body, hbody, rfl⟩
          rw [Process.config, if_pos hstart, hstart]
        · exact .inl rfl
  · cases h
    exact .inr (.inl ⟨_, rfl⟩)
  · obtain ⟨after, hafter, rfl⟩ := Option.map_eq_some_iff.mp h
    exact .inr (.inr ⟨after, hafter, rfl⟩)

theorem zero_notMem_requestBody {request body : Bytes} (h : 0 ∉ request)
    (hbody : requestBody request = some body) : 0 ∉ body := by
  intro hz
  obtain ⟨found, hfound, rfl⟩ := Option.map_eq_some_iff.mp hbody
  obtain ⟨pre, rest, htext, rfl⟩ := strstr_eq_some hfound
  refine h ?_
  rw [htext]
  exact List.mem_append_right _ (List.mem_of_mem_drop hz)

theorem concernsAccess_everyone (haccess : (route i.request).access = .everyone)
    (config : WtConfig) : (i.authorised config d).concernsAccess = false := by
  unfold Incoming.authorised
  dsimp only
  rw [haccess]
  generalize route i.request = endpoint at haccess ⊢
  cases endpoint <;> first | rfl | cases haccess

/-- A request that is dispatched without a check changes nothing about tokens and hosts. -/
theorem sameAccess_step (haccess : (route i.request).access = .everyone)
    (hleaves : LeavesAccess p d i) (h : handleClient p d i = some d') : SameAccess p d d' := by
  rcases handleClient_cases h with ⟨file, hroute, rfl, hfile⟩ | ⟨session, rfl⟩ |
    ⟨after, hserve, rfl⟩
  · rcases hfile with rfl | ⟨hpath, body, hbody, rfl⟩
    · exact .refl
    · obtain ⟨hips, hledger⟩ := (hleaves.posted hroute hpath body hbody).config_written hpath
        (zero_notMem_requestBody i.terminated hbody)
      refine ⟨hips, hledger, fun request peerIp role now => ?_, fun _ _ => rfl⟩
      have hnone : ∀ line ∈ ([] : Ledger), Harmless line := by simp
      simpa using validateBearerToken_append hips hnone request peerIp role now
  · exact ⟨rfl, rfl, fun _ _ _ _ => rfl, fun _ _ => rfl⟩
  · obtain ⟨lines, hlines, rfl⟩ := ApiRequest.serve_extends hserve
    have hharmless : ∀ line ∈ lines, Harmless line := fun line hline =>
      (hlines line hline).harmless (concernsAccess_everyone haccess _) hleaves.clients
    exact ⟨rfl, rfl, validateBearerToken_append rfl hharmless, readHostProfiles_append hharmless⟩

/-- The request has issued the token in the state it met. -/
structure IssuedBy (p : Process) (d : Daemon) (i : Incoming) (issued : Issued) : Prop where
  endpoint : route i.request = .authToken
  operator : requireOperatorAuth (p.config d.configFile) d.session d.ledger i.request i.peerIp
    i.outside.checkedAt = true
  issue : readIssue (p.config d.configFile) (bearerBody i.request)
    (makeToken i.outside.made i.outside.source) = some issued.toIssue

/-- Only the endpoint behind the operator's authorisation issues tokens. -/
theorem issuedBy_makes {issued : Issued} {issuedAt : Long}
    (h : (i.authorised (p.config d.configFile) d).Makes (.issue issued issuedAt)) :
    IssuedBy p d i issued := by
  unfold Incoming.authorised at h
  dsimp only at h
  generalize hroute : route i.request = endpoint at h
  cases endpoint
  case authToken =>
    simp only [Endpoint.access] at h
    split at h
    · rename_i hoperator
      cases h with
      | issue hread => exact ⟨hroute, hoperator, hread⟩
    · cases h
  all_goals
    simp only [Endpoint.access] at h
    first
    | cases h
    | split at h <;> cases h

/-- The log of a run and where its issues come from. -/
theorem tokenLog_run (h : Along (daemonStep p) (fun s i => ∀ d ∈ s, LeavesAccess p d i) (some d)
      incoming) (hrun : run (daemonStep p) (some d) incoming = some d')
    (hfresh : ∀ line ∈ d.ledger, NoTokenEvent line) :
    ∃ events, TokenLog d'.ledger events ∧ ∀ issued issuedAt, .issue issued issuedAt ∈ events →
      ∃ before i behind t, incoming = before ++ i :: behind ∧
        run (daemonStep p) (some d) before = some t ∧ IssuedBy p t i issued := by
  induction incoming using List.reverseRecOn generalizing d' with
  | nil =>
    obtain rfl : d = d' := Option.some.inj hrun
    exact ⟨[], .fresh hfresh, by simp⟩
  | append_singleton incoming i ih =>
    obtain ⟨t, ht, hstep⟩ := optStep_concat hrun
    obtain ⟨events, hlog, hevents⟩ := ih h.before_cut ht
    have hleaves : LeavesAccess p t i := h.at_cut t ht
    have hearlier : ∀ issued issuedAt, .issue issued issuedAt ∈ events →
        ∃ before j behind s, incoming ++ [i] = before ++ j :: behind ∧
          run (daemonStep p) (some d) before = some s ∧ IssuedBy p s j issued := by
      intro issued issuedAt hmem
      obtain ⟨before, j, behind, s, rfl, hs, hissued⟩ := hevents issued issuedAt hmem
      exact ⟨before, j, behind ++ [i], s, by simp, hs, hissued⟩
    rcases handleClient_cases hstep with ⟨file, -, rfl, -⟩ | ⟨session, rfl⟩ | ⟨after, hserve, rfl⟩
    · exact ⟨events, hlog, hearlier⟩
    · exact ⟨events, hlog, hearlier⟩
    · obtain ⟨made, hmade, hmakes⟩ :=
        hlog.extends (ApiRequest.serve_extends hserve) hleaves.clients
      refine ⟨events ++ made, hmade, fun issued issuedAt hmem => ?_⟩
      rcases List.mem_append.mp hmem with hmem | hmem
      · exact hearlier issued issuedAt hmem
      · exact ⟨incoming, i, [], t, rfl, ht, issuedBy_makes (hmakes _ hmem)⟩

/-- An accepted token has been issued, with the role it is accepted for. -/
theorem TokenLog.issued_of_accepted {ledger : Ledger} {events : List TokenEvent}
    (hlog : TokenLog ledger events) {config : WtConfig} {request peerIp role : Bytes} {now : Int}
    {auth : WtAuthContext}
    (h : validateBearerToken config ledger request peerIp role now = .ok auth) :
    ∃ token issued issuedAt, extractBearerToken request = some token ∧
      .issue issued issuedAt ∈ events ∧ tokenHash issued.token = tokenHash token ∧
      issued.auth = auth ∧ (role = [] ∨ role = issued.role) := by
  rw [hlog.validateBearerToken_eq] at h
  split at h
  · cases h
  · cases htoken : extractBearerToken request with
    | none => simp [htoken] at h
    | some token =>
      simp only [htoken, decideToken] at h
      split at h
      · cases h
      · rename_i issued issuedAt hlast
        split at h
        · cases h
        · split at h
          · cases h
          · split at h
            · cases h
            · rename_i hrole
              obtain ⟨event, hmem, hissue⟩ := List.mem_filterMap.mp (List.mem_of_getLast? hlast)
              cases event with
              | revoke => cases hissue
              | issue issued' issuedAt' =>
                rw [TokenEvent.issueOf, Option.ite_none_right_eq_some] at hissue
                obtain ⟨hhash, heq⟩ := hissue
                cases heq
                cases h
                exact ⟨token, issued, issuedAt, rfl, hmem, hhash, rfl, by tauto⟩

end run

/-- What the handlers of these requests do not use. -/
def quietOutside : Outside where
  checkedAt := ⟨0, int64_zero⟩
  clock := firstClock
  times := stoppedClock
  now := ⟨0, int64_zero⟩
  killed := ⟨0, int64_zero⟩
  world := patternsWorld []
  source := .unavailable ⟨0, int64_zero⟩ ⟨0, int64_zero⟩
  made := ⟨0, int64_zero⟩
  issuedAt := ⟨0, int64_zero⟩
  claim := earlyTimes
  writes := true

def plainProcess : Process where
  start := {}
  sound := sound_defaults
  environment _ := none
  terminated _ _ h := nomatch h

def emptyDaemon : Daemon := ⟨[], [], none⟩

theorem zero_notMem_plainEvent : 0 ∉ eventRequest plainEvent := by decide +kernel

def plainIncoming : Incoming where
  request := eventRequest plainEvent
  terminated := zero_notMem_plainEvent
  peerIp := bytes "192.0.2.1"
  outside := quietOutside

/-- An event whose text has the schema of a token in it. -/
def tokenEvent : Bytes :=
  bytes ("\x7b\"schema\":\"woventeam.task_event.v0.1\",\"taskId\":\"t\"," ++
    "\"status\":\"queued\",\"eventType\":\"issue\",\"token\":\"x\",\"role\":\"operator\"," ++
    "\"note\":\x7b\"schema\":\"woventeam.auth_token.v0.1\"\x7d\x7d")

theorem zero_notMem_tokenEvent : 0 ∉ eventRequest tokenEvent := by decide +kernel

def tokenIncoming : Incoming where
  request := eventRequest tokenEvent
  terminated := zero_notMem_tokenEvent
  peerIp := bytes "192.0.2.1"
  outside := quietOutside

def operatorRequest : Bytes :=
  bytes "POST /api/auth-token HTTP/1.1\r\nAuthorization: Bearer x\r\n\r\n"

end WovenTeam

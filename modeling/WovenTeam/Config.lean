import WovenTeam.Json

/-!
# Configuration

`wt_config.c`: a record of settings, read from a file of `key=value` lines and written back to it.
The settings of the file are listed once, in the order in which they are written
(`configKeys`); reading a value and writing the file both go through that list.
-/

namespace WovenTeam

open CText

abbrev wtPathSize : Nat := 256
abbrev wtNameSize : Nat := 64

instance : NeZero wtPathSize := ⟨by decide⟩
instance : NeZero wtNameSize := ⟨by decide⟩

abbrev Path := CString wtPathSize
abbrev Name := CString wtNameSize

def Path.of (s : String) : Path := .copy wtPathSize (bytes s)
def Name.of (s : String) : Name := .copy wtNameSize (bytes s)

/-- The settings; the defaults are those of `wtConfigInitDefaults`. -/
structure WtConfig where
  configPath : Path := Path.of ""
  roomName : Name := Name.of "phase0"
  roomLogPath : Path := Path.of "data/phase0-room.jsonl"
  taskLedgerPath : Path := Path.of "data/task-packages.jsonl"
  taskProjectionDbPath : Path := Path.of "data/task-projection.sqlite"
  httpBindAddress : Name := Name.of "0.0.0.0"
  httpPort : Int := 8787
  contextMessageCount : Int := 20
  agentPollMilliseconds : Int := 1000
  adapterTimeoutSeconds : Int := 1800
  adapterMaxOutputBytes : Int := 1048576
  maxActiveTasksPerAgent : Int := 4
  maxSubtasksPerParent : Int := 8
  maxTasksPerInitiative : Int := 32
  fsyncEachMessage : Bool := false
  roleRoutingEnabled : Bool := true
  enableCodexAdapter : Bool := false
  enableClaudeAdapter : Bool := false
  enableGeminiAdapter : Bool := false
  tokenTelemetryEnabled : Bool := true
  tokenDailyBudget : Int := 2000000
  tokenMonthlyBudget : Int := 50000000
  tokenWarningPercent : Int := 80
  tokenCostPerMillionCents : Int := 1000
  runtimeRootPath : Path := Path.of "/woventeam/runtime/tasks"
  claudeMode : Name := Name.of "stub"
  chatgptMode : Name := Name.of "stub"
  geminiMode : Name := Name.of "stub"
  claudeCommand : Path := Path.of "claude"
  gptCommand : Path := Path.of "codex"
  geminiCommand : Path := Path.of "gemini"
  blockedVendors : Path := Path.of "deepseek"
  tokenBudgetPerInitiative : Int := 0
  tokenBudgetPerModelFamily : Int := 0
  heartbeatIntervalSeconds : Int := 7200
  leaseRenewalIntervalSeconds : Int := 600
  leaseDurationSeconds : Int := 900
  cancelPollIntervalSeconds : Int := 5
  slackWebhookFile : Path := Path.of "config/slack_webhook.txt"
  notificationEscalateKey : Name := Name.of ""
  notificationStuckKey : Name := Name.of ""
  defaultAutonomyLevel : Name := Name.of ""
  claudeDefaultAutonomyLevel : Name := Name.of ""
  chatgptDefaultAutonomyLevel : Name := Name.of ""
  geminiDefaultAutonomyLevel : Name := Name.of ""
  deliverableRoot : Path := Path.of "data/deliverables"
  deliverableDefaultMode : Name := Name.of "copy"
  deliverableBranchPrefix : Name := Name.of "deliverables"
  secretScanPatternsFile : Path := Path.of "config/secret-scan-patterns.txt"
  remoteAllowedIps : Path := Path.of "127.0.0.1,::1"
  authTokenDefaultTtlSeconds : Int := 3600
  operatorSessionPath : Path := Path.of "data/operator-session.token"
  deriving DecidableEq

/-! ## Autonomy defaults -/

/-- The daemon and the agents each have this function. -/
def profileDefaultAutonomy (profile : Bytes) : Bytes :=
  if profile = bytes "observe" then bytes "observe"
  else if profile = bytes "repo_branch" ∨ profile = bytes "test_local" then bytes "ask-batch"
  else bytes "ask-each"

def configuredAutonomyForAgent (config : WtConfig) (agent : Bytes) : Option Bytes :=
  if agent = bytes "claude" ∧ config.claudeDefaultAutonomyLevel.text ≠ [] then
    some config.claudeDefaultAutonomyLevel.text
  else if agent = bytes "chatgpt" ∧ config.chatgptDefaultAutonomyLevel.text ≠ [] then
    some config.chatgptDefaultAutonomyLevel.text
  else if agent = bytes "gemini" ∧ config.geminiDefaultAutonomyLevel.text ≠ [] then
    some config.geminiDefaultAutonomyLevel.text
  else if config.defaultAutonomyLevel.text ≠ [] then some config.defaultAutonomyLevel.text
  else none

end WovenTeam

import WovenTeam.Agent.Adapter
import WovenTeam.Lib.Runs

/-!
# Cycles of agents

`handleAssignedTask` as a whole: an agent leases a task, runs its adapter and records how the run
ended, while other agents and remote hosts claim tasks on the same ledger.

`cycle_excludes_remote`: while the adapter runs, no host is handed the task. `cycle_settles`: a run
that ends leaves the task with its status and without a lease. `finished_stays`: a task in a
terminal status is leased to nobody any more, until a record of another component reopens it.
-/

namespace WovenTeam

open CText QuotedText FirstSeen Runs

/-! ## From the lease to the end of the run -/

section cycle

variable {config : WtConfig} {agentName taskId : Bytes} {ledger leased : Ledger}
  {times : ClaimTimes} {granted : Granted} {world : AgentWorld} {a : Adapter} {gap : Int}

/-- What a claim that leases its task appends: a reclaim where the last lease is stale, and the
lease. -/
structure LeaseRecords (agentName : Bytes) (ledger leased : Ledger) (granted : Granted)
    (released : Ledger) (line : Bytes) : Prop where
  reclaim : released = ledger ∨ ∃ reclaim, released = ledger ++ [reclaim] ∧
    EventLine granted.task.taskId "reclaim" "queued" reclaim
  leased : leased = released ++ [line]
  lease : EventLine granted.task.taskId "lease" "leased" line
  expires : wtJsonReadLongLong line "leaseExpiresAtUnixMs" = some granted.leaseExpiresAtUnixMs
  agent : wtJsonReadString line "assignedAgent" wtTaskAgentSize =
    (FieldValue.text agentName).readString wtTaskAgentSize

theorem Claim.run_leases {claim : Claim} {duration : Int}
    (h : claim.run duration ledger times = (leased, .leased granted))
    (hid : Recordable granted.task.taskId) :
    claim.find ledger (claim.nowUnixMs times.start) = some granted.task ∧
      ∃ released line, LeaseRecords claim.agentName ledger leased granted released line := by
  obtain ⟨-, hreclaim, hlease⟩ := times.range
  unfold Claim.run at h
  dsimp only at h
  split at h
  · cases h
  split at h
  · cases h
  split at h
  · cases h
  unfold Claim.leaseTask at h
  dsimp only at h
  split at h
  · cases h
  split at h
  · cases h
  rename_i task hfound hcapable hforeign _ released hrelease _ leased' happend
  cases h
  let event : StoreEvent := .lease task.taskId claim.agentName
    ⟨toInt32 ((wtTaskFindActiveLease ledger task.taskId).attempt + 1), int64_toInt32 _⟩
    ⟨leaseExpiry (claim.nowUnixMs times.start) duration, int64_wrap64 _⟩ ⟨times.lease, hlease⟩
  have hfields : EventFieldsAre event task.taskId "lease" "leased" := by
    constructor <;> simp +decide [event, StoreEvent.field, fieldNamed, StoreEvent.fields]
  have hexpiry : wtJsonReadLongLong (fieldsLine event.fields) "leaseExpiresAtUnixMs" =
      some (leaseExpiry (claim.nowUnixMs times.start) duration) := by
    refine event.readLong (n := ⟨_, int64_wrap64 _⟩)
      ⟨by decide, by decide, by decide, by decide⟩ ?_
    simp +decide [event, StoreEvent.field, fieldNamed, StoreEvent.fields, leaseExpiry]
  have hagent : event.field "assignedAgent" = some (.text claim.agentName) := by
    simp +decide [event, StoreEvent.field, fieldNamed, StoreEvent.fields]
  refine ⟨hfound, released, fieldsLine event.fields, ?_, event.append_eq happend,
    hfields.reads hid (by decide) (by decide), hexpiry,
    event.readString ⟨by decide, by decide, by decide, by decide⟩ hagent wtTaskAgentSize⟩
  unfold Claim.release at hrelease
  split at hrelease
  · let reclaim : StoreEvent := .reclaim task.taskId
      (wtTaskFindActiveLease ledger task.taskId).leaseHolder claim.agentName
      (bytes "lease_expired")
      (claim.reclaimMessage (wtTaskFindActiveLease ledger task.taskId).leaseHolder)
      ⟨times.reclaim, hreclaim⟩
    have hreclaimed : EventFieldsAre reclaim task.taskId "reclaim" "queued" := by
      constructor <;> simp +decide [reclaim, StoreEvent.field, fieldNamed, StoreEvent.fields]
    exact .inr ⟨fieldsLine reclaim.fields, reclaim.append_eq hrelease,
      hreclaimed.reads hid (by decide) (by decide)⟩
  · cases hrelease
    exact .inl rfl

/-- The lease a claim is granted holds the task until its expiry. -/
theorem Claim.run_heldUntil {claim : Claim} {duration : Int}
    (h : claim.run duration ledger times = (leased, .leased granted))
    (hid : Recordable granted.task.taskId) :
    HeldUntil granted.task.taskId granted.leaseExpiresAtUnixMs leased := by
  obtain ⟨-, released, line, hrecords⟩ := Claim.run_leases h hid
  rw [hrecords.leased]
  exact HeldUntil.of_event released hrecords.lease (by decide) (.inl rfl) hrecords.expires

theorem HeldUntil.grows {expires : Int} {after : Ledger} (h : HeldUntil taskId expires ledger)
    (hgrows : GrowsBy (Bystander taskId) ledger after) : HeldUntil taskId expires after := by
  obtain ⟨lines, rfl, hlines⟩ := hgrows
  exact h.append_bystanders hlines

theorem runningMessage_fits {task : WtTaskSummary} (hid : Recordable task.taskId)
    (ha : a.title.length ≤ 6) : EscapeFits (a.runningMessage task) 1024 := by
  refine escapeFits_snprintf ?_ 512
  have h1 := length_escape_le a.title
  have h2 : ((bytes " adapter started for taskId=").flatMap escapePiece).length = 28 := by decide
  have h3 := hid.fits
  unfold EscapeFits wtTaskIdSize at *
  simp only [length_escape_append, h2]
  omega

/-- Between bystanders, the start of an adapter is one status event of the task. -/
theorem startAdapter_running (config : WtConfig) (ledger : Ledger) {task : WtTaskSummary}
    {world : AdapterWorld} (hid : Recordable task.taskId) (hagent : isKnownAgent agentName)
    (ha : a.title.length ≤ 6)
    (hothers : ∀ line ∈ world.beforeInvocation ++ world.beforeRunning,
      Bystander task.taskId line) :
    ∃ heard line, GrowsBy (Bystander task.taskId) ledger heard ∧
      EventLine task.taskId "status" "running" line ∧
        (startAdapter a config agentName task world ledger).2 = heard ++ [line] := by
  unfold startAdapter
  dsimp only
  generalize autonomyGrantActive config agentName (ledger ++ world.beforeInvocation) task a.name
    (world.checkedAt * 1000) world.worktreeClean = decision
  let invocation : StoreEvent := .autonomy task.taskId (actorName agentName) a.name
    (if decision.active then bytes "adapter_invocation_elevated" else bytes "adapter_invocation")
    a.commandClass decision.level decision.reason decision.active ⟨-1, by decide⟩ world.invokedAt
  have hheard := (((GrowsBy.refl (Bystander task.taskId) ledger).heard
    fun line hline => hothers line (List.mem_append_left _ hline)).record invocation
      (autonomy_bystander task.taskId)).heard
        fun line (hline : line ∈ world.beforeRunning) =>
          hothers line (List.mem_append_right _ hline)
  obtain ⟨line, hrecorded, hevent⟩ := status_recorded _ world.runningAt hid
    (show (FieldValue.text (bytes "running")).readString wtTaskStatusSize = .ok (bytes "running") by
      decide) (by decide) (actorName_fits hagent) (runningMessage_fits hid ha)
    (show EscapeFits [] 64 by decide)
  refine ⟨_, line, hheard, hevent, ?_⟩
  rw [wtTaskAppendStatusEvent]
  exact congrArg (fun recorded : Option Ledger => recorded.getD _) hrecorded

theorem observeGrant_bystanders {task : WtTaskSummary}
    (hothers : ∀ line ∈ world.beforeObserved, Bystander taskId line) :
    GrowsBy (Bystander taskId) ledger (observeGrant config agentName world task ledger) := by
  let observed : StoreEvent := .autonomy task.taskId (actorName agentName) agentName
    (bytes "grant_observed") (bytes "task-claim") (effectiveAutonomyLevel config agentName task)
    (bytes "agent claim entered autonomous policy path") true ⟨-1, by decide⟩ world.observedAt
  have hheard := (GrowsBy.refl (Bystander taskId) ledger).heard hothers
  unfold observeGrant
  dsimp only
  split
  · exact hheard.record observed (autonomy_bystander taskId)
  · exact hheard

/-- What an agent and the others append between its lease and the start of its adapter. -/
theorem cycle_started (leased : Ledger)
    (ha : adapterFor config agentName granted.task = some a)
    (hid : Recordable granted.task.taskId) (hagent : isKnownAgent agentName)
    (hobserved : ∀ line ∈ world.beforeObserved, Bystander granted.task.taskId line)
    (hothers : ∀ line ∈ world.adapter.others, Bystander granted.task.taskId line) :
    ∃ heard line, GrowsBy (Bystander granted.task.taskId) leased heard ∧
      EventLine granted.task.taskId "status" "running" line ∧
        (startAdapter a config agentName granted.task world.adapter
          (observeGrant config agentName world granted.task leased)).2 = heard ++ [line] := by
  have hstart : ∀ line ∈ world.adapter.beforeInvocation ++ world.adapter.beforeRunning,
      Bystander granted.task.taskId line := by
    intro line hline
    refine hothers line ?_
    simp only [AdapterWorld.others, List.mem_append] at hline ⊢
    tauto
  obtain ⟨heard, line, hheard, hevent, hledger⟩ := startAdapter_running config
    (observeGrant config agentName world granted.task leased) hid hagent (adapterFor_title ha)
    hstart
  exact ⟨heard, line, (observeGrant_bystanders hobserved).trans hheard, hevent, hledger⟩

theorem look_bystanders {task : WtTaskSummary} {world : AdapterWorld}
    (hothers : ∀ line ∈ world.others, Bystander task.taskId line) :
    ∀ l ∈ world.looks, ∀ line ∈ l.heard ++ l.between, Bystander task.taskId line := by
  intro l hl line hline
  have hmem : line ∈ world.looks.flatMap fun l => l.heard ++ l.between :=
    List.mem_flatMap.mpr ⟨l, hl, hline⟩
  refine hothers line ?_
  simp only [AdapterWorld.others, List.mem_append]
  tauto

/-- **While an agent's adapter runs, no remote claim is handed its task**: from the lease of its
cycle on, the renewals are recorded in time, whatever others append that is no package and no event
of the task. -/
theorem cycle_excludes_remote
    (hclaim : (Claim.assigned agentName).run config.leaseDurationSeconds ledger times =
      (leased, .leased granted))
    (ha : adapterFor config agentName granted.task = some a)
    (hid : Recordable granted.task.taskId) (hagent : isKnownAgent agentName)
    (hobserved : ∀ line ∈ world.beforeObserved, Bystander granted.task.taskId line)
    (hothers : ∀ line ∈ world.adapter.others, Bystander granted.task.taskId line)
    (hp : Punctual (world.adapter.waiting config agentName granted.task) gap world.adapter.looks)
    (hlease : LeaseOutlasts (world.adapter.waiting config agentName granted.task) gap
      granted.leaseExpiresAtUnixMs)
    {w : Wait}
    (hwait : waitForAdapterChild (world.adapter.waiting config agentName granted.task)
      ((world.adapter.waiting config agentName granted.task).initial
        (startAdapter a config agentName granted.task world.adapter
          (observeGrant config agentName world granted.task leased)).2) world.adapter.looks =
            .waits w)
    {later : Ledger} (hlater : ∀ line ∈ later, Bystander granted.task.taskId line)
    {nowUnixMs : Int}
    (hnow : nowUnixMs < ((world.adapter.waiting config agentName granted.task).latest
      world.adapter.looks + gap + 1) * 1000)
    {other host : Bytes} {task : WtTaskSummary}
    (hfind : wtTaskFindClaimableForAgentOnHost (w.ledger ++ later) other host nowUnixMs =
      some task) :
    task.taskId ≠ granted.task.taskId := by
  obtain ⟨heard, line, hheard, hevent, hledger⟩ :=
    cycle_started leased ha hid hagent hobserved hothers
  have hstart := ((Claim.run_heldUntil hclaim hid).grows hheard).append_running hevent
  rw [← hledger] at hstart
  exact remote_excluded (p := world.adapter.waiting config agentName granted.task) hid hagent hp
    hlease hstart (look_bystanders hothers) hwait hlater hnow hfind

/-- **A cycle whose adapter's run ends leaves the task with the run's status and no active
lease**, whatever has happened to it on the ledger before. -/
theorem cycle_settles {s : Settled}
    (hclaim : (Claim.assigned agentName).run config.leaseDurationSeconds ledger times =
      (leased, .leased granted))
    (ha : adapterFor config agentName granted.task = some a)
    (hid : Recordable granted.task.taskId) (hagent : isKnownAgent agentName)
    (hothers : ∀ line ∈ world.adapter.beforeExit, Bystander granted.task.taskId line)
    (hrun : (runAdapter a config agentName granted.task world.adapter
      (observeGrant config agentName world granted.task leased)).2 = some s) :
    SettledAs granted.task.taskId s.finalStatus
      (handleAssignedTask config agentName ledger times (agentWork config agentName world)) := by
  unfold handleAssignedTask
  simp only [hclaim, agentWork, ha]
  unfold runAdapter at hrun ⊢
  split
  · rename_i hprepared
    simp [hprepared] at hrun
  rename_i hprepared
  simp only [hprepared] at hrun
  dsimp only at hrun ⊢
  split
  · rename_i hforked
    simp [hforked] at hrun
  rename_i hforked
  simp only [hforked] at hrun
  split
  · rename_i w hwait
    simp [hwait] at hrun
  rename_i w e hwait
  simp only [hwait] at hrun
  split
  · rename_i hnone
    simp [hnone] at hrun
  · rename_i settled hsettle
    simp [hsettle] at hrun
    subst hrun
    exact recordSettled_settles _ _ _ hid hagent (adapterFor_title ha) hothers

end cycle

/-! ### A run of claude's adapter -/

def ClaimOutcome.granted : ClaimOutcome → Option Granted
  | .leased granted => some granted
  | _ => none

theorem ClaimOutcome.granted_eq_some {outcome : ClaimOutcome} {granted : Granted} :
    outcome.granted = some granted ↔ outcome = .leased granted := by
  cases outcome <;> simp [ClaimOutcome.granted]

/-- A task for claude, and one for gemini. -/
def twoPackages : Ledger :=
  [claudePackage (.ofPlain "t1"), recordLine (packageRecord (.ofPlain "t2") (.ofPlain "gemini"))]

/-- Claude's claim of `t1`. -/
def claudeClaim : Ledger × ClaimOutcome :=
  (Claim.assigned (bytes "claude")).run adapterConfig.leaseDurationSeconds twoPackages noonTimes

/-- Nobody else appends anything while the adapter runs. -/
def quietRun (looks : List Look) : AgentWorld where
  beforeObserved := []
  observedAt := ⟨1000000, int64_start⟩
  adapter := {
    prepared := true
    beforeInvocation := []
    checkedAt := 1000
    worktreeClean := true
    invokedAt := ⟨1000000, int64_start⟩
    beforeRunning := []
    runningAt := ⟨1000000, int64_start⟩
    forked := true
    start := 1000
    looks
    beforeSettled := []
    settledAt := ⟨1001000, int64_later⟩
    beforeExit := []
    exitedAt := ⟨1001000, int64_later⟩ }
  beforeStart := []
  startedAt := ⟨1000000, int64_start⟩
  startPosted := true
  beforeComplete := []
  completedAt := ⟨1000000, int64_start⟩

/-- The lease of the claim. -/
def claudeGranted : Granted := claudeClaim.2.granted.getD ⟨{}, 0, 0⟩

theorem claudeClaim_leased :
    (Claim.assigned (bytes "claude")).run adapterConfig.leaseDurationSeconds twoPackages noonTimes =
      (claudeClaim.1, .leased claudeGranted) ∧
    claudeGranted.task.taskId = bytes "t1" ∧ claudeGranted.task.modelId = [] ∧
      claudeGranted.task.timeoutSeconds = 0 ∧ claudeGranted.leaseExpiresAtUnixMs = 1900000 := by
  have hclaim : claudeClaim.2.granted.map (fun granted => (granted.task.taskId,
      granted.task.modelId, granted.task.timeoutSeconds, granted.leaseExpiresAtUnixMs)) =
        some (bytes "t1", [], 0, 1900000) := by
    decide +kernel
  obtain ⟨granted, hgranted, hfacts⟩ := Option.map_eq_some_iff.mp hclaim
  have heq : claudeGranted = granted := by rw [claudeGranted, hgranted, Option.getD_some]
  simp only [Prod.mk.injEq] at hfacts
  rw [heq, ← ClaimOutcome.granted_eq_some.mp hgranted, ← claudeClaim]
  exact ⟨Prod.mk.eta.symm, hfacts⟩

theorem adapterFor_claude {task : WtTaskSummary} (h : task.modelId = []) :
    adapterFor adapterConfig (bytes "claude") task =
      some (.cli (bytes "claude") adapterConfig.claudeCommand.text) := by
  have hcodex : isCodexEligibleTask adapterConfig (bytes "claude") task = false := by
    simp [isCodexEligibleTask, adapterConfig]
  have hcli : isCliArtifactEligibleTask adapterConfig (bytes "claude") task = true := by
    simp +decide [isCliArtifactEligibleTask, adapterConfig, h]
  simp [adapterFor, hcodex, hcli]

/-- A second after its start the adapter still runs. -/
def earlyLook : Look := ⟨[], .running, 1001, [], ⟨1001000, int64_later⟩⟩

/-- The ledger when claude's adapter starts. -/
def startedLedger : Ledger :=
  (startAdapter (.cli (bytes "claude") adapterConfig.claudeCommand.text) adapterConfig
    (bytes "claude") claudeGranted.task (quietRun [earlyLook]).adapter
      (observeGrant adapterConfig (bytes "claude") (quietRun [earlyLook]) claudeGranted.task
        claudeClaim.1)).2

theorem claudeGranted_timeout : adapterTimeout adapterConfig claudeGranted.task = 1800 := by
  obtain ⟨-, -, -, htimeout, -⟩ := claudeClaim_leased
  rw [adapterTimeout, htimeout]
  decide

theorem earlyWait (ledger : Ledger) :
    waitForAdapterChild ((quietRun [earlyLook]).adapter.waiting adapterConfig (bytes "claude")
        claudeGranted.task)
      (((quietRun [earlyLook]).adapter.waiting adapterConfig (bytes "claude")
        claudeGranted.task).initial ledger) [earlyLook] =
      .waits ⟨ledger ++ [], 1000, 1000, 1900000⟩ := by
  unfold waitForAdapterChild AdapterWait.look AdapterWorld.waiting
  rw [claudeGranted_timeout]
  rfl

theorem earlyPunctual : Punctual ((quietRun [earlyLook]).adapter.waiting adapterConfig
    (bytes "claude") claudeGranted.task) 1 [earlyLook] :=
  ⟨⟨by decide, trivial⟩, by simp [AdapterWorld.waiting, claudeGranted_timeout]⟩

theorem cycle_excludes_remote_early : ∃ task,
    wtTaskFindClaimableForAgentOnHost (startedLedger ++ [] ++ []) (bytes "gemini") (bytes "h")
      1001500 = some task ∧ task.taskId ≠ claudeGranted.task.taskId := by
  obtain ⟨hclaim, hid, hmodel, -, hexpires⟩ := claudeClaim_leased
  have hsome : (wtTaskFindClaimableForAgentOnHost (startedLedger ++ [] ++ []) (bytes "gemini")
      (bytes "h") 1001500).isSome := by decide +kernel
  obtain ⟨task, hfind⟩ := Option.isSome_iff_exists.mp hsome
  refine ⟨task, hfind, ?_⟩
  have hquiet : ∀ line ∈ (quietRun [earlyLook]).adapter.others,
      Bystander claudeGranted.task.taskId line := by
    simp [quietRun, AdapterWorld.others, earlyLook]
  exact cycle_excludes_remote hclaim (adapterFor_claude hmodel) (hid ▸ recordable_t1)
    (by decide) (by simp [quietRun]) hquiet earlyPunctual
    ⟨by decide, by rw [hexpires]; decide, by decide, by decide⟩ (earlyWait startedLedger)
    (by simp) (by decide) hfind

/-- The adapter ends with exit code 0. -/
def doneLook : Look := ⟨[], .done (some 0), 1001, [], ⟨1001000, int64_later⟩⟩

theorem cycle_settles_done : SettledAs claudeGranted.task.taskId "complete"
    (handleAssignedTask adapterConfig (bytes "claude") twoPackages noonTimes
      (agentWork adapterConfig (bytes "claude") (quietRun [doneLook]))) := by
  obtain ⟨hclaim, hid, hmodel, -, -⟩ := claudeClaim_leased
  have hquiet : ∀ line ∈ (quietRun [doneLook]).adapter.beforeExit,
      Bystander claudeGranted.task.taskId line := by
    simp [quietRun]
  exact cycle_settles (s := ⟨0, false, false⟩) hclaim (adapterFor_claude hmodel)
    (hid ▸ recordable_t1) (by decide) hquiet rfl

/-! ## Finished tasks -/

/-- The line gives the task a status that is not terminal. -/
def Reopens (taskId line : Bytes) : Prop :=
  lineTaskId line = some taskId ∧
    ∃ status ∈ overlaidText "status" wtTaskStatusSize (bytes "queued") line, ¬ endsLease status

/-- The task's last line to give it a status gave it a terminal one. -/
def Finished (taskId : Bytes) (ledger : Ledger) : Prop :=
  ∃ status ∈ lastStatus ledger taskId, endsLease status

/-- A call of a claiming function with what comes of it, or a record of another component. -/
inductive WorkStep where
  | record (line : Bytes)
  | cycle (config : WtConfig) (agentName : Bytes) (times : ClaimTimes) (world : AgentWorld)
  | remote (config : WtConfig) (agentName host : Bytes) (times : ClaimTimes)

def WorkStep.apply (ledger : Ledger) : WorkStep → Ledger
  | record line => ledger ++ [line]
  | cycle config agentName times world =>
    handleAssignedTask config agentName ledger times (agentWork config agentName world)
  | remote config agentName host times =>
    ((Claim.remote agentName host).run config.leaseDurationSeconds ledger times).1

/-- The task the step leases. -/
def WorkStep.leased (ledger : Ledger) : WorkStep → Option Bytes
  | record _ => none
  | cycle config agentName times _ =>
    ((Claim.assigned agentName).run config.leaseDurationSeconds ledger times).2.granted.map
      (·.task.taskId)
  | remote config agentName host times =>
    ((Claim.remote agentName host).run config.leaseDurationSeconds ledger times).2.granted.map
      (·.task.taskId)

/-- What others append in the step. -/
def WorkStep.others : WorkStep → Ledger
  | record line => [line]
  | cycle _ _ _ world => world.others
  | remote .. => []

/-- No other component reopens the task, and the ids of the ledger's tasks are read back. -/
structure WorkStep.Leaves (taskId : Bytes) (ledger : Ledger) (step : WorkStep) : Prop where
  others : ∀ line ∈ step.others, ¬ Reopens taskId line
  ids : ∀ id ∈ packageIds ledger, Decodes id

section finished

variable {taskId line : Bytes} {ledger after : Ledger}

theorem Bystander.not_reopens (h : Bystander taskId line) : ¬ Reopens taskId line := by
  rintro ⟨hid, status, hstatus, -⟩
  simp [overlaidText, h hid] at hstatus

theorem Finished.append (h : Finished taskId ledger) (hline : ¬ Reopens taskId line) :
    Finished taskId (ledger ++ [line]) := by
  obtain ⟨status, hstatus, hends⟩ := h
  unfold Finished lastStatus
  rw [lastOf_taskLines_append]
  split
  · rename_i hid
    cases hgiven : overlaidText "status" wtTaskStatusSize (bytes "queued") line with
    | none => exact ⟨status, hstatus, hends⟩
    | some given =>
      refine ⟨given, rfl, ?_⟩
      by_contra hno
      exact hline ⟨hid, given, hgiven, hno⟩
  · exact ⟨status, hstatus, hends⟩

theorem Finished.grows (h : Finished taskId ledger)
    (hgrows : GrowsBy (fun line => ¬ Reopens taskId line) ledger after) :
    Finished taskId after := by
  obtain ⟨lines, rfl, hlines⟩ := hgrows
  induction lines using List.reverseRecOn with
  | nil => rwa [List.append_nil]
  | append_singleton lines line ih =>
    rw [← List.append_assoc]
    exact (ih fun l hl => hlines l (List.mem_append_left _ hl)).append (hlines line (by simp))

theorem Finished.not_waits (h : Finished taskId ledger) : ¬ Waits ledger taskId := by
  obtain ⟨status, hstatus, hends⟩ := h
  rintro (hwaits | hwaits) <;> rw [hwaits] at hstatus <;> cases hstatus <;>
    exact absurd hends (by decide)

theorem Finished.not_held (h : Finished taskId ledger) : ¬ Held ledger taskId := by
  obtain ⟨status, hstatus, hends⟩ := h
  rintro (hheld | hheld) <;> rw [hheld] at hstatus <;> cases hstatus <;>
    exact absurd hends (by decide)

/-- What a claim's scan finds waits or is held, and has a package. -/
theorem Claim.find_ready {claim : Claim} {nowUnixMs : Int} {task : WtTaskSummary}
    (h : claim.find ledger nowUnixMs = some task) :
    (Waits ledger task.taskId ∨ Held ledger task.taskId) ∧ task.taskId ∈ packageIds ledger := by
  have hrow : ∀ {movesExpiry : List String} {row : ClaimRow},
      row ∈ (claimTable movesExpiry).scan (some taskTableSize) ledger →
      row.queued ∨ row.stuck nowUnixMs →
      (Waits ledger row.claimed.taskId ∨ Held ledger row.claimed.taskId) ∧
        row.claimed.taskId ∈ packageIds ledger := by
    intro movesExpiry row hmem hready
    have hstate := ((claimTable movesExpiry).mem_scan_iff.mp hmem).2
    refine ⟨?_, (claimTable movesExpiry).mem_firstSeen_iff.mpr (Option.isSome_of_eq_some hstate)⟩
    rcases hready with hqueued | hstuck
    · exact .inl ((queued_iff hstate).mp hqueued)
    · exact .inr ((stuck_iff hstate).mp hstuck).1
  cases claim with
  | assigned agentName =>
    unfold Claim.find at h
    dsimp only at h
    split at h
    · cases h
    · unfold wtTaskFindClaimableForAgent at h
      split at h
      · rename_i found hfound
        cases h
        obtain ⟨hstate, -, -⟩ := eligible_of_find hfound
        have hqueued := isQueuedFor_iff.mp (List.find?_some hfound)
        refine ⟨.inl ?_, mem_packageIds_iff.mpr (Option.isSome_of_eq_some hstate)⟩
        rw [Waits, lastStatus, overlaidText_eq WtTaskSummary.status (fun _ _ => rfl)
          (fun _ _ => rfl) hstate]
        exact hqueued.2.2.imp (congrArg some) (congrArg some)
      · obtain ⟨row, hfound, rfl⟩ := Option.map_eq_some_iff.mp h
        have hstuck := List.find?_some hfound
        simp only [Bool.and_eq_true] at hstuck
        exact hrow (List.mem_of_find?_eq_some hfound) (.inr hstuck.1.1)
  | remote agentName host =>
    obtain ⟨row, hfound, rfl⟩ := Option.map_eq_some_iff.mp h
    have hready := List.find?_some hfound
    simp only [Bool.and_eq_true, Bool.or_eq_true] at hready
    exact hrow (List.mem_of_find?_eq_some hfound) hready.1.1

/-- **No claim finds a finished task.** -/
theorem Finished.not_found (h : Finished taskId ledger) {claim : Claim} {nowUnixMs : Int}
    {task : WtTaskSummary} (hfind : claim.find ledger nowUnixMs = some task) :
    task.taskId ≠ taskId := by
  rintro rfl
  exact (Claim.find_ready hfind).1.elim h.not_waits h.not_held

/-- What a claim leaves behind: nothing, or records of a task it found. -/
theorem Claim.run_grows {claim : Claim} {duration : Int} {times : ClaimTimes} {P : Bytes → Prop}
    (hP : ∀ task, claim.find ledger (claim.nowUnixMs times.start) = some task →
      ∀ event : StoreEvent, event.field "taskId" = some (.text task.taskId) →
        P (fieldsLine event.fields)) :
    GrowsBy P ledger (claim.run duration ledger times).1 ∧
      ∀ granted, (claim.run duration ledger times).2 = .leased granted →
        claim.find ledger (claim.nowUnixMs times.start) = some granted.task := by
  obtain ⟨-, hreclaim, hlease⟩ := times.range
  unfold Claim.run
  dsimp only
  split
  · exact ⟨.refl _ _, by simp⟩
  rename_i task hfound
  split
  · exact ⟨.refl _ _, by simp⟩
  split
  · exact ⟨.refl _ _, by simp⟩
  unfold Claim.leaseTask
  dsimp only
  split
  · exact ⟨.refl _ _, by simp⟩
  rename_i released hrelease
  have hreleased : GrowsBy P ledger released := by
    unfold Claim.release at hrelease
    split at hrelease
    · have hevent := (StoreEvent.reclaim task.taskId
        (wtTaskFindActiveLease ledger task.taskId).leaseHolder claim.agentName
        (bytes "lease_expired")
        (claim.reclaimMessage (wtTaskFindActiveLease ledger task.taskId).leaseHolder)
        ⟨times.reclaim, hreclaim⟩).append_eq hrelease
      rw [hevent]
      exact ⟨[_], rfl, by simpa using hP task hfound _ (by
        simp +decide [StoreEvent.field, fieldNamed, StoreEvent.fields])⟩
    · cases hrelease
      exact .refl _ _
  split
  · exact ⟨hreleased, by simp⟩
  · rename_i leased happend
    refine ⟨?_, fun granted hgranted => ?_⟩
    · have hevent := (StoreEvent.lease task.taskId claim.agentName
        ⟨toInt32 ((wtTaskFindActiveLease ledger task.taskId).attempt + 1), int64_toInt32 _⟩
        ⟨leaseExpiry (claim.nowUnixMs times.start) duration, int64_wrap64 _⟩
        ⟨times.lease, hlease⟩).append_eq happend
      rw [hevent]
      refine hreleased.trans ⟨[_], rfl, ?_⟩
      simpa using hP task hfound _ (by
        simp +decide [StoreEvent.field, fieldNamed, StoreEvent.fields])
    · cases hgranted
      exact hfound

/-- **A step leaves a finished task finished, and leases another one.** -/
theorem Finished.apply (h : Finished taskId ledger) {step : WorkStep}
    (hstep : step.Leaves taskId ledger) :
    Finished taskId (step.apply ledger) ∧ step.leased ledger ≠ some taskId := by
  have hclaim : ∀ (claim : Claim) (duration : Int) (times : ClaimTimes),
      GrowsBy (fun line => ¬ Reopens taskId line) ledger (claim.run duration ledger times).1 ∧
        ∀ granted, (claim.run duration ledger times).2 = .leased granted →
          Decodes granted.task.taskId ∧ granted.task.taskId ≠ taskId := by
    intro claim duration times
    have hother : ∀ task, claim.find ledger (claim.nowUnixMs times.start) = some task →
        Decodes task.taskId ∧ task.taskId ≠ taskId := fun task hfind =>
      ⟨hstep.ids _ (Claim.find_ready hfind).2, h.not_found hfind⟩
    have hrun : GrowsBy (fun line => ¬ Reopens taskId line) ledger
        (claim.run duration ledger times).1 ∧
          ∀ granted, (claim.run duration ledger times).2 = .leased granted →
            claim.find ledger (claim.nowUnixMs times.start) = some granted.task :=
      Claim.run_grows fun task hfind event hevent =>
        (bystander_of_other hevent (hother task hfind).1 (hother task hfind).2).not_reopens
    exact ⟨hrun.1, fun granted hleased => hother _ (hrun.2 granted hleased)⟩
  have hleased : ∀ (claim : Claim) (duration : Int) (times : ClaimTimes),
      (claim.run duration ledger times).2.granted.map (·.task.taskId) ≠ some taskId := by
    intro claim duration times hsome
    obtain ⟨granted, hgranted, hid⟩ := Option.map_eq_some_iff.mp hsome
    exact ((hclaim claim duration times).2 granted
      (ClaimOutcome.granted_eq_some.mp hgranted)).2 hid
  cases step with
  | record line =>
    exact ⟨h.append (hstep.others line (List.mem_singleton.mpr rfl)), by simp [WorkStep.leased]⟩
  | remote config agentName host times =>
    exact ⟨h.grows (hclaim (.remote agentName host) config.leaseDurationSeconds times).1,
      hleased _ _ _⟩
  | cycle config agentName times world =>
    obtain ⟨hgrows, hgranted⟩ := hclaim (.assigned agentName) config.leaseDurationSeconds times
    refine ⟨?_, hleased _ _ _⟩
    unfold WorkStep.apply handleAssignedTask
    dsimp only
    split
    · rename_i leased granted hrun
      rw [hrun] at hgrows hgranted
      obtain ⟨hid, hne⟩ := hgranted granted rfl
      refine (h.grows hgrows).grows ((agentWork_grows config agentName world granted.task
        leased).mono fun line hline => ?_)
      rcases hline with hothers | ⟨event, hwork, rfl⟩
      · exact hstep.others line hothers
      · exact (hwork.bystander hid hne).not_reopens
    · rename_i ledger' outcome hno hrun
      rw [hrun] at hgrows
      exact h.grows hgrows

/-- **A finished task is never run again**: along every run in which no other component reopens it,
it stays finished, and no agent and no host leases it. -/
theorem finished_stays {steps : List WorkStep} (h : Finished taskId ledger)
    (hrun : Along WorkStep.apply (WorkStep.Leaves taskId) ledger steps) :
    Finished taskId (run WorkStep.apply ledger steps) ∧
      ∀ before step later, steps = before ++ step :: later →
        step.leased (run WorkStep.apply ledger before) ≠ some taskId := by
  have hstep : ∀ ledger step, Finished taskId ledger → WorkStep.Leaves taskId ledger step →
      Finished taskId (WorkStep.apply ledger step) :=
    fun _ _ hfinished hleaves => (hfinished.apply hleaves).1
  refine ⟨run_invariant hstep h hrun, ?_⟩
  rintro before step later rfl
  exact ((run_invariant hstep h hrun.before_cut).apply hrun.at_cut).2

end finished

/-- `t1` is complete, and `t2` waits for gemini. -/
def completeLedger : Ledger :=
  twoPackages ++ [fieldsLine (lifecycleFields (bytes "t1") (bytes "complete") [] 1000000)]

theorem finished_stays_complete :
    WorkStep.leased completeLedger
      (.cycle adapterConfig (bytes "claude") noonTimes (quietRun [doneLook])) ≠
        some (bytes "t1") := by
  have hfinished : Finished (bytes "t1") completeLedger :=
    ⟨bytes "complete", by decide +kernel, by decide⟩
  have hids : ∀ id ∈ packageIds completeLedger, Decodes id := by decide +kernel
  have hrun : Along WorkStep.apply (WorkStep.Leaves (bytes "t1")) completeLedger
      [.cycle adapterConfig (bytes "claude") noonTimes (quietRun [doneLook])] := by
    refine ⟨⟨?_, hids⟩, trivial⟩
    simp [WorkStep.others, quietRun, AgentWorld.others, AdapterWorld.others, doneLook]
  exact (finished_stays hfinished hrun).2 [] _ [] rfl

end WovenTeam

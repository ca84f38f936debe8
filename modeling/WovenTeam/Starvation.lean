import WovenTeam.Claims
import WovenTeam.ClaimScans
import WovenTeam.Store.Events

/-!
# A blocked head of the queue

`handleAssignedTask` asks the scan for one task and only then looks at the lease. Where another
agent still holds the task the scan puts first, the cycle ends there, whatever waits behind it.
`notStarved_iff`: an agent with something to lease gets a lease exactly when the task the scan puts
first is free and its records fit.
-/

namespace WovenTeam

open CText QuotedText FirstSeen

/-! ## The statement -/

/-- A lease event that names the agent. -/
def isLeaseFor (agentName line : Bytes) : Prop :=
  isLeaseLine line ∧ wtJsonReadString line "assignedAgent" wtTaskAgentSize = .ok agentName

def AppendsLeaseFor (agentName : Bytes) (ledger ledger' : Ledger) : Prop :=
  ∃ line ∈ ledger'.drop ledger.length, isLeaseFor agentName line

/-- The agent was given the task, which waits for no host, is not under way with a lease still
running, and is no other agent's. -/
structure Leasable (ledger : Ledger) (agentName : Bytes) (nowUnixMs : Int) (taskId : Bytes) :
    Prop where
  owner : owner ledger taskId = some agentName
  unpinned : Unpinned ledger taskId
  ready : Waits ledger taskId ∨ Held ledger taskId ∧ Expired ["lease"] ledger nowUnixMs taskId
  free : (wtTaskFindActiveLease ledger taskId).foreign agentName nowUnixMs = false

/-- What the agent does with a leased task appends to the ledger, and no leases. -/
def WorkAppends (work : WtTaskSummary → Ledger → Ledger) : Prop :=
  ∀ task ledger, ∃ lines, work task ledger = ledger ++ lines ∧ ∀ line ∈ lines, ¬ isLeaseLine line

/-- An agent with something to lease leases something. -/
def NotStarved (config : WtConfig) (agentName : Bytes) (ledger : Ledger) (times : ClaimTimes)
    (work : WtTaskSummary → Ledger → Ledger) : Prop :=
  (∃ taskId, Leasable ledger agentName ((Claim.assigned agentName).nowUnixMs times.start) taskId) →
    AppendsLeaseFor agentName ledger (handleAssignedTask config agentName ledger times work)

/-! ## The head of the queue -/

/-- The task waits for the agent that its last line to name one names. -/
def WaitsFor (ledger : Ledger) (agentName taskId : Bytes) : Prop :=
  Unpinned ledger taskId ∧ Waits ledger taskId ∧ lastNamedAgent ledger taskId = some agentName

/-- The agent was given the task, and its lease ran out. -/
def StuckWith (ledger : Ledger) (agentName : Bytes) (nowUnixMs : Int) (taskId : Bytes) : Prop :=
  Unpinned ledger taskId ∧ Held ledger taskId ∧ owner ledger taskId = some agentName ∧
    Expired ["lease"] ledger nowUnixMs taskId

/-- The task with the earliest package among those that wait for the agent; where there are none,
among those that are stuck with it. -/
def IsHead (ledger : Ledger) (agentName : Bytes) (nowUnixMs : Int) (taskId : Bytes) : Prop :=
  FirstWith (WaitsFor ledger agentName) (packageIds ledger) taskId ∨
    (∀ id ∈ packageIds ledger, ¬ WaitsFor ledger agentName id) ∧
      FirstWith (StuckWith ledger agentName nowUnixMs) (packageIds ledger) taskId

/-- No other agent holds the task, the texts of its records fit, and the agent's name reads back. -/
structure HeadFree (ledger : Ledger) (agentName : Bytes) (nowUnixMs : Int) (taskId : Bytes) :
    Prop where
  free : (wtTaskFindActiveLease ledger taskId).foreign agentName nowUnixMs = false
  idFits : EscapeFits taskId (wtTaskIdSize * 2)
  nameFits : EscapeFits agentName (wtTaskAgentSize * 2)
  holderFits : (wtTaskFindActiveLease ledger taskId).stale nowUnixMs →
    EscapeFits (wtTaskFindActiveLease ledger taskId).leaseHolder (wtTaskAgentSize * 2)
  readsBack : (FieldValue.text agentName).readString wtTaskAgentSize = .ok agentName



/-! ## What the scan finds -/

section scan

variable {ledger : Ledger} {agentName : Bytes} {nowUnixMs : Int}
  (hcap : (packageIds ledger).length ≤ taskTableSize)

include hcap

theorem queuedScan_iff {task : WtTaskSummary} :
    wtTaskFindQueuedForAgent ledger agentName = some task ↔
      FirstWith (WaitsFor ledger agentName) (packageIds ledger) task.taskId ∧
        foldedState ledger task.taskId = some task := by
  rw [wtTaskFindQueuedForAgent, scanQueued, queuedTable.find?_scan_iff hcap]
  refine and_congr_left fun _ => FirstWith.congr (fun id hid => ?_) _
  obtain ⟨task, htask⟩ := Option.isSome_iff_exists.mp (mem_packageIds_iff.mp hid)
  have hstatus := overlaidText_eq WtTaskSummary.status (fun _ _ => rfl) (fun _ _ => rfl) htask
  have hagent := overlaidText_eq WtTaskSummary.assignedAgent (fun _ _ => rfl) (fun _ _ => rfl)
    htask
  rw [WaitsFor, Unpinned, Waits, lastStatus, lastNamedAgent, hstatus, hagent, htask,
    ← foldedState, htask, Option.any_some, isQueuedFor_iff]
  simp only [Option.map_some, Option.some.injEq]
  tauto

theorem stuckScan_iff {row : ClaimRow} :
    (((claimTable ["lease"]).scan (some taskTableSize) ledger).find? fun row =>
        row.stuck nowUnixMs && row.task.executionHost == [] && row.ownerAgent == agentName) =
          some row ↔
      FirstWith (StuckWith ledger agentName nowUnixMs) (packageIds ledger) row.task.taskId ∧
        (claimTable ["lease"]).stateOf ledger row.task.taskId = some row := by
  rw [(claimTable ["lease"]).find?_scan_iff hcap]
  refine and_congr_left fun _ => FirstWith.congr (fun id hid => ?_) _
  obtain ⟨row, hrow⟩ := claimRow_isSome ["lease"] hid
  rw [StuckWith, unpinned_iff hrow, ownerAgent_eq hrow, hrow]
  simp only [Option.any_some, Bool.and_eq_true, beq_iff_eq, stuck_iff hrow, Option.some.injEq]
  tauto

/-- **The scan finds the head of the queue.** -/
theorem claimableScan_taskId (taskId : Bytes) :
    (∃ task, wtTaskFindClaimableForAgent ledger agentName nowUnixMs = some task ∧
        task.taskId = taskId) ↔
      IsHead ledger agentName nowUnixMs taskId := by
  unfold wtTaskFindClaimableForAgent IsHead
  cases hfind : wtTaskFindQueuedForAgent ledger agentName with
  | some task =>
    obtain ⟨hfirst, -⟩ := (queuedScan_iff hcap).mp hfind
    obtain ⟨id, hid, hwaits⟩ := firstWith_exists.mp ⟨_, hfirst⟩
    simp only [Option.some.injEq, exists_eq_left']
    refine ⟨fun h => .inl (h ▸ hfirst), ?_⟩
    rintro (h | ⟨hnone, -⟩)
    · exact FirstWith.unique hfirst h
    · exact absurd hwaits (hnone id hid)
  | none =>
    have hnone : ∀ other ∈ packageIds ledger, ¬ WaitsFor ledger agentName other := by
      intro other hother hwaits
      obtain ⟨first, hfirst⟩ := firstWith_exists.mpr ⟨other, hother, hwaits⟩
      have hmem : first ∈ packageIds ledger := by
        obtain ⟨before, after, hsplit, -⟩ := hfirst
        simp [hsplit]
      obtain ⟨task, htask⟩ := Option.isSome_iff_exists.mp (mem_packageIds_iff.mp hmem)
      obtain rfl := foldedState_taskId htask
      cases hfind.symm.trans ((queuedScan_iff hcap).mpr ⟨hfirst, htask⟩)
    have hfirst : ¬ FirstWith (WaitsFor ledger agentName) (packageIds ledger) taskId := by
      intro hfirst
      obtain ⟨other, hother, hwaits⟩ := firstWith_exists.mp ⟨taskId, hfirst⟩
      exact hnone other hother hwaits
    rw [or_iff_right hfirst, and_iff_right hnone]
    constructor
    · rintro ⟨task, htask, rfl⟩
      obtain ⟨row, hrow, rfl⟩ := Option.map_eq_some_iff.mp htask
      exact ((stuckScan_iff hcap).mp hrow).1
    · intro hstuck
      have hmem : taskId ∈ packageIds ledger := by
        obtain ⟨before, after, hsplit, -⟩ := hstuck
        simp [hsplit]
      obtain ⟨row, hrow⟩ := claimRow_isSome ["lease"] hmem
      obtain rfl := (claimTable ["lease"]).idOf_stateOf hrow
      refine ⟨row.claimed, ?_, rfl⟩
      rw [(stuckScan_iff hcap).mpr ⟨hstuck, hrow⟩]
      rfl

end scan

/-! ## What the cycle appends -/

theorem assignedReclaimMessage_fits {agentName leaseHolder : Bytes}
    (hagent : EscapeFits agentName (wtTaskAgentSize * 2))
    (hholder : EscapeFits leaseHolder (wtTaskAgentSize * 2)) :
    EscapeFits ((Claim.assigned agentName).reclaimMessage leaseHolder) 1024 := by
  refine escapeFits_snprintf ?_ 256
  have h1 : ((bytes "Auto-reclaim by wt-agent@").flatMap escapePiece).length = 25 := by decide
  have h2 : ((bytes " after lease expired (previous holder=").flatMap escapePiece).length = 38 := by
    decide
  have h3 : ((bytes ").").flatMap escapePiece).length = 2 := by decide
  have h4 : ((bytes "unknown").flatMap escapePiece).length = 7 := by decide
  unfold EscapeFits wtTaskAgentSize at *
  split <;> simp only [length_escape_append, h1, h2, h3, h4] <;> omega

section run

variable {config : WtConfig} {agentName : Bytes} {ledger : Ledger} {times : ClaimTimes}
  {work : WtTaskSummary → Ledger → Ledger}

/-- A lease event that was appended names its agent as the name reads back. -/
theorem leaseLine_assignedAgent {taskId : Bytes} {attempt expires now : Int} {ledger' : Ledger}
    (hattempt : Int64 attempt) (hexpires : Int64 expires) (hnow : Int64 now)
    (h : wtTaskAppendLeaseEvent ledger taskId agentName attempt expires now = some ledger') :
    ∃ line, ledger' = ledger ++ [line] ∧ isLeaseLine line ∧
      wtJsonReadString line "assignedAgent" wtTaskAgentSize =
        (FieldValue.text agentName).readString wtTaskAgentSize := by
  let event : StoreEvent :=
    .lease taskId agentName ⟨attempt, hattempt⟩ ⟨expires, hexpires⟩ ⟨now, hnow⟩
  have hline : ledger' = ledger ++ [fieldsLine event.fields] := append_lease rfl h
  have hread : ∀ {k : String} {value : FieldValue}, SearchKey k → event.field k = some value →
      ∀ size, wtJsonReadString (fieldsLine event.fields) k size = value.readString size := by
    intro k value hk hvalue size
    rw [readString_fields event.fieldNames hk, show fieldNamed event.fields k = some value from
      hvalue]
    rfl
  refine ⟨_, hline, ?_, hread ⟨by decide, by decide, by decide, by decide⟩ ?_ _⟩
  · have hschema := @hread "schema" (.text (bytes "woventeam.task_event.v0.1"))
      ⟨by decide, by decide, by decide, by decide⟩
      (by simp +decide [event, StoreEvent.field, fieldNamed, StoreEvent.fields]) 128
    have htype := @hread "eventType" (.text (bytes "lease"))
      ⟨by decide, by decide, by decide, by decide⟩
      (by simp +decide [event, StoreEvent.field, fieldNamed, StoreEvent.fields]) 32
    rw [isLeaseLine, lineHasSchema, hschema, htype]
    decide
  · simp +decide [event, StoreEvent.field, fieldNamed, StoreEvent.fields]

/-- A claim that leases appends one lease event, behind lines that are none. -/
theorem leaseTask_outcome (claim : Claim) (duration : Int) (task : WtTaskSummary) :
    (∃ granted lines line, claim.leaseTask duration ledger times task =
        (ledger ++ (lines ++ [line]), .leased granted) ∧ (∀ l ∈ lines, ¬ isLeaseLine l) ∧
        isLeaseLine line ∧ wtJsonReadString line "assignedAgent" wtTaskAgentSize =
          (FieldValue.text claim.agentName).readString wtTaskAgentSize) ∨
      (∀ granted, (claim.leaseTask duration ledger times task).2 ≠ .leased granted) ∧
        ¬ AppendsLease ledger (claim.leaseTask duration ledger times task).1 := by
  obtain ⟨-, hreclaim, hlease⟩ := times.range
  generalize hresult : claim.leaseTask duration ledger times task = result
  unfold Claim.leaseTask at hresult
  dsimp only at hresult
  split at hresult
  · subst hresult
    exact .inr ⟨by simp, not_appendsLease_self ledger⟩
  · rename_i released hrelease
    obtain ⟨lines, hlines, rfl⟩ := Claim.release_eq hreclaim hrelease
    split at hresult
    · subst hresult
      exact .inr ⟨by simp, hlines.not_appendsLease⟩
    · rename_i leased happend
      obtain ⟨line, rfl, hisLease, hagent⟩ :=
        leaseLine_assignedAgent (int64_toInt32 _) (int64_wrap64 _) hlease happend
      subst hresult
      exact .inl ⟨_, lines, line, by rw [List.append_assoc], hlines.not_isLeaseLine, hisLease,
        hagent⟩

/-- The cycle without a task it may lease. -/
theorem run_refused {claim : Claim} {duration : Int}
    (h : ∀ task, ¬ claim.Grants ledger (claim.nowUnixMs times.start) task) :
    ∀ granted, (claim.run duration ledger times).2 ≠ .leased granted := by
  unfold Claim.run
  dsimp only
  split
  · simp
  · rename_i task hfound
    split
    · simp
    · rename_i hcapable
      split
      · simp
      · rename_i hforeign
        exact absurd ⟨hfound, by simpa using hcapable, by simpa using hforeign⟩ (h task)

theorem handleAssignedTask_of_not_leased
    (h : ∀ granted,
      ((Claim.assigned agentName).run config.leaseDurationSeconds ledger times).2 ≠ .leased granted) :
    handleAssignedTask config agentName ledger times work =
      ((Claim.assigned agentName).run config.leaseDurationSeconds ledger times).1 := by
  unfold handleAssignedTask
  split
  · rename_i leased granted hrun
    exact absurd (by rw [hrun]) (h granted)
  · rename_i ledger' outcome hrun
    rw [hrun]

theorem AppendsLeaseFor.appendsLease {ledger' : Ledger}
    (h : AppendsLeaseFor agentName ledger ledger') : AppendsLease ledger ledger' := by
  obtain ⟨line, hline, hisLease, -⟩ := h
  exact ⟨line, hline, hisLease⟩

/-- **The cycle leases for its agent exactly where the scan grants a task whose records fit, and
the agent's name reads back.** -/
theorem handleAssignedTask_leases_iff (hwork : WorkAppends work) :
    AppendsLeaseFor agentName ledger (handleAssignedTask config agentName ledger times work) ↔
      ∃ task, (Claim.assigned agentName).Grants ledger
          ((Claim.assigned agentName).nowUnixMs times.start) task ∧
        (Claim.assigned agentName).Fits ledger ((Claim.assigned agentName).nowUnixMs times.start)
          task ∧
        (FieldValue.text agentName).readString wtTaskAgentSize = .ok agentName := by
  by_cases hgrants : ∃ task, (Claim.assigned agentName).Grants ledger
      ((Claim.assigned agentName).nowUnixMs times.start) task
  swap
  · have hnone := fun task htask => hgrants ⟨task, htask⟩
    rw [handleAssignedTask_of_not_leased (run_refused hnone), Claim.run_of_not_grants hnone]
    exact iff_of_false (fun h => not_appendsLease_self ledger h.appendsLease)
      fun ⟨task, htask, _⟩ => hnone task htask
  obtain ⟨task, htask⟩ := hgrants
  have hrun : (Claim.assigned agentName).run config.leaseDurationSeconds ledger times = _ :=
    Claim.run_of_grants htask
  have hfits : AppendsLease ledger ((Claim.assigned agentName).leaseTask
        config.leaseDurationSeconds ledger times task).1 ↔ _ :=
    Claim.leaseTask_appendsLease_iff fun _ hagent hholder =>
      assignedReclaimMessage_fits hagent hholder
  rcases leaseTask_outcome (Claim.assigned agentName) config.leaseDurationSeconds task with
    ⟨granted, lines, line, hleased, hlines, hisLease, hagent⟩ | ⟨hno, hnoLease⟩
  · obtain ⟨worked, hworked, hworkLines⟩ := hwork granted.task (ledger ++ (lines ++ [line]))
    have hledger : handleAssignedTask config agentName ledger times work =
        ledger ++ (lines ++ line :: worked) := by
      unfold handleAssignedTask
      rw [hrun, hleased]
      simpa using hworked
    have hleases : AppendsLease ledger ((Claim.assigned agentName).leaseTask
        config.leaseDurationSeconds ledger times task).1 := by
      rw [hleased, AppendsLease, List.drop_left]
      exact ⟨line, by simp, hisLease⟩
    have honly : AppendsLeaseFor agentName ledger (ledger ++ (lines ++ line :: worked)) ↔
        wtJsonReadString line "assignedAgent" wtTaskAgentSize = .ok agentName := by
      rw [AppendsLeaseFor, List.drop_left]
      constructor
      · rintro ⟨other, hother, hotherLease, hread⟩
        simp only [List.mem_append, List.mem_cons] at hother
        rcases hother with hother | rfl | hother
        · exact absurd hotherLease (hlines other hother)
        · exact hread
        · exact absurd hotherLease (hworkLines other hother)
      · exact fun hread => ⟨line, by simp, hisLease, hread⟩
    rw [hledger, honly, hagent]
    refine ⟨fun hread => ⟨task, htask, hfits.mp hleases, hread⟩, ?_⟩
    rintro ⟨-, -, -, hread⟩
    exact hread
  · rw [handleAssignedTask_of_not_leased (by rw [hrun]; exact hno), hrun]
    refine iff_of_false (fun h => hnoLease h.appendsLease) ?_
    rintro ⟨task', htask', hfits', -⟩
    rw [← htask.unique htask'] at hfits'
    exact hnoLease (hfits.mpr hfits')

end run

/-! ### A rerouted task another agent holds -/

def claudePackage (taskId : Literal) : Bytes := recordLine (packageRecord taskId (.ofPlain "claude"))

/-- Gemini leased `t1` until 2000000, and the task was given back to claude; `t2` waits. -/
def blockedLedger : Ledger :=
  [claudePackage (.ofPlain "t1"),
    recordLine (leaseRecord (.ofPlain "t1") (.ofPlain "gemini") (.ofPlain "") 1 2000000 900000),
    fieldsLine [("schema", .text (bytes "woventeam.task_event.v0.1")),
      ("taskId", .text (bytes "t1")), ("eventType", .text (bytes "routing")),
      ("status", .text (bytes "assigned")), ("assignedAgent", .text (bytes "claude"))],
    claudePackage (.ofPlain "t2")]

def noonTimes : ClaimTimes := ⟨1000000, 1000000, 1000000, by decide⟩

theorem workAppends_nothing : WorkAppends fun _ ledger => ledger :=
  fun _ ledger => ⟨[], (List.append_nil ledger).symm, by simp⟩

end WovenTeam

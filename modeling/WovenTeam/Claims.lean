import WovenTeam.Claimers
import WovenTeam.Config
import WovenTeam.Roomd.Http

/-!
# Claims one at a time

`handleAssignedTask` of the agent and `handlePostRemoteClaim` of the daemon, each run from its
first read of the ledger to its last append with nothing in between. `Claim.run` is the part they
share.

Only the local agent asks whether the operator paused it, so a paused agent takes no work exactly
when the remote path turns it away for another reason (`paused_takesNoLease_iff`).
-/

namespace WovenTeam

open CText QuotedText FirstSeen

/-! ## The two functions -/

/-- What the clock says at the start of a claim and at its two appends. -/
structure ClaimTimes where
  start : Int
  reclaim : Int
  lease : Int
  range : Int64 start ∧ Int64 reclaim ∧ Int64 lease

/-- A lease that a claim appended. -/
structure Granted where
  task : WtTaskSummary
  attempt : Int
  leaseExpiresAtUnixMs : Int

inductive ClaimOutcome where
  | noTask
  | capabilityUnmet
  | foreignLease
  | reclaimFailed
  | leaseFailed
  | leased (granted : Granted)

/-- The lookup holds a lease that another agent may still use. -/
def LeaseScan.foreign (lease : LeaseScan) (agentName : Bytes) (nowUnixMs : Int) : Bool :=
  lease.active && decide (lease.leaseExpiresAtUnixMs > nowUnixMs) && lease.leaseHolder != agentName

/-- The lookup holds a lease that nobody gave back. -/
def LeaseScan.stale (lease : LeaseScan) (nowUnixMs : Int) : Bool :=
  lease.active && decide (lease.leaseExpiresAtUnixMs ≤ nowUnixMs)

/-- The reclaim of a stale lease, in front of the claimer's own. -/
def Claim.release (claim : Claim) (ledger : Ledger) (task : WtTaskSummary) (lease : LeaseScan)
    (nowUnixMs now : Int) : Option Ledger :=
  if lease.stale nowUnixMs then
    wtTaskAppendReclaimEvent ledger task.taskId lease.leaseHolder claim.agentName
      (bytes "lease_expired") (claim.reclaimMessage lease.leaseHolder) now
  else some ledger

/-- The two appends of a claim. -/
def Claim.leaseTask (claim : Claim) (leaseDurationSeconds : Int) (ledger : Ledger)
    (times : ClaimTimes) (task : WtTaskSummary) : Ledger × ClaimOutcome :=
  let nowUnixMs := claim.nowUnixMs times.start
  let lease := wtTaskFindActiveLease ledger task.taskId
  match claim.release ledger task lease nowUnixMs times.reclaim with
  | none => (ledger, .reclaimFailed)
  | some released =>
    let attempt := toInt32 (lease.attempt + 1)
    let expires := leaseExpiry nowUnixMs leaseDurationSeconds
    match wtTaskAppendLeaseEvent released task.taskId claim.agentName attempt expires
        times.lease with
    | none => (released, .leaseFailed)
    | some leased => (leased, .leased ⟨task, attempt, expires⟩)

/-- A claim from its scan to its lease. -/
def Claim.run (claim : Claim) (leaseDurationSeconds : Int) (ledger : Ledger) (times : ClaimTimes) :
    Ledger × ClaimOutcome :=
  let nowUnixMs := claim.nowUnixMs times.start
  match claim.find ledger nowUnixMs with
  | none => (ledger, .noTask)
  | some task =>
    if !claim.capable ledger task then (ledger, .capabilityUnmet)
    else if (wtTaskFindActiveLease ledger task.taskId).foreign claim.agentName nowUnixMs then
      (ledger, .foreignLease)
    else claim.leaseTask leaseDurationSeconds ledger times task

/-- `work` is what the agent does with the task it leased. -/
def handleAssignedTask (config : WtConfig) (agentName : Bytes) (ledger : Ledger)
    (times : ClaimTimes) (work : WtTaskSummary → Ledger → Ledger) : Ledger :=
  match (Claim.assigned agentName).run config.leaseDurationSeconds ledger times with
  | (ledger, .leased granted) => work granted.task ledger
  | (ledger, _) => ledger

/-- The body of a request with a token; empty where there is none. -/
def bearerBody (request : Bytes) : Bytes := (requestBody request).getD []

/-- The agent and the host a remote claim names. -/
def remoteClaimant (request : Bytes) : Option (Bytes × Bytes) :=
  match wtJsonReadString (bearerBody request) "agent" wtTaskAgentSize,
      wtJsonReadString (bearerBody request) "host" wtTaskAgentSize with
  | .ok agent, .ok host => some (agent, host)
  | _, _ => none

def notClaimed (reason : String) : HttpReply :=
  okReply (bytes "\x7b\"ok\":true,\"claimed\":false,\"reason\":\"" ++ bytes reason ++
    bytes "\"\x7d\n")

def claimedReply (agent host : Bytes) (granted : Granted) : HttpReply :=
  okReply (snprintf (wtTaskBodySize * 2 + wtTaskTitleSize * 2 + 1024)
    (bytes "\x7b\"ok\":true,\"claimed\":true,\"taskId\":\"" ++ granted.task.taskId ++
    bytes "\",\"assignedAgent\":\"" ++ agent ++ bytes "\",\"executionHost\":\"" ++ host ++
    bytes "\",\"title\":\"" ++ escapedOr granted.task.title (wtTaskTitleSize * 2) ++
    bytes "\",\"body\":\"" ++ escapedOr granted.task.body (wtTaskBodySize * 2) ++
    bytes "\",\"profile\":\"" ++ escapedOr granted.task.toolProfile (wtTaskPolicySize * 2) ++
    bytes "\",\"attempt\":" ++ decimal granted.attempt ++
    bytes ",\"leaseExpiresAtUnixMs\":" ++ decimal granted.leaseExpiresAtUnixMs ++
    bytes "\x7d\n"))

def ClaimOutcome.reply (agent host : Bytes) : ClaimOutcome → HttpReply
  | .noTask => notClaimed "no_task"
  | .capabilityUnmet =>
    { okReply (bytes
        "\x7b\"ok\":false,\"error\":\"capability_unmet\",\"reason\":\"capability_unmet\"\x7d\n") with
      status := 409
      reason := "Conflict" }
  | .foreignLease => notClaimed "foreign_lease"
  | .reclaimFailed => errorReply 500 "Internal Server Error" "reclaim_failed"
  | .leaseFailed => errorReply 500 "Internal Server Error" "lease_failed"
  | .leased granted => claimedReply agent host granted

def handlePostRemoteClaim (config : WtConfig) (ledger : Ledger) (request : Bytes)
    (auth : WtAuthContext) (times : ClaimTimes) : Ledger × HttpReply :=
  match remoteClaimant request with
  | none => (ledger, errorReply 400 "Bad Request" "agent_host_required")
  | some (agent, host) =>
    if auth.mismatches [agent, host] then
      (ledger, errorReply 403 "Forbidden" "subject_mismatch")
    else
      let claimed := (Claim.remote agent host).run config.leaseDurationSeconds ledger times
      (claimed.1, claimed.2.reply agent host)

/-! ## The pause switch -/

/-- A control record of the operator. -/
inductive AgentControl where
  | pause
  | resume
  deriving DecidableEq, Repr

/-- The control a line records for the agent. -/
def agentControl (agentName line : Bytes) : Option AgentControl :=
  if lineHasSchema line "woventeam.agent_control.v0.1" &&
      wtJsonReadString line "agent" wtTaskAgentSize == .ok agentName then
    if wtJsonReadString line "action" 32 = .ok (bytes "pause") then some .pause
    else if wtJsonReadString line "action" 32 = .ok (bytes "resume") then some .resume
    else none
  else none

/-- The operator's last control record for the agent. -/
def lastControl (ledger : Ledger) (agentName : Bytes) : Option AgentControl :=
  lastOf (agentControl agentName) ledger

theorem wtTaskAgentPaused_iff {ledger : Ledger} {agentName : Bytes} :
    wtTaskAgentPaused ledger agentName ↔ lastControl ledger agentName = some .pause := by
  induction ledger using List.reverseRecOn with
  | nil => simp [wtTaskAgentPaused, lastControl, lastOf]
  | append_singleton ledger line ih =>
    rw [lastControl, lastOf_append, lastOf_cons_of_none (by simp), agentControl, ← lastControl]
    simp only [wtTaskAgentPaused, List.foldl_append, List.foldl_cons, List.foldl_nil] at ih ⊢
    split
    · cases haction : wtJsonReadString line "action" 32 with
      | absent => simpa using ih
      | cut written => simpa using ih
      | ok action =>
        by_cases hpause : action = bytes "pause"
        · simp [hpause]
        · by_cases hresume : action = bytes "resume"
          · simp [hresume, show bytes "resume" ≠ bytes "pause" by decide]
          · simpa [hpause, hresume] using ih
    · simpa using ih

def agentControlRecord (escapedAgent escapedAction escapedMessage escapedBy : Literal)
    (now : Int) : Members :=
  str "schema" (.ofPlain "woventeam.agent_control.v0.1") ++ str "agent" escapedAgent ++
  str "action" escapedAction ++ str "message" escapedMessage ++ str "createdBy" escapedBy ++
  num "createdAtUnixMs" now "\x7d"

def isKnownAgent (agent : Bytes) : Bool :=
  agent == bytes "claude" || agent == bytes "chatgpt" || agent == bytes "gemini"

def AgentControl.text : AgentControl → Bytes
  | .pause => bytes "pause"
  | .resume => bytes "resume"

/-- The agent and the action a control request names, where they are among the known ones. -/
def readAgentControl (body : Bytes) : Except String (Bytes × AgentControl) :=
  match wtJsonReadString body "agent" wtTaskAgentSize, wtJsonReadString body "action" 32 with
  | .ok agent, .ok action =>
    let control : Option AgentControl :=
      if action = bytes "pause" then some .pause
      else if action = bytes "resume" then some .resume
      else none
    match control with
    | some control => if isKnownAgent agent then .ok (agent, control) else .error "unknown agent"
    | none => .error "invalid agent control"
  | _, _ => .error "invalid agent control"

/-- The printed control record, where its arguments fit. -/
def controlRecord (body agent : Bytes) (control : AgentControl) (now : Int) : Option Members := do
  let message := (wtJsonReadString body "message" wtTaskTitleSize).orElse
    (match control with
      | .pause => bytes "Agent paused by operator."
      | .resume => bytes "Agent resumed by operator.")
  let createdBy := (wtJsonReadString body "createdBy" wtTaskAgentSize).orElse (bytes "ceo")
  let escapedAgent ← wtJsonEscape agent (wtTaskAgentSize * 2)
  let escapedAction ← wtJsonEscape control.text 64
  let escapedMessage ← wtJsonEscape message (wtTaskTitleSize * 2)
  let escapedBy ← wtJsonEscape createdBy (wtTaskAgentSize * 2)
  return agentControlRecord escapedAgent escapedAction escapedMessage escapedBy now

def handlePostAgentControl (ledger : Ledger) (request : Bytes) (now : Int) : Ledger × HttpReply :=
  match requestBody request with
  | none => (ledger, noBody)
  | some body =>
    match readAgentControl body with
    | .error error => (ledger, badRequest error)
    | .ok (agent, control) =>
      match controlRecord body agent control now with
      | none => (ledger, badRequest "agent control too large")
      | some record =>
        (wtTaskAppendRecord ledger (printRecord wtTaskLedgerLineSize record),
          okReply (snprintf 512 (bytes "\x7b\"ok\":true,\"agent\":\"" ++ agent ++
            bytes "\",\"action\":\"" ++ control.text ++ bytes "\"\x7d\n")))

theorem agentControlRecord_fits {a b c d : Literal} {now : Int}
    (ha : a.text.length < wtTaskAgentSize * 2) (hb : b.text.length < 64)
    (hc : c.text.length < wtTaskTitleSize * 2) (hd : d.text.length < wtTaskAgentSize * 2)
    (h : Int64 now) : (agentControlRecord a b c d now).object.length + 2 ≤ wtTaskLedgerLineSize := by
  have := length_decimal h
  simp only [wtTaskAgentSize, wtTaskTitleSize, wtTaskLedgerLineSize] at *
  unfold agentControlRecord str num Literal.ofPlain
  simp [Members.length_object, render, Item.render]
  omega

/-- What the pause switch makes of the record of a control request. -/
theorem agentControl_record {agent : Bytes} {control : AgentControl} {a b c d : Literal} {now : Int}
    (ha : unescape a.text = agent) (hb : unescape b.text = control.text)
    (hlen : agent.length < wtTaskAgentSize) :
    agentControl agent (recordLine (agentControlRecord a b c d now)) = some control := by
  have hschema : wtJsonReadString (recordLine (agentControlRecord a b c d now)) "schema" 128 =
      .ok (bytes "woventeam.agent_control.v0.1") :=
    wtJsonReadString_object (.of_check rfl) quote_notMem_newline
      (v := .ofPlain "woventeam.agent_control.v0.1") rfl (by decide)
  have hagent : wtJsonReadString (recordLine (agentControlRecord a b c d now)) "agent"
      wtTaskAgentSize = .ok (unescape a.text) :=
    wtJsonReadString_object (.of_check rfl) quote_notMem_newline (v := a) rfl (by rwa [ha])
  have haction : wtJsonReadString (recordLine (agentControlRecord a b c d now)) "action" 32 =
      .ok (unescape b.text) :=
    wtJsonReadString_object (.of_check rfl) quote_notMem_newline (v := b) rfl
      (by rw [hb]; cases control <;> decide)
  simp only [agentControl, lineHasSchema, hschema, hagent, haction, ha, hb, beq_self_eq_true,
    Bool.and_self, ↓reduceIte]
  cases control <;> decide

theorem reread_isKnownAgent {agent : Bytes} (h : isKnownAgent agent) :
    reread agent = agent ∧ agent.length < wtTaskAgentSize := by
  simp only [isKnownAgent, Bool.or_eq_true, beq_iff_eq] at h
  rcases h with (rfl | rfl) | rfl <;> decide

/-- **A control request that is accepted for an agent sets that agent's switch.** -/
theorem lastControl_accepted {ledger : Ledger} {request : Bytes} {now : Int} (hnow : Int64 now)
    (h : (handlePostAgentControl ledger request now).2.accepted) :
    ∃ body agent control, requestBody request = some body ∧
      readAgentControl body = .ok (agent, control) ∧
      lastControl (handlePostAgentControl ledger request now).1 agent = some control := by
  unfold handlePostAgentControl at *
  split at h
  · exact absurd h (show (400 : Nat) ≠ 200 by decide)
  · rename_i body hbody
    split at h
    · exact absurd h (show (400 : Nat) ≠ 200 by decide)
    · rename_i agent control hread
      split at h
      · exact absurd h (show (400 : Nat) ≠ 200 by decide)
      · rename_i record hrecord
        refine ⟨body, agent, control, hbody, hread, ?_⟩
        simp only [controlRecord, Option.bind_eq_bind, Option.bind_eq_some_iff, Option.pure_def,
          Option.some.injEq] at hrecord
        obtain ⟨a, ha, b, hb, c, hc, d, hd, rfl⟩ := hrecord
        have hfits := agentControlRecord_fits (wtJsonEscape_eq ha).2 (wtJsonEscape_eq hb).2
          (wtJsonEscape_eq hc).2 (wtJsonEscape_eq hd).2 hnow
        have hknown : isKnownAgent agent := by
          unfold readAgentControl at hread
          split at hread
          · dsimp only at hread
            split at hread
            · split at hread
              · rename_i hknown
                cases hread
                exact hknown
              · cases hread
            · cases hread
          · cases hread
        obtain ⟨hreread, hlen⟩ := reread_isKnownAgent hknown
        have haction : reread control.text = control.text := by cases control <;> decide
        dsimp only
        rw [printRecord_of_fits (by omega), wtTaskAppendRecord_object _ hfits, lastControl,
          lastOf_append, lastOf_cons_of_none (by simp),
          agentControl_record ((wtJsonEscape_eq ha).1.trans hreread)
            ((wtJsonEscape_eq hb).1.trans haction) hlen]
        rfl

/-! ## What a claim appends -/

/-- A lease event, of whatever task. -/
def isLeaseLine (line : Bytes) : Bool :=
  lineHasSchema line taskEventSchema && wtJsonReadString line "eventType" 32 == .ok (bytes "lease")

/-- A lease event stands behind the old ledger. -/
def AppendsLease (ledger ledger' : Ledger) : Prop :=
  ∃ line ∈ ledger'.drop ledger.length, isLeaseLine line

/-- The scan finds the task, the host may run it, and no other agent has it. -/
structure Claim.Grants (claim : Claim) (ledger : Ledger) (nowUnixMs : Int)
    (task : WtTaskSummary) : Prop where
  found : claim.find ledger nowUnixMs = some task
  capable : claim.capable ledger task
  free : (wtTaskFindActiveLease ledger task.taskId).foreign claim.agentName nowUnixMs = false

/-- The task's id and the names that stand in the records fit their buffers. -/
structure Claim.Fits (claim : Claim) (ledger : Ledger) (nowUnixMs : Int)
    (task : WtTaskSummary) : Prop where
  taskId : EscapeFits task.taskId (wtTaskIdSize * 2)
  agentName : EscapeFits claim.agentName (wtTaskAgentSize * 2)
  holder : (wtTaskFindActiveLease ledger task.taskId).stale nowUnixMs →
    EscapeFits (wtTaskFindActiveLease ledger task.taskId).leaseHolder (wtTaskAgentSize * 2)

theorem leaseMessage_fits {agentName : Bytes} {attempt : Int}
    (h : EscapeFits agentName (wtTaskAgentSize * 2)) (hattempt : Int64 attempt) :
    EscapeFits (snprintf 256 (bytes "Task leased by wt-agent@" ++ agentName ++
      bytes " attempt " ++ decimal attempt ++ bytes ".")) 512 := by
  refine escapeFits_snprintf ?_ 256
  have := length_decimal hattempt
  have := length_escape_le (decimal attempt)
  have h1 : ((bytes "Task leased by wt-agent@").flatMap escapePiece).length = 24 := by decide
  have h2 : ((bytes " attempt ").flatMap escapePiece).length = 9 := by decide
  have h3 : ((bytes ".").flatMap escapePiece).length = 1 := by decide
  unfold EscapeFits wtTaskAgentSize at *
  simp only [length_escape_append, h1, h2, h3]
  omega

theorem wtTaskAppendLeaseEvent_iff {ledger : Ledger} {taskId agentName : Bytes}
    {attempt expires now : Int} (hattempt : Int64 attempt) :
    (wtTaskAppendLeaseEvent ledger taskId agentName attempt expires now).isSome ↔
      EscapeFits taskId (wtTaskIdSize * 2) ∧ EscapeFits agentName (wtTaskAgentSize * 2) := by
  constructor
  · intro h
    obtain ⟨ledger', h⟩ := Option.isSome_iff_exists.mp h
    simp only [wtTaskAppendLeaseEvent, Option.pure_def, Option.bind_eq_bind,
      Option.bind_eq_some_iff] at h
    obtain ⟨a, ha, b, hb, -⟩ := h
    exact ⟨escapeFits_of_escape ha, escapeFits_of_escape hb⟩
  · rintro ⟨hid, hagent⟩
    obtain ⟨a, ha⟩ := wtJsonEscape_of_fits hid
    obtain ⟨b, hb⟩ := wtJsonEscape_of_fits hagent
    obtain ⟨c, hc⟩ := wtJsonEscape_of_fits (leaseMessage_fits hagent hattempt)
    simp only [wtTaskAppendLeaseEvent, ha, hb, hc, Option.bind_eq_bind, Option.bind_some,
      Option.pure_def, Option.isSome_some]

theorem remoteReclaimMessage_fits {agentName host leaseHolder : Bytes}
    (hagent : EscapeFits agentName (wtTaskAgentSize * 2)) (hhost : host.length < wtTaskAgentSize) :
    EscapeFits ((Claim.remote agentName host).reclaimMessage leaseHolder) 1024 := by
  refine escapeFits_snprintf ?_ 256
  have := length_escape_le host
  have h1 : ((bytes "Remote auto-reclaim by wt-agent@").flatMap escapePiece).length = 32 := by
    decide
  have h2 : ((bytes " on ").flatMap escapePiece).length = 4 := by decide
  have h3 : ((bytes " after lease expired.").flatMap escapePiece).length = 21 := by decide
  unfold EscapeFits wtTaskAgentSize at *
  simp only [length_escape_append, h1, h2, h3]
  omega

/-- The reclaim of a stale lease fails where its holder's name does not fit. -/
theorem Claim.release_iff {claim : Claim} {ledger : Ledger} {task : WtTaskSummary}
    {lease : LeaseScan} {nowUnixMs now : Int} (hid : EscapeFits task.taskId (wtTaskIdSize * 2))
    (hagent : EscapeFits claim.agentName (wtTaskAgentSize * 2))
    (hmessage : EscapeFits lease.leaseHolder (wtTaskAgentSize * 2) →
      EscapeFits (claim.reclaimMessage lease.leaseHolder) 1024) :
    (claim.release ledger task lease nowUnixMs now).isSome ↔
      (lease.stale nowUnixMs → EscapeFits lease.leaseHolder (wtTaskAgentSize * 2)) := by
  unfold Claim.release
  split
  · rename_i hstale
    constructor
    · intro h _
      obtain ⟨released, h⟩ := Option.isSome_iff_exists.mp h
      simp only [wtTaskAppendReclaimEvent, Option.pure_def, Option.bind_eq_bind,
        Option.bind_eq_some_iff] at h
      obtain ⟨a, -, b, hb, -⟩ := h
      exact escapeFits_of_escape hb
    · intro hholder
      obtain ⟨a, ha⟩ := wtJsonEscape_of_fits hid
      obtain ⟨b, hb⟩ := wtJsonEscape_of_fits (hholder hstale)
      obtain ⟨c, hc⟩ := wtJsonEscape_of_fits hagent
      obtain ⟨d, hd⟩ := wtJsonEscape_of_fits (show EscapeFits (bytes "lease_expired") 64 by decide)
      obtain ⟨e, he⟩ := wtJsonEscape_of_fits (hmessage (hholder hstale))
      simp only [wtTaskAppendReclaimEvent, ha, hb, hc, hd, he, Option.bind_eq_bind,
        Option.bind_some, Option.pure_def, Option.isSome_some]
  · rename_i hstale
    simp [hstale]

/-- The lines a released lease leaves. -/
def ReclaimLines (task : WtTaskSummary) (lease : LeaseScan) (nowUnixMs now : Int)
    (lines : Ledger) : Prop :=
  if lease.stale nowUnixMs then
    ∃ a b c d e : Literal, unescape a.text = reread task.taskId ∧
      lines = [recordLine (reclaimRecord a b c d e now)]
  else lines = []

theorem Claim.release_eq {claim : Claim} {ledger released : Ledger} {task : WtTaskSummary}
    {lease : LeaseScan} {nowUnixMs now : Int} (hnow : Int64 now)
    (h : claim.release ledger task lease nowUnixMs now = some released) :
    ∃ lines, ReclaimLines task lease nowUnixMs now lines ∧ released = ledger ++ lines := by
  unfold Claim.release at h
  unfold ReclaimLines
  split
  · rename_i hstale
    rw [if_pos hstale] at h
    obtain ⟨a, b, c, d, e, ha, -, hledger⟩ := wtTaskAppendReclaimEvent_eq hnow h
    exact ⟨_, ⟨a, b, c, d, e, ha, rfl⟩, hledger⟩
  · rename_i hstale
    rw [if_neg hstale] at h
    exact ⟨[], rfl, by simpa using (Option.some.inj h).symm⟩

theorem isLeaseLine_lease {a b c : Literal} {attempt expires now : Int} :
    isLeaseLine (recordLine (leaseRecord a b c attempt expires now)) := by
  have hschema : wtJsonReadString (recordLine (leaseRecord a b c attempt expires now)) "schema" 128 =
      .ok (bytes "woventeam.task_event.v0.1") :=
    wtJsonReadString_object (.of_check rfl) quote_notMem_newline
      (v := .ofPlain "woventeam.task_event.v0.1") rfl (by decide)
  have htype : wtJsonReadString (recordLine (leaseRecord a b c attempt expires now)) "eventType" 32 =
      .ok (bytes "lease") :=
    wtJsonReadString_object (.of_check rfl) quote_notMem_newline (v := .ofPlain "lease") rfl (by decide)
  simp [isLeaseLine, lineHasSchema, hschema, htype, taskEventSchema]

theorem ReclaimLines.not_isLeaseLine {task : WtTaskSummary} {lease : LeaseScan}
    {nowUnixMs now : Int} {lines : Ledger} (h : ReclaimLines task lease nowUnixMs now lines) :
    ∀ line ∈ lines, ¬ isLeaseLine line := by
  unfold ReclaimLines at h
  split at h
  · obtain ⟨a, b, c, d, e, -, rfl⟩ := h
    intro line hline
    rw [List.mem_singleton.mp hline, isLeaseLine, reclaimRecord_eventType]
    simp [show bytes "reclaim" ≠ bytes "lease" by decide]
  · simp [h]

theorem Claim.run_of_grants {claim : Claim} {duration : Int} {ledger : Ledger} {times : ClaimTimes}
    {task : WtTaskSummary} (h : claim.Grants ledger (claim.nowUnixMs times.start) task) :
    claim.run duration ledger times = claim.leaseTask duration ledger times task := by
  simp [Claim.run, h.found, h.capable, h.free]

/-- A claim that grants no task leaves the ledger alone. -/
theorem Claim.run_of_not_grants {claim : Claim} {duration : Int} {ledger : Ledger}
    {times : ClaimTimes} (h : ∀ task, ¬ claim.Grants ledger (claim.nowUnixMs times.start) task) :
    (claim.run duration ledger times).1 = ledger := by
  unfold Claim.run
  dsimp only
  split
  · rfl
  · rename_i task hfound
    split
    · rfl
    · rename_i hcapable
      split
      · rfl
      · rename_i hforeign
        exact absurd ⟨hfound, by simpa using hcapable, by simpa using hforeign⟩ (h task)

theorem not_appendsLease_self (ledger : Ledger) : ¬ AppendsLease ledger ledger := by
  simp [AppendsLease]

theorem ReclaimLines.not_appendsLease {ledger : Ledger} {task : WtTaskSummary} {lease : LeaseScan}
    {nowUnixMs now : Int} {lines : Ledger} (h : ReclaimLines task lease nowUnixMs now lines) :
    ¬ AppendsLease ledger (ledger ++ lines) := by
  rintro ⟨line, hline, hisLease⟩
  rw [List.drop_left] at hline
  exact h.not_isLeaseLine line hline hisLease

theorem Claim.Grants.unique {claim : Claim} {ledger : Ledger} {nowUnixMs : Int}
    {task task' : WtTaskSummary} (h : claim.Grants ledger nowUnixMs task)
    (h' : claim.Grants ledger nowUnixMs task') : task = task' :=
  Option.some.inj (h.found.symm.trans h'.found)

section leaseTask

variable {claim : Claim} {duration : Int} {ledger : Ledger} {times : ClaimTimes}
  {task : WtTaskSummary}

/-- The ledger of a leased task: behind the reclaim of a stale lease, the lease. -/
def LeasedLedger (claim : Claim) (duration : Int) (ledger : Ledger) (times : ClaimTimes)
    (task : WtTaskSummary) (ledger' : Ledger) : Prop :=
  ∃ released, ∃ a b c : Literal,
    ReclaimLines task (wtTaskFindActiveLease ledger task.taskId) (claim.nowUnixMs times.start)
      times.reclaim released ∧
    unescape a.text = reread task.taskId ∧
    ledger' = ledger ++ (released ++ [recordLine
      (leaseRecord a b c (toInt32 ((wtTaskFindActiveLease ledger task.taskId).attempt + 1))
        (leaseExpiry (claim.nowUnixMs times.start) duration) times.lease)])

theorem LeasedLedger.appendsLease {ledger' : Ledger}
    (h : LeasedLedger claim duration ledger times task ledger') : AppendsLease ledger ledger' := by
  obtain ⟨released, a, b, c, -, -, rfl⟩ := h
  rw [AppendsLease, List.drop_left]
  exact ⟨_, List.mem_append_right _ (List.mem_singleton_self _), isLeaseLine_lease⟩

theorem Claim.leaseTask_leased {released : Ledger}
    (hrelease : claim.release ledger task (wtTaskFindActiveLease ledger task.taskId)
      (claim.nowUnixMs times.start) times.reclaim = some released)
    (happend : (wtTaskAppendLeaseEvent released task.taskId claim.agentName
      (toInt32 ((wtTaskFindActiveLease ledger task.taskId).attempt + 1))
      (leaseExpiry (claim.nowUnixMs times.start) duration) times.lease).isSome) :
    LeasedLedger claim duration ledger times task (claim.leaseTask duration ledger times task).1 := by
  obtain ⟨-, hreclaim, hlease⟩ := times.range
  obtain ⟨leased, happend⟩ := Option.isSome_iff_exists.mp happend
  obtain ⟨lines, hlines, rfl⟩ := Claim.release_eq hreclaim hrelease
  unfold Claim.leaseTask
  simp only [hrelease, happend]
  obtain ⟨a, b, c, ha, rfl⟩ := wtTaskAppendLeaseEvent_eq (int64_toInt32 _) (int64_wrap64 _) hlease
    happend
  refine ⟨lines, a, b, c, hlines, ha, ?_⟩
  rw [List.append_assoc]
  rfl

/-- A claim that cannot append both its records appends no lease. -/
theorem Claim.leaseTask_cases :
    (∃ released, claim.release ledger task (wtTaskFindActiveLease ledger task.taskId)
          (claim.nowUnixMs times.start) times.reclaim = some released ∧
        (wtTaskAppendLeaseEvent released task.taskId claim.agentName
          (toInt32 ((wtTaskFindActiveLease ledger task.taskId).attempt + 1))
          (leaseExpiry (claim.nowUnixMs times.start) duration) times.lease).isSome) ∨
      ¬ AppendsLease ledger (claim.leaseTask duration ledger times task).1 := by
  obtain ⟨-, hreclaim, -⟩ := times.range
  generalize hresult : claim.leaseTask duration ledger times task = result
  unfold Claim.leaseTask at hresult
  dsimp only at hresult
  split at hresult
  · exact .inr (hresult ▸ not_appendsLease_self ledger)
  · rename_i released hrelease
    split at hresult
    · obtain ⟨lines, hlines, rfl⟩ := Claim.release_eq hreclaim hrelease
      exact .inr (hresult ▸ hlines.not_appendsLease)
    · rename_i leased happend
      exact .inl ⟨released, hrelease, Option.isSome_of_eq_some happend⟩

/-- A granted task is leased exactly when its records fit. -/
theorem Claim.leaseTask_appendsLease_iff
    (hmessage : ∀ leaseHolder, EscapeFits claim.agentName (wtTaskAgentSize * 2) →
      EscapeFits leaseHolder (wtTaskAgentSize * 2) →
        EscapeFits (claim.reclaimMessage leaseHolder) 1024) :
    AppendsLease ledger (claim.leaseTask duration ledger times task).1 ↔
      claim.Fits ledger (claim.nowUnixMs times.start) task := by
  constructor
  · intro h
    rcases Claim.leaseTask_cases with ⟨released, hrelease, hlease⟩ | hno
    · obtain ⟨hid, hagent⟩ := (wtTaskAppendLeaseEvent_iff (int64_toInt32 _)).mp hlease
      exact ⟨hid, hagent,
        (Claim.release_iff hid hagent (hmessage _ hagent)).mp (Option.isSome_of_eq_some hrelease)⟩
    · exact absurd h hno
  · rintro ⟨hid, hagent, hholder⟩
    obtain ⟨released, hrelease⟩ := Option.isSome_iff_exists.mp
      ((Claim.release_iff hid hagent (hmessage _ hagent)).mpr hholder)
    exact (Claim.leaseTask_leased hrelease
      ((wtTaskAppendLeaseEvent_iff (int64_toInt32 _)).mpr ⟨hid, hagent⟩)).appendsLease

/-- **What a claim does to the ledger: it leases the one task it grants, or appends no lease.** -/
theorem Claim.run_cases (claim : Claim) (duration : Int) (ledger : Ledger) (times : ClaimTimes) :
    (∃ task, claim.Grants ledger (claim.nowUnixMs times.start) task ∧
        LeasedLedger claim duration ledger times task (claim.run duration ledger times).1) ∨
      ¬ AppendsLease ledger (claim.run duration ledger times).1 := by
  by_cases hgrants : ∃ task, claim.Grants ledger (claim.nowUnixMs times.start) task
  · obtain ⟨task, htask⟩ := hgrants
    rw [Claim.run_of_grants htask]
    rcases Claim.leaseTask_cases with ⟨released, hrelease, happend⟩ | hno
    · exact .inl ⟨task, htask, Claim.leaseTask_leased hrelease happend⟩
    · exact .inr hno
  · rw [Claim.run_of_not_grants fun task htask => hgrants ⟨task, htask⟩]
    exact .inr (not_appendsLease_self ledger)

end leaseTask

/-! ## A paused agent -/

/-- The remote path turns the claim away: the token is another's, or there is no task the scan
finds, the host may run and no other agent holds, or its records would not fit. -/
def RemoteRefuses (ledger : Ledger) (agent host : Bytes) (auth : WtAuthContext)
    (nowUnixMs : Int) : Prop :=
  auth.mismatches [agent, host] ∨
    ∀ task, (Claim.remote agent host).Grants ledger nowUnixMs task →
      ¬ (Claim.remote agent host).Fits ledger nowUnixMs task

section paused

variable {config : WtConfig} {ledger : Ledger} {request agent host : Bytes} {auth : WtAuthContext}
  {times : ClaimTimes}

theorem length_remoteClaimant (h : remoteClaimant request = some (agent, host)) :
    agent.length < wtTaskAgentSize ∧ host.length < wtTaskAgentSize := by
  unfold remoteClaimant at h
  split at h
  · rename_i hagent hhost
    cases h
    exact ⟨wtJsonReadString_length hagent, wtJsonReadString_length hhost⟩
  · cases h

/-- **A paused agent takes no new work exactly when the remote path refuses it for another
reason.** -/
theorem paused_takesNoLease_iff (hpaused : lastControl ledger agent = some .pause)
    (hrequest : remoteClaimant request = some (agent, host)) :
    ((∀ t work, ¬ AppendsLease ledger (handleAssignedTask config agent ledger t work)) ∧
        ¬ AppendsLease ledger (handlePostRemoteClaim config ledger request auth times).1) ↔
      RemoteRefuses ledger agent host auth times.start := by
  have hlocal : ∀ t work, ¬ AppendsLease ledger (handleAssignedTask config agent ledger t work) := by
    intro t work
    have hfind : (Claim.assigned agent).find ledger ((Claim.assigned agent).nowUnixMs t.start) = none :=
      if_pos (wtTaskAgentPaused_iff.mpr hpaused)
    simp only [handleAssignedTask, Claim.run, hfind]
    exact not_appendsLease_self ledger
  obtain ⟨-, hhost⟩ := length_remoteClaimant hrequest
  rw [and_iff_right hlocal, handlePostRemoteClaim, hrequest, RemoteRefuses]
  by_cases hauth : auth.mismatches [agent, host]
  · simp [hauth, not_appendsLease_self]
  · simp only [hauth, Bool.false_eq_true, ↓reduceIte, false_or]
    by_cases hgrants : ∃ task, (Claim.remote agent host).Grants ledger times.start task
    · obtain ⟨task, htask⟩ := hgrants
      rw [Claim.run_of_grants htask, Claim.leaseTask_appendsLease_iff fun _ hagent _ =>
        remoteReclaimMessage_fits hagent hhost]
      constructor
      · intro hno task' htask'
        rwa [htask'.unique htask]
      · exact fun h => h task htask
    · rw [Claim.run_of_not_grants fun task htask => hgrants ⟨task, htask⟩]
      exact iff_of_true (not_appendsLease_self ledger) fun task htask => absurd ⟨task, htask⟩ hgrants

end paused

/-! ### A paused agent on a host -/

def claudeHostLine : Bytes :=
  recordLine (hostCapabilityRecord (.ofPlain "h1") (.ofPlain "claude") (.ofPlain "observe")
    (.ofPlain "claude") 0)

def pauseRequest : Bytes :=
  bytes "POST /api/agent-control HTTP/1.1\r\n\r\n\x7b\"agent\":\"claude\",\"action\":\"pause\"\x7d"

/-- A task of an agent that a host advertises and the operator paused. -/
def pausedLedger : Ledger :=
  (handlePostAgentControl [claudeTaskLine, claudeHostLine] pauseRequest 0).1

def remoteClaimRequest : Bytes :=
  bytes ("POST /api/remote-claim HTTP/1.1\r\n\r\n" ++
    "\x7b\"host\":\"h1\",\"agent\":\"claude\"\x7d")

def claudeAuth : WtAuthContext := { role := bytes "agent", subject := bytes "claude" }

def earlyTimes : ClaimTimes := ⟨1000, 1000, 1000, by decide⟩

theorem paused_takesNoLease_iff_claude :
    ((∀ t work, ¬ AppendsLease pausedLedger (handleAssignedTask {} (bytes "claude") pausedLedger t
          work)) ∧
        ¬ AppendsLease pausedLedger
          (handlePostRemoteClaim {} pausedLedger remoteClaimRequest claudeAuth earlyTimes).1) ↔
      RemoteRefuses pausedLedger (bytes "claude") (bytes "h1") claudeAuth earlyTimes.start :=
  paused_takesNoLease_iff (by decide +kernel) (by decide +kernel)

/-- The paused agent's own host is granted its task. -/
theorem not_paused_takesNoLease :
    ¬ ∀ config ledger request agent host auth times, lastControl ledger agent = some .pause →
      remoteClaimant request = some (agent, host) →
      (∀ t work, ¬ AppendsLease ledger (handleAssignedTask config agent ledger t work)) ∧
        ¬ AppendsLease ledger (handlePostRemoteClaim config ledger request auth times).1 := by
  intro h
  have hno := (h {} pausedLedger remoteClaimRequest (bytes "claude") (bytes "h1") claudeAuth
    earlyTimes (by decide +kernel) (by decide +kernel)).2
  have hlease : ∃ line ∈ (handlePostRemoteClaim {} pausedLedger remoteClaimRequest claudeAuth
      earlyTimes).1.drop pausedLedger.length, isLeaseLine line := by
    decide +kernel
  exact hno hlease

end WovenTeam

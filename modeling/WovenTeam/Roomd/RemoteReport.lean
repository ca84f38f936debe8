import WovenTeam.Claims
import WovenTeam.ReadModels

/-!
# Reports from remote hosts

`POST /api/remote-task-event` appends the status an agent reports of a task. The handler checks
that the token is the agent's, and nothing else: not who holds the task's lease, nor whether there
is one. So a report from an agent without the lease leaves the status alone exactly when it would
change nothing anyway (`remoteReport_fenced_iff`).
-/

namespace WovenTeam

open CText QuotedText FirstSeen

/-! ## The handler -/

/-- What the handler takes from a body. -/
structure RemoteReport where
  taskId : Bytes
  status : Bytes
  agent : Bytes
  message : Bytes

/-- The statuses a remote agent may report. -/
def isReportStatus (status : Bytes) : Bool :=
  status == bytes "running" || status == bytes "complete" || status == bytes "failed" ||
    status == bytes "cancelled"

/-- The agent a report names, or the one the token was issued to. -/
def reportAgent (body : Bytes) (auth : WtAuthContext) : Bytes :=
  (wtJsonReadString body "agent" wtTaskAgentSize).orElse
    (if auth.subject = [] then bytes "remote" else auth.subject)

def readReport (request : Bytes) (auth : WtAuthContext) : Except HttpReply RemoteReport :=
  let body := bearerBody request
  match wtJsonReadString body "taskId" wtTaskIdSize,
      wtJsonReadString body "status" wtTaskStatusSize with
  | .ok taskId, .ok status =>
    if !isReportStatus status then .error (badRequest "unsupported_status")
    else
      let agent := reportAgent body auth
      if auth.mismatches [agent] then .error (errorReply 403 "Forbidden" "subject_mismatch")
      else .ok {
        taskId, status, agent
        message := (wtJsonReadString body "message" wtTaskTitleSize).orElse
          (bytes "Remote agent reported " ++ status ++ bytes ".") }
  | _, _ => .error (badRequest "task_status_required")

/-- The append of a report. -/
def RemoteReport.record (report : RemoteReport) (ledger : Ledger) (now : Int) : Option Ledger :=
  wtTaskAppendStatusEvent ledger report.taskId report.status
    (snprintf (wtTaskAgentSize + 16) (bytes "wt-agent@" ++ report.agent)) report.message now

/-- The room message that repeats the report goes to another file. -/
def handlePostRemoteTaskEvent (ledger : Ledger) (request : Bytes) (auth : WtAuthContext)
    (now : Int) : Ledger × HttpReply :=
  match readReport request auth with
  | .error reply => (ledger, reply)
  | .ok report =>
    match report.record ledger now with
    | none => (ledger, errorReply 500 "Internal Server Error" "append_failed")
    | some ledger =>
      (ledger, okReply (snprintf 512 (bytes "\x7b\"ok\":true,\"taskId\":\"" ++ report.taskId ++
        bytes "\",\"status\":\"" ++ report.status ++ bytes "\"\x7d\n")))

/-! ## The statement -/

/-- The status of the task's row in the projection. -/
def projectedStatus (ledger : Ledger) (taskId : Bytes) : Option Bytes :=
  (projectedRow ledger taskId).map TaskRow.status

/-- The agent holds the task's active lease. -/
def HoldsLease (ledger : Ledger) (taskId agent : Bytes) : Prop :=
  (wtTaskFindActiveLease ledger taskId).active ∧
    (wtTaskFindActiveLease ledger taskId).leaseHolder = agent

/-- A request changes the status only of tasks whose lease the reporting agent holds. -/
def Fenced (ledger : Ledger) (request : Bytes) (auth : WtAuthContext) (now : Int) : Prop :=
  ∀ taskId,
    projectedStatus (handlePostRemoteTaskEvent ledger request auth now).1 taskId ≠
      projectedStatus ledger taskId →
    ∃ report, readReport request auth = .ok report ∧ HoldsLease ledger taskId report.agent

/-- The report changes nothing: its record does not fit, names no task of the projection, or has
the status the task has. -/
def RemoteReport.Idle (report : RemoteReport) (ledger : Ledger) (now : Int) : Prop :=
  report.record ledger now = none ∨ reread report.taskId = [] ∨
    wtTaskIdSize ≤ (reread report.taskId).length ∨
    ∀ status ∈ projectedStatus ledger (reread report.taskId), status = report.status

/-! ## What a report changes -/

section status

variable {ledger : Ledger} {a b c d : Literal} {now : Int}

theorem reread_isReportStatus {status : Bytes} (h : isReportStatus status) :
    reread status = status ∧ status.length < wtTaskStatusSize ∧ status ≠ [] := by
  simp only [isReportStatus, Bool.or_eq_true, beq_iff_eq] at h
  rcases h with ((rfl | rfl) | rfl) | rfl <;> decide

/-- The status of a row behind a status event. -/
theorem projectedStatus_append {status : Bytes} (hb : unescape b.text = status)
    (hstatus : status.length < wtTaskStatusSize) (hne : status ≠ []) (taskId : Bytes) :
    projectedStatus (ledger ++ [recordLine (statusRecord a b c none d now)]) taskId =
      if unescape a.text = taskId ∧ taskId.length < wtTaskIdSize ∧ taskId ≠ [] then
        (projectedStatus ledger taskId).map fun _ => status
      else projectedStatus ledger taskId := by
  have hevent := @statusRecord_schema a b c d now
  have hread : (wtJsonReadString (stripLineEnd (recordLine (statusRecord a b c none d now)))
      "status" wtTaskStatusSize).usable = some status := by
    rw [StringField.usable, readString_stripLineEnd (by decide),
      statusRecord_status (by rwa [hb]), hb]
    simp [StringField.toOption, Option.filter, hne]
  have hrow : ∀ row, (insertEvent (stripLineEnd (recordLine (statusRecord a b c none d now)))
      taskEventSchema row).status = status := by
    intro row
    have hproject := statusField.projected_event
      (stripLineEnd (recordLine (statusRecord a b c none d now))) taskEventSchema row
    rw [show (wtJsonReadString (stripLineEnd (recordLine (statusRecord a b c none d now)))
      statusField.key statusField.size).usable = some status from hread] at hproject
    exact hproject
  rw [projectedStatus, projectedRow_append_event hevent]
  simp only [statusRecord_taskId, and_assoc]
  split
  · cases hold : projectedRow ledger taskId <;> simp [projectedStatus, hold, hrow]
  · rfl

end status

section fenced

variable {ledger : Ledger} {request : Bytes} {auth : WtAuthContext} {now : Int}

theorem readReport_status {report : RemoteReport} (h : readReport request auth = .ok report) :
    isReportStatus report.status := by
  unfold readReport at h
  dsimp only at h
  split at h
  · split at h
    · cases h
    · rename_i hstatus
      split at h
      · cases h
      · cases h
        simpa using hstatus
  · cases h

/-- The statuses behind a report. -/
theorem projectedStatus_report {report : RemoteReport} (hnow : Int64 now)
    (hreport : readReport request auth = .ok report) (taskId : Bytes) :
    projectedStatus (handlePostRemoteTaskEvent ledger request auth now).1 taskId =
      if report.record ledger now ≠ none ∧ reread report.taskId = taskId ∧
          taskId.length < wtTaskIdSize ∧ taskId ≠ [] then
        (projectedStatus ledger taskId).map fun _ => report.status
      else projectedStatus ledger taskId := by
  obtain ⟨hreread, hlen, hne⟩ := reread_isReportStatus (readReport_status hreport)
  simp only [handlePostRemoteTaskEvent, hreport]
  cases hrecord : report.record ledger now with
  | none => simp
  | some ledger' =>
    obtain ⟨a, b, c, d, ha, hb, rfl⟩ := wtTaskAppendStatusEvent_eq hnow hrecord
    simp only [projectedStatus_append (hb.trans hreread) hlen hne, ha, ne_eq, reduceCtorEq,
      not_false_eq_true, true_and]

/-- **A report is fenced exactly when the reporting agent holds the lease of the task its record
names, or the report changes nothing.** -/
theorem remoteReport_fenced_iff (hnow : Int64 now) :
    Fenced ledger request auth now ↔
      ∀ report, readReport request auth = .ok report →
        HoldsLease ledger (reread report.taskId) report.agent ∨ report.Idle ledger now := by
  constructor
  · intro hfenced report hreport
    by_cases hidle : report.Idle ledger now
    · exact .inr hidle
    · simp only [RemoteReport.Idle, not_or, not_forall] at hidle
      obtain ⟨hrecord, hid, hlen, status, hstatus, hne⟩ := hidle
      obtain ⟨report', hreport', hholds⟩ := hfenced (reread report.taskId) (by
        rw [projectedStatus_report hnow hreport, if_pos ⟨hrecord, rfl, by omega, hid⟩,
          Option.mem_def.mp hstatus]
        simpa using Ne.symm hne)
      rw [hreport] at hreport'
      cases hreport'
      exact .inl hholds
  · intro hcond taskId hchanged
    cases hreport : readReport request auth with
    | error reply =>
      simp [handlePostRemoteTaskEvent, hreport] at hchanged
    | ok report =>
      refine ⟨report, rfl, ?_⟩
      rw [projectedStatus_report hnow hreport] at hchanged
      split at hchanged
      · rename_i happlies
        obtain ⟨hrecord, rfl, hlen, hid⟩ := happlies
        refine (hcond report hreport).resolve_right ?_
        rintro (hnone | hempty | hlong | hsame)
        · exact hrecord hnone
        · exact hid hempty
        · omega
        · refine hchanged ?_
          cases hold : projectedStatus ledger (reread report.taskId) with
          | none => rfl
          | some status => rw [Option.map_some, hsame status hold]
      · exact absurd rfl hchanged

end fenced

/-! ### A report from an agent that never had the task -/

/-- A task that one agent leased from its host. -/
def remoteLeasedLedger : Ledger :=
  (handlePostRemoteClaim {} [claudeTaskLine, claudeHostLine] remoteClaimRequest claudeAuth
    earlyTimes).1

def geminiReport : Bytes :=
  bytes ("POST /api/remote-task-event HTTP/1.1\r\n\r\n" ++
    "\x7b\"agent\":\"gemini\",\"taskId\":\"t1\",\"status\":\"complete\"\x7d")

def geminiAuth : WtAuthContext := { role := bytes "agent", subject := bytes "gemini" }

theorem remoteReport_fenced_iff_gemini :
    Fenced remoteLeasedLedger geminiReport geminiAuth 2000 ↔
      ∀ report, readReport geminiReport geminiAuth = .ok report →
        HoldsLease remoteLeasedLedger (reread report.taskId) report.agent ∨
          report.Idle remoteLeasedLedger 2000 :=
  remoteReport_fenced_iff (by decide)

/-- The other agent's report completes the task. -/
theorem not_remoteReport_fenced :
    ¬ ∀ ledger request auth now, Int64 now → Fenced ledger request auth now := by
  intro h
  obtain ⟨report, hreport, -, hholder⟩ := h remoteLeasedLedger geminiReport geminiAuth 2000
    (by decide) (bytes "t1") (by decide +kernel)
  have hagent : (readReport geminiReport geminiAuth).toOption.map RemoteReport.agent =
      some (bytes "gemini") := by
    decide +kernel
  rw [hreport] at hagent
  rw [show report.agent = bytes "gemini" from Option.some.inj hagent] at hholder
  exact absurd hholder (by decide +kernel)

end WovenTeam

import WovenTeam.Roomd.Http
import WovenTeam.Store.Find
import WovenTeam.Store.Lease

/-!
# Operator reclaim

`POST /api/task-reclaim` puts a task back into the queue. The record it appends names, as the
assigned agent, the holder of the task's last lease event, and the scan of the queued-task finder
takes that agent over. So the task returns to its owner exactly when the owner held the last
lease (`reclaim_returns_iff`).
-/

namespace WovenTeam

open CText QuotedText FirstSeen

/-! ## The handler -/

/-- The ledger and the reply after a request that arrives at `now`. The room message that repeats
`message` goes to another file. -/
def handlePostTaskReclaim (ledger : Ledger) (request : Bytes) (now : Int) : Ledger × HttpReply :=
  match requestBody request with
  | none => (ledger, badRequest "missing body")
  | some body =>
    match wtJsonReadString body "taskId" wtTaskIdSize with
    | .ok taskId =>
      let reason := (wtJsonReadString body "reason" 64).orElse (bytes "operator")
      if reason ≠ bytes "operator" ∧ reason ≠ bytes "lease_expired" then
        (ledger, badRequest "unsupported reclaim reason")
      else
        let message := (wtJsonReadString body "message" wtTaskTitleSize).orElse
          (if reason = bytes "operator" then bytes "Lease reclaimed by operator."
            else bytes "Lease reclaimed because it expired.")
        let createdBy := (wtJsonReadString body "createdBy" wtTaskAgentSize).orElse (bytes "ceo")
        let previous := wtTaskFindActiveLease ledger taskId
        match wtTaskAppendReclaimEvent ledger taskId previous.leaseHolder createdBy reason message
            now with
        | none => (ledger, appendFailed)
        | some ledger =>
          (ledger, okReply (snprintf 768 (bytes "\x7b\"ok\":true,\"taskId\":\"" ++ taskId ++
            bytes "\",\"reason\":\"" ++ reason ++ bytes "\",\"previousAgent\":\"" ++
            previous.leaseHolder ++ bytes "\",\"previousAttempt\":" ++ decimal previous.attempt ++
            bytes "\x7d\n")))
    | _ => (ledger, badRequest "taskId required")

/-- The task a reclaim request is about. -/
def reclaimTaskId (request : Bytes) : Option Bytes :=
  (requestBody request).bind fun body => (wtJsonReadString body "taskId" wtTaskIdSize).toOption

theorem length_reclaimTaskId {request taskId : Bytes} (h : reclaimTaskId request = some taskId) :
    taskId.length < wtTaskIdSize := by
  obtain ⟨body, -, hbody⟩ := Option.bind_eq_some_iff.mp h
  cases hr : wtJsonReadString body "taskId" wtTaskIdSize <;> rw [hr] at hbody <;> cases hbody
  exact wtJsonReadString_length hr

/-- An accepted request appends one reclaim record, with the holder the lease scan reports. -/
theorem reclaim_accepted {ledger : Ledger} {request : Bytes} {now : Int}
    (haccept : (handlePostTaskReclaim ledger request now).2.accepted) :
    ∃ taskId createdBy reason message, reclaimTaskId request = some taskId ∧
      wtTaskAppendReclaimEvent ledger taskId (wtTaskFindActiveLease ledger taskId).leaseHolder
        createdBy reason message now = some (handlePostTaskReclaim ledger request now).1 := by
  have hno : ∀ {error : HttpReply}, error.status ≠ 200 →
      handlePostTaskReclaim ledger request now ≠ (ledger, error) := by
    intro error he h
    rw [h] at haccept
    exact he haccept
  generalize hresult : handlePostTaskReclaim ledger request now = result at *
  unfold handlePostTaskReclaim at hresult
  split at hresult
  · exact absurd hresult.symm (hno (by decide))
  · rename_i body hbody
    split at hresult
    · rename_i taskId htask
      dsimp only at hresult
      split at hresult
      · exact absurd hresult.symm (hno (by decide))
      · split at hresult
        · exact absurd hresult.symm (hno (by decide))
        · rename_i ledger' happend
          subst hresult
          refine ⟨taskId, _, _, _, ?_, happend⟩
          simp [reclaimTaskId, hbody, htask, StringField.toOption]
    · exact absurd hresult.symm (hno (by decide))

/-! ## The owner -/

/-- The line gives the task to an agent: a package, or a routing or assignment event. -/
def assignsTask (taskId line : Bytes) : Bool :=
  lineTaskId line == some taskId &&
    (lineHasSchema line taskPackageSchema ||
      lineHasSchema line taskEventSchema &&
        (lineEventType line == bytes "routing" || lineEventType line == bytes "assignment"))

/-- The agent that the task's last package, routing or assignment record names. -/
def rightfulOwner (ledger : Ledger) (taskId : Bytes) : Option Bytes :=
  (ledger.filter (assignsTask taskId)).getLast?.bind fun line =>
    (wtJsonReadString line "assignedAgent" wtTaskAgentSize).toOption

/-- The finder's scan has the task queued, on no particular host, for the agent. -/
def QueuedFor (ledger : Ledger) (taskId agentName : Bytes) : Prop :=
  ∃ task ∈ scanQueued ledger, task.taskId = taskId ∧ task.executionHost = [] ∧
    task.status = bytes "queued" ∧ task.assignedAgent = agentName

instance (ledger : Ledger) (taskId agentName : Bytes) :
    Decidable (QueuedFor ledger taskId agentName) := by
  unfold QueuedFor
  infer_instance

/-- The task is queued for its owner and for no other agent. -/
def ReturnedTo (ledger : Ledger) (taskId owner : Bytes) : Prop :=
  QueuedFor ledger taskId owner ∧ ∀ agentName, QueuedFor ledger taskId agentName → agentName = owner

theorem queuedFor_iff {ledger : Ledger} {taskId agentName : Bytes} :
    QueuedFor ledger taskId agentName ↔ taskId ∈ trackedIds ledger ∧
      ∃ task, foldedState ledger taskId = some task ∧ task.executionHost = [] ∧
        task.status = bytes "queued" ∧ task.assignedAgent = agentName := by
  constructor
  · rintro ⟨task, hmem, rfl, hq⟩
    obtain ⟨htracked, hstate⟩ := mem_scanQueued_iff.mp hmem
    exact ⟨htracked, task, hstate, hq⟩
  · rintro ⟨htracked, task, hstate, hq⟩
    have hid := foldedState_taskId hstate
    refine ⟨task, mem_scanQueued_iff.mpr ?_, hid, hq⟩
    rw [hid]
    exact ⟨htracked, hstate⟩

theorem returnedTo_iff {ledger : Ledger} {taskId owner : Bytes} :
    ReturnedTo ledger taskId owner ↔ QueuedFor ledger taskId owner := by
  refine ⟨And.left, fun h => ⟨h, fun agentName hother => ?_⟩⟩
  obtain ⟨-, task, hstate, -, -, howner⟩ := queuedFor_iff.mp h
  obtain ⟨-, task', hstate', -, -, hagent⟩ := queuedFor_iff.mp hother
  rw [hstate] at hstate'
  rw [← hagent, ← Option.some.inj hstate', howner]

/-- What a reclaim record makes of the task it reads back as. -/
theorem queuedFor_reclaimed_iff {ledger : Ledger} {taskId agentName : Bytes} {a b c d e : Literal}
    {now : Int} (hu : Unpinned ledger taskId) :
    QueuedFor (ledger ++ [recordLine (reclaimRecord a b c d e now)]) taskId agentName ↔
      taskId ∈ trackedIds ledger ∧
        if lineTaskId (recordLine (reclaimRecord a b c d e now)) = some taskId then
          (unescape b.text).take (wtTaskAgentSize - 1) = agentName
        else QueuedFor ledger taskId agentName := by
  have hschema := @reclaimRecord_schema a b c d e now
  obtain ⟨task, hstate, hhost⟩ := Option.map_eq_some_iff.mp hu
  rw [queuedFor_iff, trackedIds_append_event hschema, foldedState_append_event hschema, hstate]
  refine and_congr_right fun htracked => ?_
  split
  · simp only [Option.map_some, Option.some.injEq, exists_eq_left', overlayTaskEvent, hhost,
      reclaimRecord_status, StringField.overwrite_eq, reclaimRecord_assignedAgent, Option.getD_some,
      true_and]
    simp [StringField.written]
  · rw [queuedFor_iff, hstate]
    simp [htracked]

/-! ## The last lease -/

/-- The agent of the task's last lease event, ended or not; empty where it was never leased. -/
def lastLeaseHolder (ledger : Ledger) (taskId : Bytes) : Bytes :=
  ((ledger.filter (isEventOf taskId "lease")).getLast?.map fun line =>
    (wtJsonReadString line "assignedAgent" wtTaskAgentSize).orElse []).getD []

theorem leaseHolder_step (taskId : Bytes) (s : LeaseScan) (line : Bytes) :
    (s.step taskId line).leaseHolder =
      if isEventOf taskId "lease" line then
        (wtJsonReadString line "assignedAgent" wtTaskAgentSize).orElse []
      else s.leaseHolder := by
  rw [LeaseScan.step]
  by_cases hlease : isEventOf taskId "lease" line
  · rw [leaseMark_lease hlease, if_pos hlease]
    rfl
  · rw [if_neg hlease]
    cases hm : leaseMark taskId line with
    | none => rfl
    | some mark =>
      obtain rfl := (leaseMark_cases hm).resolve_left hlease
      rfl

theorem leaseHolder_eq (ledger : Ledger) (taskId : Bytes) :
    (wtTaskFindActiveLease ledger taskId).leaseHolder = lastLeaseHolder ledger taskId := by
  induction ledger using List.reverseRecOn with
  | nil => rfl
  | append_singleton ledger line ih =>
    rw [wtTaskFindActiveLease_append, leaseHolder_step, ih, lastLeaseHolder, lastLeaseHolder,
      List.filter_append]
    by_cases h : isEventOf taskId "lease" line <;> simp [h]

/-! ## The task returns to its owner -/

/-- **A reclaimed task returns to its owner exactly when it has a row and its last lease event, if
the record reads back as this task, was the owner's own.** -/
theorem reclaim_returns_iff {ledger : Ledger} {request taskId : Bytes} {now : Int}
    (hnow : Int64 now) (haccept : (handlePostTaskReclaim ledger request now).2.accepted)
    (ht : reclaimTaskId request = some taskId) (hu : Unpinned ledger taskId) :
    (∀ owner ∈ rightfulOwner ledger taskId,
        ReturnedTo (handlePostTaskReclaim ledger request now).1 taskId owner) ↔
      ∀ owner ∈ rightfulOwner ledger taskId, taskId ∈ trackedIds ledger ∧
        if reread taskId = taskId then
          (reread (lastLeaseHolder ledger taskId)).take (wtTaskAgentSize - 1) = owner
        else QueuedFor ledger taskId owner := by
  obtain ⟨taskId', createdBy, reason, message, ht', happend⟩ := reclaim_accepted haccept
  obtain rfl : taskId' = taskId := Option.some.inj (ht'.symm.trans ht)
  obtain ⟨a, b, c, d, e, ha, hb, hledger⟩ := wtTaskAppendReclaimEvent_eq hnow happend
  have hread : lineTaskId (recordLine (reclaimRecord a b c d e now)) = some taskId' ↔
      reread taskId' = taskId' := by
    rw [reclaimRecord_taskId, ha]
    exact and_iff_left (length_reclaimTaskId ht)
  refine forall₂_congr fun owner _ => ?_
  rw [returnedTo_iff, hledger, queuedFor_reclaimed_iff hu]
  simp only [hread, hb, leaseHolder_eq]

def reclaimRequest : Bytes :=
  bytes "POST /api/task-reclaim HTTP/1.1\r\n\r\n\x7b\"taskId\":\"t1\"\x7d"

def ownLeaseLedger : Ledger :=
  [recordLine (packageRecord (.ofPlain "t1") (.ofPlain "claude")),
    recordLine (leaseRecord (.ofPlain "t1") (.ofPlain "claude") (.ofPlain "") 1 600000 0)]

theorem reclaim_returns_ownLease :
    (∀ owner ∈ rightfulOwner ownLeaseLedger (bytes "t1"),
        ReturnedTo (handlePostTaskReclaim ownLeaseLedger reclaimRequest 1000).1 (bytes "t1")
          owner) ↔
      ∀ owner ∈ rightfulOwner ownLeaseLedger (bytes "t1"),
        bytes "t1" ∈ trackedIds ownLeaseLedger ∧
          if reread (bytes "t1") = bytes "t1" then
            (reread (lastLeaseHolder ownLeaseLedger (bytes "t1"))).take (wtTaskAgentSize - 1) = owner
          else QueuedFor ownLeaseLedger (bytes "t1") owner :=
  reclaim_returns_iff (by decide) (by decide +kernel) (by decide +kernel) (by decide +kernel)

/-- A task that was never leased is queued for nobody after the operator's reclaim. -/
theorem not_returned_neverLeased :
    ¬ ∀ ledger request taskId now, (handlePostTaskReclaim ledger request now).2.accepted →
      reclaimTaskId request = some taskId → Unpinned ledger taskId →
      ∀ owner ∈ rightfulOwner ledger taskId,
        ReturnedTo (handlePostTaskReclaim ledger request now).1 taskId owner := by
  intro h
  have hret := h [recordLine (packageRecord (.ofPlain "t1") (.ofPlain "claude"))] reclaimRequest
    (bytes "t1") 1000 (by decide +kernel) (by decide +kernel) (by decide +kernel)
    (bytes "claude") (by decide +kernel)
  exact absurd hret.1 (by decide +kernel)

end WovenTeam

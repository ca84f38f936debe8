import WovenTeam.Lib.Runs
import WovenTeam.ReadModels
import WovenTeam.Roomd.RemoteLease

/-!
# Attempt numbers

A claim counts the attempts of its task on from the last lease event, stores the number in its own,
and the projection counts the events again. `attempts_agree_along` says along which histories of
claims and other records the three numbers stay the same.
-/

namespace WovenTeam

open CText QuotedText FirstSeen Runs

/-! ## Attempts -/

/-- The attempt a lease event of the task carries. -/
def leaseAttempt (taskId line : Bytes) : Option Int :=
  if isEventOf taskId "lease" line then some ((wtJsonReadLong line "attempt").getD 0) else none

/-- The attempts of the task's lease events, in their order. -/
def leaseAttempts (ledger : Ledger) (taskId : Bytes) : List Int :=
  ledger.filterMap (leaseAttempt taskId)

/-- The `attempt_count` of the task's row, where it has one. -/
def projectedAttempts (ledger : Ledger) (taskId : Bytes) : Int :=
  ((projectedRow ledger taskId).map TaskRow.attemptCount).getD 0

/-- The lease events of the task are numbered from one, and both readers count them all. -/
structure AttemptsAgree (ledger : Ledger) (taskId : Bytes) : Prop where
  numbered : ∀ (k : Nat) (attempt : Int), (leaseAttempts ledger taskId)[k]? = some attempt → attempt = k + 1
  active : (wtTaskFindActiveLease ledger taskId).attempt = (leaseAttempts ledger taskId).length
  projected : projectedAttempts ledger taskId = (leaseAttempts ledger taskId).length

/-! ## Histories -/

/-- A call of a claiming function, or a record of any other kind. What an agent appends while it
works on the task it leased are records of their own. -/
inductive HistoryStep where
  | record (line : Bytes) (h : isLeaseLine line = false)
  | assigned (config : WtConfig) (agentName : Bytes) (times : ClaimTimes)
  | remote (config : WtConfig) (request : Bytes) (auth : WtAuthContext) (times : ClaimTimes)

def HistoryStep.apply (ledger : Ledger) : HistoryStep → Ledger
  | record line _ => ledger ++ [line]
  | assigned config agentName times =>
    handleAssignedTask config agentName ledger times fun _ ledger => ledger
  | remote config request auth times => (handlePostRemoteClaim config ledger request auth times).1

/-- A request record that the projection counts as a lease. -/
structure CountsAsLease (ledger : Ledger) (line : Bytes) : Prop where
  schema : lineHasSchema line taskRequestSchema
  eventType : (wtJsonReadString line "eventType" 64).orElse (bytes "request") = bytes "lease"
  named : (wtJsonReadString line "status" wtTaskStatusSize).orElse [] ≠ [] ∨
    (wtJsonReadString line "assignedAgent" wtTaskAgentSize).orElse [] ≠ []
  row : ∃ taskId, taskId ≠ [] ∧ lineTaskId line = some taskId ∧ (projectedRow ledger taskId).isSome

/-- The lease of the task is recorded under its own id, and its number fits. -/
structure Countable (ledger : Ledger) (taskId : Bytes) : Prop where
  named : taskId ≠ []
  reads : reread taskId = taskId
  fits : (leaseAttempts ledger taskId).length < 2 ^ 31 - 1

def HistoryStep.Counted (ledger : Ledger) : HistoryStep → Prop
  | record line _ => ¬ CountsAsLease ledger line
  | assigned _ agentName times =>
    ∀ task, (Claim.assigned agentName).Grants ledger
      ((Claim.assigned agentName).nowUnixMs times.start) task → Countable ledger task.taskId
  | remote _ request auth times =>
    ∀ agent host, remoteClaimant request = some (agent, host) →
      auth.mismatches [agent, host] = false →
      ∀ task, (Claim.remote agent host).Grants ledger times.start task →
        Countable ledger task.taskId

/-! ## Records that are no lease -/

section record

variable {ledger : Ledger} {line taskId : Bytes}

theorem leaseAttempts_append (ledger : Ledger) (line taskId : Bytes) :
    leaseAttempts (ledger ++ [line]) taskId =
      leaseAttempts ledger taskId ++ (leaseAttempt taskId line).toList := by
  rw [leaseAttempts, List.filterMap_append, leaseAttempts]
  cases h : leaseAttempt taskId line <;> simp [h]

theorem not_isEventOf_lease (h : isLeaseLine line = false) : ¬ isEventOf taskId "lease" line := by
  intro hevent
  obtain ⟨hs, -, ht⟩ := isEventOf_iff.mp hevent
  simp [isLeaseLine, hs, ht] at h

/-- A reader that counts no lease keeps its attempt. -/
theorem activeAttempt_append (h : ¬ isEventOf taskId "lease" line) :
    (wtTaskFindActiveLease (ledger ++ [line]) taskId).attempt =
      (wtTaskFindActiveLease ledger taskId).attempt := by
  rw [wtTaskFindActiveLease_append, LeaseScan.step]
  cases hm : leaseMark taskId line with
  | none => rfl
  | some mark =>
    obtain rfl := (leaseMark_cases hm).resolve_left h
    rfl

theorem attemptCount_insertEvent {schema : String} {row : TaskRow}
    (h : (readEventFields line schema).eventType ≠ bytes "lease" ∨
      (readEventFields line schema).applies = false) :
    (insertEvent line schema row).attemptCount = row.attemptCount := by
  unfold insertEvent
  dsimp only
  split
  · rename_i happlies
    rcases h with h | h
    · simp [updateRow, h]
    · rw [h] at happlies
      cases happlies
  · rfl

theorem readEventFields_eventType (line : Bytes) (schema : String) :
    (readEventFields (stripLineEnd line) schema).eventType =
      (wtJsonReadString line "eventType" 64).orElse
        (if schema = taskRequestSchema then bytes "request" else bytes "event") :=
  readString_orElse_stripLineEnd (by decide) ..

/-- The projection counts no lease for a record that neither is one nor counts as one. -/
theorem attemptCount_projectLine {row : TaskRow} (hlease : isLeaseLine line = false)
    (hrow : projectedRow ledger taskId = some row) (hcounts : ¬ CountsAsLease ledger line)
    (hkey : projectionTable.key (stripLineEnd line) = some taskId) :
    (projectLine (stripLineEnd line) row).attemptCount = row.attemptCount := by
  unfold projectLine
  split
  · rfl
  rename_i hpackage
  split
  · rename_i hevent
    refine attemptCount_insertEvent (.inl fun htype => ?_)
    rw [readEventFields_eventType, if_neg (by decide)] at htype
    rw [lineHasSchema_stripLineEnd] at hevent
    have hok : wtJsonReadString line "eventType" 32 = .ok (bytes "lease") := by
      cases hread : wtJsonReadString line "eventType" 64 with
      | absent =>
        rw [hread] at htype
        exact absurd htype (by decide)
      | cut written =>
        rw [hread] at htype
        exact absurd htype (show bytes "event" ≠ bytes "lease" by decide)
      | ok eventType =>
        rw [hread] at htype
        obtain rfl : eventType = bytes "lease" := htype
        exact wtJsonReadString_shrink hread (by decide)
    simp [isLeaseLine, hevent, hok] at hlease
  split
  · rename_i hrequest
    refine attemptCount_insertEvent ?_
    by_contra hno
    rw [not_or, not_not, Bool.not_eq_false] at hno
    obtain ⟨htype, happlies⟩ := hno
    rw [readEventFields_eventType, if_pos rfl] at htype
    rw [lineHasSchema_stripLineEnd] at hrequest
    have hstatus := readString_orElse_stripLineEnd (k := "status") (by decide) line
      wtTaskStatusSize []
    have hagent := readString_orElse_stripLineEnd (k := "assignedAgent") (by decide) line
      wtTaskAgentSize []
    have hnamed : taskId ≠ [] := by
      rintro rfl
      have hk : projectionKey (stripLineEnd line) = some [] := hkey
      unfold projectionKey at hk
      simp only [hpackage, Bool.false_eq_true, ↓reduceIte] at hk
      split at hk
      · cases hk
      · rename_i hid
        exact hid (Option.some.inj hk)
    refine hcounts ⟨hrequest, htype, ?_, taskId, hnamed,
      (projectionKey_eq_some_iff hnamed).mp hkey, by rw [hrow]; rfl⟩
    have hother : (readEventFields (stripLineEnd line) taskRequestSchema).eventType =
        bytes "lease" := by rw [readEventFields_eventType, if_pos rfl, htype]
    rw [EventFields.applies, hother] at happlies
    simp only [show (bytes "lease" == bytes "reclaim") = false by decide,
      show (bytes "lease" == bytes "artifact") = false by decide,
      show (bytes "lease" == bytes "priority") = false by decide, Bool.or_false, Bool.or_eq_true,
      bne_iff_ne] at happlies
    rw [← hstatus, ← hagent]
    exact happlies
  · rfl

theorem projectedAttempts_append (hlease : isLeaseLine line = false)
    (hcounts : ¬ CountsAsLease ledger line) :
    projectedAttempts (ledger ++ [line]) taskId = projectedAttempts ledger taskId := by
  rw [projectedAttempts, projectedRow_append, projectedAttempts]
  by_cases hk : projectionTable.key (stripLineEnd line) = some taskId
  · cases hrow : projectedRow ledger taskId with
    | none =>
      rw [projectionTable.stateStep_none hk]
      split <;> rfl
    | some row =>
      rw [projectionTable.stateStep_some hk]
      exact attemptCount_projectLine hlease hrow hcounts hk
  · rw [projectionTable.stateStep_of_ne hk]

theorem AttemptsAgree.append (h : AttemptsAgree ledger taskId) (hlease : isLeaseLine line = false)
    (hcounts : ¬ CountsAsLease ledger line) :
    AttemptsAgree (ledger ++ [line]) taskId ∧
      leaseAttempts (ledger ++ [line]) taskId = leaseAttempts ledger taskId := by
  have hevent : ¬ isEventOf taskId "lease" line := not_isEventOf_lease hlease
  have hsame : leaseAttempts (ledger ++ [line]) taskId = leaseAttempts ledger taskId := by
    rw [leaseAttempts_append, leaseAttempt, if_neg hevent]
    exact List.append_nil _
  refine ⟨⟨?_, ?_, ?_⟩, hsame⟩
  · rw [hsame]
    exact h.numbered
  · rw [hsame, activeAttempt_append hevent]
    exact h.active
  · rw [hsame, projectedAttempts_append hlease hcounts]
    exact h.projected

end record

/-! ## Claims -/

section claim

variable {ledger : Ledger} {taskId : Bytes} {a b c d e : Literal}
  {attempt expires now : Int}

theorem CountsAsLease.not_event {line : Bytes} (h : lineHasSchema line taskEventSchema) :
    ¬ CountsAsLease ledger line := by
  intro hcounts
  have hrequest := hcounts.schema
  simp only [lineHasSchema, beq_iff_eq] at h hrequest
  rw [h] at hrequest
  exact absurd hrequest (by decide)

theorem isEventOf_leaseRecord (hlen : taskId.length < wtTaskIdSize) (ha : unescape a.text = taskId)
    {other : Bytes} :
    isEventOf other "lease" (recordLine (leaseRecord a b c attempt expires now)) ↔ other = taskId := by
  have hlease := @isLeaseLine_lease a b c attempt expires now
  simp only [isLeaseLine, Bool.and_eq_true, beq_iff_eq] at hlease
  rw [isEventOf_iff, leaseRecord_taskId, ha]
  constructor
  · exact fun h => h.2.1.1.symm
  · rintro rfl
    exact ⟨hlease.1, ⟨rfl, hlen⟩, hlease.2⟩

/-- A lease event raises the projection's count of a task that has a row. -/
theorem projectedAttempts_lease (hnamed : taskId ≠ []) (hlen : taskId.length < wtTaskIdSize)
    (ha : unescape a.text = taskId) (hattempt : Int64 attempt)
    (hrow : (projectedRow ledger taskId).isSome) :
    projectedAttempts (ledger ++ [recordLine (leaseRecord a b c attempt expires now)]) taskId =
      max (projectedAttempts ledger taskId + 1) attempt := by
  obtain ⟨row, hrow⟩ := Option.isSome_iff_exists.mp hrow
  obtain ⟨hschema, hid, htype⟩ := isEventOf_iff.mp
    (@isEventOf_leaseRecord taskId a b c attempt expires now hlen ha taskId |>.mpr rfl)
  have hstatus : wtJsonReadString (recordLine (leaseRecord a b c attempt expires now)) "status"
      wtTaskStatusSize = .ok (bytes "leased") :=
    wtJsonReadString_object (.of_check rfl) quote_notMem_newline (v := .ofPlain "leased") rfl (by decide)
  have hevent : (readEventFields (stripLineEnd
      (recordLine (leaseRecord a b c attempt expires now))) taskEventSchema).eventType =
        bytes "lease" := by
    rw [readEventFields_eventType, wtJsonReadString_mono (show 32 ≤ 64 by decide) htype]
    rfl
  have happlies : (readEventFields (stripLineEnd
      (recordLine (leaseRecord a b c attempt expires now))) taskEventSchema).applies := by
    have hleased : (readEventFields (stripLineEnd
        (recordLine (leaseRecord a b c attempt expires now))) taskEventSchema).status =
          bytes "leased" := by
      rw [readEventFields, readString_orElse_stripLineEnd (k := "status") (by decide), hstatus]
      rfl
    rw [EventFields.applies, hleased]
    rfl
  have hnumber : (readEventFields (stripLineEnd
      (recordLine (leaseRecord a b c attempt expires now))) taskEventSchema).attempt = attempt := by
    rw [readEventFields, readLong_stripLineEnd (k := "attempt") (by decide),
      leaseRecord_attempt hattempt]
    rfl
  rw [projectedAttempts, projectedRow_append_event hschema, if_pos ⟨hid, hnamed⟩, projectedAttempts,
    hrow]
  simp only [Option.map_some, Option.getD_some, insertEvent, happlies, ↓reduceIte, updateRow, hevent,
    beq_self_eq_true, hnumber]

/-- A lease event of the next number keeps the numbers the same, those of other tasks as well. -/
theorem AttemptsAgree.append_lease (h : ∀ other, AttemptsAgree ledger other)
    (hnamed : taskId ≠ []) (hlen : taskId.length < wtTaskIdSize) (ha : unescape a.text = taskId)
    (hfits : (leaseAttempts ledger taskId).length < 2 ^ 31 - 1)
    (hrow : (projectedRow ledger taskId).isSome)
    (hattempt : attempt = (leaseAttempts ledger taskId).length + 1) (other : Bytes) :
    AttemptsAgree (ledger ++ [recordLine (leaseRecord a b c attempt expires now)]) other := by
  have hint : Int64 attempt := by
    rw [Int64]
    omega
  have hevent := @isEventOf_leaseRecord taskId a b c attempt expires now hlen ha other
  by_cases hother : other = taskId
  · subst hother
    have hlease := hevent.mpr rfl
    have hnew : leaseAttempts (ledger ++ [recordLine (leaseRecord a b c attempt expires now)]) other =
        leaseAttempts ledger other ++ [attempt] := by
      rw [leaseAttempts_append, leaseAttempt, if_pos hlease, leaseRecord_attempt hint]
      rfl
    refine ⟨fun k n hk => ?_, ?_, ?_⟩
    · rw [hnew, List.getElem?_append] at hk
      split at hk
      · exact (h other).numbered k n hk
      · rename_i hge
        rw [List.getElem?_singleton] at hk
        split at hk
        · cases hk
          omega
        · cases hk
    · have hsame : toInt32 attempt = attempt := toInt32_eq_iff.mpr (by omega)
      rw [wtTaskFindActiveLease_append, LeaseScan.step, leaseMark_lease hlease, hnew,
        leaseRecord_attempt hint, Option.getD_some, hsame, List.length_append,
        List.length_singleton]
      exact hattempt
    · rw [projectedAttempts_lease hnamed hlen ha hint hrow, hnew, List.length_append,
        (h other).projected, hattempt, max_self]
      rfl
  · have hno : ¬ isEventOf other "lease" (recordLine (leaseRecord a b c attempt expires now)) :=
      fun hlease => hother (hevent.mp hlease)
    have hsame : leaseAttempts (ledger ++ [recordLine (leaseRecord a b c attempt expires now)]) other =
        leaseAttempts ledger other := by
      rw [leaseAttempts_append, leaseAttempt, if_neg hno]
      exact List.append_nil _
    obtain ⟨hschema, hid, -⟩ := isEventOf_iff.mp
      (@isEventOf_leaseRecord taskId a b c attempt expires now hlen ha taskId |>.mpr rfl)
    refine ⟨?_, ?_, ?_⟩
    · rw [hsame]
      exact (h other).numbered
    · rw [hsame, activeAttempt_append hno]
      exact (h other).active
    · rw [hsame, projectedAttempts, projectedRow_append_event hschema, hid,
        if_neg fun hand => hother (Option.some.inj hand.1).symm]
      exact (h other).projected

/-! ## A claim -/

/-- A claim leaves the ledger alone, reclaims, or leases. -/
theorem Claim.leaseTask_ledger {claim : Claim} {duration : Int} {times : ClaimTimes}
    {task : WtTaskSummary} :
    (claim.leaseTask duration ledger times task).1 = ledger ∨
      (∃ lines, ReclaimLines task (wtTaskFindActiveLease ledger task.taskId)
          (claim.nowUnixMs times.start) times.reclaim lines ∧
        (claim.leaseTask duration ledger times task).1 = ledger ++ lines) ∨
      LeasedLedger claim duration ledger times task
        (claim.leaseTask duration ledger times task).1 := by
  obtain ⟨-, hreclaim, -⟩ := times.range
  cases hrelease : claim.release ledger task (wtTaskFindActiveLease ledger task.taskId)
      (claim.nowUnixMs times.start) times.reclaim with
  | none =>
    left
    unfold Claim.leaseTask
    simp only [hrelease]
  | some released =>
    cases happend : wtTaskAppendLeaseEvent released task.taskId claim.agentName
        (toInt32 ((wtTaskFindActiveLease ledger task.taskId).attempt + 1))
        (leaseExpiry (claim.nowUnixMs times.start) duration) times.lease with
    | none =>
      obtain ⟨lines, hlines, rfl⟩ := Claim.release_eq hreclaim hrelease
      refine .inr (.inl ⟨lines, hlines, ?_⟩)
      unfold Claim.leaseTask
      simp only [hrelease, happend]
    | some leased =>
      exact .inr (.inr (Claim.leaseTask_leased hrelease (by rw [happend]; rfl)))

/-- What a claim finds has a package. -/
theorem Claim.mem_packageIds_of_find {claim : Claim} {nowUnixMs : Int} {task : WtTaskSummary}
    (h : claim.find ledger nowUnixMs = some task) : task.taskId ∈ packageIds ledger := by
  have hclaimed : ∀ {movesExpiry : List String} {p : ClaimRow → Bool},
      (((claimTable movesExpiry).scan (some taskTableSize) ledger).find? p).map ClaimRow.claimed =
        some task → task.taskId ∈ packageIds ledger := by
    intro movesExpiry p h
    obtain ⟨row, hrow, rfl⟩ := Option.map_eq_some_iff.mp h
    have hmem := (claimTable movesExpiry).mem_scan_iff.mp (List.mem_of_find?_eq_some hrow)
    exact (claimTable movesExpiry).mem_firstSeen_iff.mpr (Option.isSome_of_eq_some hmem.2)
  cases claim with
  | assigned agentName =>
    unfold Claim.find at h
    dsimp only at h
    split at h
    · cases h
    · unfold wtTaskFindClaimableForAgent at h
      split at h
      · rename_i queued hqueued
        cases h
        have hmem := mem_scanQueued_iff.mp (List.mem_of_find?_eq_some hqueued)
        exact List.mem_of_mem_take hmem.1
      · exact hclaimed h
  | remote agentName host => exact hclaimed h

theorem length_of_mem_packageIds (h : taskId ∈ packageIds ledger) : taskId.length < wtTaskIdSize := by
  have hsome : (queuedTable.history ledger taskId).isSome :=
    queuedTable.history_isSome_iff.mpr (mem_packageIds_iff.mp h)
  obtain ⟨⟨package, lines⟩, hhist⟩ := Option.isSome_iff_exists.mp hsome
  obtain ⟨-, -, hkey⟩ := queuedTable.history_creates hhist
  rw [queuedTable_key] at hkey
  exact lineTaskId_length hkey

theorem ReclaimLines.mem_packageIds {task : WtTaskSummary} {lease : LeaseScan} {nowUnixMs : Int}
    {lines : Ledger} (hlines : ReclaimLines task lease nowUnixMs now lines)
    (h : taskId ∈ packageIds ledger) : taskId ∈ packageIds (ledger ++ lines) := by
  unfold ReclaimLines at hlines
  split at hlines
  · obtain ⟨a, b, c, d, e, -, rfl⟩ := hlines
    rwa [packageIds_append_event reclaimRecord_schema]
  · rwa [hlines, List.append_nil]

theorem ReclaimLines.agree {task : WtTaskSummary} {lease : LeaseScan} {nowUnixMs : Int}
    {lines : Ledger} (hlines : ReclaimLines task lease nowUnixMs now lines)
    (h : AttemptsAgree ledger taskId) : AttemptsAgree (ledger ++ lines) taskId ∧
      leaseAttempts (ledger ++ lines) taskId = leaseAttempts ledger taskId := by
  have hnot := hlines.not_isLeaseLine
  unfold ReclaimLines at hlines
  split at hlines
  · obtain ⟨a, b, c, d, e, -, rfl⟩ := hlines
    exact h.append (by simpa using hnot _ (List.mem_singleton_self _))
      (CountsAsLease.not_event reclaimRecord_schema)
  · subst hlines
    rw [List.append_nil]
    exact ⟨h, rfl⟩

/-- A claim of a countable task keeps the numbers the same. -/
theorem Claim.attempts_agree {claim : Claim} {duration : Int} {times : ClaimTimes}
    (h : ∀ taskId, AttemptsAgree ledger taskId)
    (hcount : ∀ task, claim.Grants ledger (claim.nowUnixMs times.start) task →
      Countable ledger task.taskId) (taskId : Bytes) :
    AttemptsAgree (claim.run duration ledger times).1 taskId := by
  by_cases hgrants : ∃ task, claim.Grants ledger (claim.nowUnixMs times.start) task
  · obtain ⟨task, hgrants⟩ := hgrants
    obtain ⟨hnamed, hreads, hfits⟩ := hcount task hgrants
    have hmem := Claim.mem_packageIds_of_find hgrants.found
    rw [Claim.run_of_grants hgrants]
    rcases @Claim.leaseTask_ledger ledger claim duration times task with hkept | ⟨lines, hlines, hreclaimed⟩ | hleased
    · rw [hkept]
      exact h taskId
    · rw [hreclaimed]
      exact (hlines.agree (h taskId)).1
    · obtain ⟨lines, a, b, c, hlines, ha, hledger⟩ := hleased
      have hsame := (hlines.agree (h task.taskId)).2
      rw [hledger, ← List.append_assoc]
      refine AttemptsAgree.append_lease (fun other => (hlines.agree (h other)).1) hnamed ?_
        (ha.trans hreads) ?_ ?_ ?_ taskId
      · exact length_of_mem_packageIds hmem
      · rw [hsame]
        exact hfits
      · exact projectedRow_isSome (hlines.mem_packageIds hmem)
      · rw [hsame, (h task.taskId).active]
        exact toInt32_eq_iff.mpr (by omega)
  · rw [Claim.run_of_not_grants fun task htask => hgrants ⟨task, htask⟩]
    exact h taskId

end claim

/-! ## Along a history -/

theorem handleAssignedTask_ledger (config : WtConfig) (agentName : Bytes) (ledger : Ledger)
    (times : ClaimTimes) :
    handleAssignedTask config agentName ledger times (fun _ ledger => ledger) =
      ((Claim.assigned agentName).run config.leaseDurationSeconds ledger times).1 := by
  unfold handleAssignedTask
  split <;> rename_i hrun <;> rw [hrun]

theorem HistoryStep.agree {ledger : Ledger} {step : HistoryStep}
    (h : ∀ taskId, AttemptsAgree ledger taskId) (hcounted : step.Counted ledger) (taskId : Bytes) :
    AttemptsAgree (HistoryStep.apply ledger step) taskId := by
  cases step with
  | record line hlease => exact ((h taskId).append hlease hcounted).1
  | assigned config agentName times =>
    rw [HistoryStep.apply, handleAssignedTask_ledger]
    exact Claim.attempts_agree h hcounted taskId
  | remote config request auth times =>
    rw [HistoryStep.apply]
    unfold handlePostRemoteClaim
    split
    · exact h taskId
    · rename_i agent host hrequest
      split
      · exact h taskId
      · rename_i hauth
        exact Claim.attempts_agree h (hcounted agent host hrequest (by simpa using hauth)) taskId

/-- **Along a history whose claims are of countable tasks and in which no request counts as a
lease, the lease events of every task are numbered from one and both readers count them.** -/
theorem attempts_agree_along {steps : List HistoryStep}
    (h : Along HistoryStep.apply (fun ledger step => step.Counted ledger) [] steps)
    (taskId : Bytes) : AttemptsAgree (run HistoryStep.apply [] steps) taskId := by
  have hstep : ∀ (ledger : Ledger) (step : HistoryStep), (∀ taskId, AttemptsAgree ledger taskId) →
      step.Counted ledger → ∀ taskId, AttemptsAgree (HistoryStep.apply ledger step) taskId :=
    fun _ _ hagree hcounted => HistoryStep.agree hagree hcounted
  exact run_invariant hstep (fun _ => ⟨by simp [leaseAttempts], rfl, rfl⟩) h taskId

/-! ### A claim of a named and of an unnamed task -/

theorem not_isLeaseLine_package {taskId agent : Literal} :
    isLeaseLine (recordLine (packageRecord taskId agent)) = false := by
  rw [Bool.eq_false_iff]
  intro hlease
  simp only [isLeaseLine, Bool.and_eq_true] at hlease
  exact absurd (taskEvent_ne_taskPackage hlease.1) (by rw [packageRecord_schema]; decide)

/-- A package of the task, and a claim of its agent. -/
def claimOf (taskId : Literal) : List HistoryStep :=
  [.record (recordLine (packageRecord taskId (.ofPlain "claude"))) not_isLeaseLine_package,
    .assigned {} (bytes "claude") earlyTimes]

theorem attempts_agree_along_claimed :
    AttemptsAgree (run HistoryStep.apply [] (claimOf (.ofPlain "t1"))) (bytes "t1") := by
  have hcounted : Along HistoryStep.apply (fun ledger step => step.Counted ledger) []
      (claimOf (.ofPlain "t1")) := by
    refine ⟨fun hcounts => ?_, fun task hgrants => ?_, trivial⟩
    · exact absurd hcounts.schema (by decide +kernel)
    have hfound := hgrants.found
    have htask : (Claim.find [claudeTaskLine] 1000 (.assigned (bytes "claude"))).map
        WtTaskSummary.taskId = some (bytes "t1") := by decide +kernel
    have hid : task.taskId = bytes "t1" := by
      change Claim.find [claudeTaskLine] 1000 (.assigned (bytes "claude")) = some task at hfound
      rw [hfound] at htask
      exact Option.some.inj htask
    rw [hid]
    exact ⟨by decide, by decide, by decide +kernel⟩
  exact attempts_agree_along hcounted (bytes "t1")

/-- The projection knows no lease of the task of the empty id. -/
theorem not_attempts_agree :
    ¬ ∀ steps taskId, AttemptsAgree (run HistoryStep.apply [] steps) taskId := by
  intro h
  have hprojected := (h (claimOf (.ofPlain "")) []).projected
  have hrow : projectedAttempts (run HistoryStep.apply [] (claimOf (.ofPlain ""))) [] = 0 := by
    decide +kernel
  have hevents : (leaseAttempts (run HistoryStep.apply [] (claimOf (.ofPlain ""))) []).length = 1 := by
    decide +kernel
  rw [hrow, hevents] at hprojected
  cases hprojected

end WovenTeam

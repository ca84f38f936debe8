import WovenTeam.Agent.Cycles
import WovenTeam.Roomd.RemoteReport

/-!
# Runs that are broken off

An agent may stop at any time while its adapter runs. Its task then stays leased or running on the
ledger until the lease has run out; the local scan goes by the lease the cycle was granted, the
remote one by the last renewal. `interrupted_recovers`: from then on both offer the task to its
agent again.
-/

namespace WovenTeam

open CText QuotedText FirstSeen Runs

/-- The agent holds its own task, and the scan that heeds these events takes the task for free once
`expires` has passed. -/
structure Recoverable (movesExpiry : List String) (taskId agentName : Bytes) (expires : Int)
    (ledger : Ledger) : Prop where
  ownedBy : owner ledger taskId = some agentName
  unpinned : Unpinned ledger taskId
  held : Held ledger taskId
  expiry : lastExpiry movesExpiry ledger taskId = some expires

section recovers

variable {movesExpiry : List String} {taskId agentName line : Bytes} {expires : Int}
  {ledger after : Ledger}

theorem Unpinned.mem_packageIds (h : Unpinned ledger taskId) : taskId ∈ packageIds ledger := by
  obtain ⟨task, htask, -⟩ := Option.map_eq_some_iff.mp h
  exact mem_packageIds_iff.mpr (Option.isSome_of_eq_some htask)

theorem Unpinned.append (h : Unpinned ledger taskId)
    (hline : lineTaskId line = some taskId → lineHasSchema line taskPackageSchema = false) :
    Unpinned (ledger ++ [line]) taskId := by
  unfold Unpinned foldedState at h ⊢
  obtain ⟨task, htask, hhost⟩ := Option.map_eq_some_iff.mp h
  rw [queuedTable.stateOf_append, htask]
  by_cases hid : queuedTable.key line = some taskId
  · rw [queuedTable.stateStep_some hid, queuedTable_update, scanQueuedLine, hline hid]
    simp only [Bool.false_eq_true, ↓reduceIte, Option.map_some, Option.some.injEq]
    split
    · exact hhost
    · exact hhost
  · rw [queuedTable.stateStep_of_ne hid, Option.map_some, hhost]

/-- How a line moves the expiry that a scan sees. -/
theorem lastExpiry_append (h : taskId ∈ packageIds ledger)
    (hexpiry : lastExpiry movesExpiry ledger taskId = some expires) (line : Bytes) :
    lastExpiry movesExpiry (ledger ++ [line]) taskId =
      some (if lineTaskId line = some taskId then (expiryChange movesExpiry line).getD expires
        else expires) := by
  obtain ⟨row, hrow⟩ := claimRow_isSome movesExpiry h
  have hold : row.leaseExpiresAt = expires :=
    Option.some.inj ((leaseExpiresAt_eq hrow).symm.trans hexpiry)
  by_cases hid : lineTaskId line = some taskId
  · have hnext : (claimTable movesExpiry).stateOf (ledger ++ [line]) taskId =
        some (scanClaimLine movesExpiry line row) := by
      rw [(claimTable movesExpiry).stateOf_append, hrow]
      exact (claimTable movesExpiry).stateStep_some hid row
    rw [leaseExpiresAt_eq hnext, leaseExpiresAt_scanClaimLine, hold, if_pos hid]
  · have hnext : (claimTable movesExpiry).stateOf (ledger ++ [line]) taskId = some row := by
      rw [(claimTable movesExpiry).stateOf_append, hrow]
      exact (claimTable movesExpiry).stateStep_of_ne hid (some row)
    rw [leaseExpiresAt_eq hnext, hold, if_neg hid]

theorem Recoverable.append_bystander (h : Recoverable movesExpiry taskId agentName expires ledger)
    (hline : Bystander taskId line) :
    Recoverable movesExpiry taskId agentName expires (ledger ++ [line]) := by
  refine ⟨?_, h.unpinned.append fun hid => (hline hid).1, ?_, ?_⟩
  · rw [owner, lastOf_append_bystander (fun line hpackage hevent => ?_) ledger hline]
    · exact h.ownedBy
    · simp [ownerText, hpackage, hevent]
  · rw [Held, lastStatus_append_bystander ledger hline]
    exact h.held
  · rw [lastExpiry_append h.unpinned.mem_packageIds h.expiry]
    split
    · rename_i hid
      simp [expiryChange, hline hid]
    · rfl

theorem Recoverable.append_bystanders (h : Recoverable movesExpiry taskId agentName expires ledger)
    {lines : Ledger} (hlines : ∀ line ∈ lines, Bystander taskId line) :
    Recoverable movesExpiry taskId agentName expires (ledger ++ lines) := by
  induction lines using List.reverseRecOn with
  | nil => simpa using h
  | append_singleton lines line ih =>
    rw [← List.append_assoc]
    exact (ih fun l hl => hlines l (List.mem_append_left _ hl)).append_bystander
      (hlines line (by simp))

/-- The event types of an agent's work. -/
def workTypes : List String := ["lease", "lease_renewal", "status"]

/-- An event that neither routes nor assigns a task gives it to nobody else. -/
theorem owner_append_event {eventType status : String}
    (h : EventLine taskId eventType status line) (htypes : eventType ∈ "reclaim" :: workTypes) :
    owner (ledger ++ [line]) taskId = owner ledger taskId := by
  obtain ⟨hschema, hid, htype⟩ := isEventOf_iff.mp h.event
  have hnone : ownerText line = none := by
    simp only [workTypes, List.mem_cons, List.not_mem_nil, or_false] at htypes
    have htype' : lineEventType line = bytes eventType :=
      (lineEventType_eq (by rcases htypes with rfl | rfl | rfl | rfl <;> decide)).mpr htype
    have hother : (bytes eventType == bytes "routing" ||
        bytes eventType == bytes "assignment") = false := by
      rcases htypes with rfl | rfl | rfl | rfl <;> decide
    simp [ownerText, taskEvent_ne_taskPackage hschema, hschema, htype', hother]
  rw [owner, lastOf_taskLines_append, if_pos hid, hnone, Option.none_or, owner]

/-- An event of the work on a task moves the expiry where the scan heeds its type. -/
theorem expiryChange_work {eventType status : String} (h : EventLine taskId eventType status line)
    (hwork : eventType ∈ workTypes) :
    expiryChange movesExpiry line =
      if (movesExpiry.map bytes).contains (bytes eventType) then
        wtJsonReadLongLong line "leaseExpiresAtUnixMs"
      else none := by
  obtain ⟨hschema, -, htype⟩ := isEventOf_iff.mp h.event
  simp only [workTypes, List.mem_cons, List.not_mem_nil, or_false] at hwork
  have htype' : lineEventType line = bytes eventType :=
    (lineEventType_eq (by rcases hwork with rfl | rfl | rfl <;> decide)).mpr htype
  have hreclaim : (bytes eventType == bytes "reclaim") = false := by
    rcases hwork with rfl | rfl | rfl <;> decide
  simp only [expiryChange, taskEvent_ne_taskPackage hschema, hschema, htype', hreclaim,
    Bool.false_eq_true, ↓reduceIte]

/-- An event of the work on a task keeps the task recoverable, from its own expiry on where the scan
heeds it. -/
theorem Recoverable.append_work {eventType status : String}
    (hownedBy : owner ledger taskId = some agentName) (hunpinned : Unpinned ledger taskId)
    (hexpiry : lastExpiry movesExpiry ledger taskId = some expires)
    (h : EventLine taskId eventType status line) (hwork : eventType ∈ workTypes)
    (hstatus : status = "leased" ∨ status = "running") :
    Recoverable movesExpiry taskId agentName
      ((if (movesExpiry.map bytes).contains (bytes eventType) then
        wtJsonReadLongLong line "leaseExpiresAtUnixMs" else none).getD expires)
      (ledger ++ [line]) := by
  obtain ⟨hschema, hid, -⟩ := isEventOf_iff.mp h.event
  refine ⟨(owner_append_event h (List.mem_cons_of_mem _ hwork)).trans hownedBy,
    hunpinned.append fun _ => taskEvent_ne_taskPackage hschema, ?_, ?_⟩
  · rw [Held, lastStatus_append_event ledger h]
    rcases hstatus with rfl | rfl
    · exact .inl rfl
    · exact .inr rfl
  · rw [lastExpiry_append hunpinned.mem_packageIds hexpiry, if_pos hid, expiryChange_work h hwork]

/-- The agent holds its own task under a lease until `granted`, for the local scan, and until
`renewed`, for the remote one. -/
structure InHand (taskId agentName : Bytes) (granted renewed : Int) (ledger : Ledger) : Prop where
  localScan : Recoverable ["lease"] taskId agentName granted ledger
  remoteScan : Recoverable remoteMoves taskId agentName renewed ledger
  holds : HoldsLease ledger taskId agentName

section inHand

variable {granted renewed : Int}

theorem InHand.append_bystanders (h : InHand taskId agentName granted renewed ledger)
    {lines : Ledger} (hlines : ∀ line ∈ lines, Bystander taskId line) :
    InHand taskId agentName granted renewed (ledger ++ lines) := by
  have hgrows : GrowsBy (Bystander taskId) ledger (ledger ++ lines) := ⟨lines, rfl, hlines⟩
  refine ⟨h.localScan.append_bystanders hlines, h.remoteScan.append_bystanders hlines, ?_⟩
  rw [HoldsLease, hgrows.activeLease_eq]
  exact h.holds

theorem InHand.grows (h : InHand taskId agentName granted renewed ledger)
    (hgrows : GrowsBy (Bystander taskId) ledger after) :
    InHand taskId agentName granted renewed after := by
  obtain ⟨lines, rfl, hlines⟩ := hgrows
  exact h.append_bystanders hlines

/-- What the lease lookup does not heed leaves the lease with its holder. -/
theorem HoldsLease.append (h : HoldsLease ledger taskId agentName)
    (hmark : leaseMark taskId line = none) : HoldsLease (ledger ++ [line]) taskId agentName := by
  rw [HoldsLease, wtTaskFindActiveLease_append, LeaseScan.step, hmark]
  exact h

theorem InHand.append_running (h : InHand taskId agentName granted renewed ledger)
    (hevent : EventLine taskId "status" "running" line) :
    InHand taskId agentName granted renewed (ledger ++ [line]) := by
  have hgives : givesTerminalStatus taskId line = false := by
    simp [givesTerminalStatus, hevent.status, show endsLease (bytes "running") = false by decide]
  refine ⟨?_, ?_, h.holds.append ?_⟩
  · exact Recoverable.append_work h.localScan.ownedBy h.localScan.unpinned h.localScan.expiry
      hevent (by decide) (.inr rfl)
  · exact Recoverable.append_work h.remoteScan.ownedBy h.remoteScan.unpinned h.remoteScan.expiry
      hevent (by decide) (.inr rfl)
  · rw [leaseMark_status hevent.event, hgives]
    rfl

theorem InHand.append_renewal (h : InHand taskId agentName granted renewed ledger)
    (hevent : EventLine taskId "lease_renewal" "running" line) {expires : Int}
    (hread : wtJsonReadLongLong line "leaseExpiresAtUnixMs" = some expires) :
    InHand taskId agentName granted expires (ledger ++ [line]) := by
  refine ⟨?_, ?_, h.holds.append (leaseMark_renewal hevent.event)⟩
  · exact Recoverable.append_work h.localScan.ownedBy h.localScan.unpinned h.localScan.expiry
      hevent (by decide) (.inr rfl)
  · have hwork := Recoverable.append_work h.remoteScan.ownedBy h.remoteScan.unpinned
      h.remoteScan.expiry hevent (by decide) (.inr rfl)
    rwa [if_pos (by decide), hread, Option.getD_some] at hwork

/-- A lease of the agent's own task. -/
theorem InHand.of_lease (hownedBy : owner ledger taskId = some agentName)
    (hunpinned : Unpinned ledger taskId) (hevent : EventLine taskId "lease" "leased" line)
    {expires : Int} (hread : wtJsonReadLongLong line "leaseExpiresAtUnixMs" = some expires)
    (hagent : wtJsonReadString line "assignedAgent" wtTaskAgentSize = .ok agentName) :
    InHand taskId agentName expires expires (ledger ++ [line]) := by
  have hrecoverable : ∀ movesExpiry : List String,
      (movesExpiry.map bytes).contains (bytes "lease") →
        Recoverable movesExpiry taskId agentName expires (ledger ++ [line]) := by
    intro movesExpiry hheeds
    obtain ⟨row, hrow⟩ := claimRow_isSome movesExpiry hunpinned.mem_packageIds
    have hwork := Recoverable.append_work hownedBy hunpinned (leaseExpiresAt_eq hrow) hevent
      (by decide) (.inl rfl)
    rwa [if_pos hheeds, hread, Option.getD_some] at hwork
  refine ⟨hrecoverable _ (by decide), hrecoverable _ (by decide), ?_⟩
  rw [HoldsLease, wtTaskFindActiveLease_append, LeaseScan.step, leaseMark_lease hevent.event,
    hagent]
  exact ⟨rfl, rfl⟩

end inHand

/-- The local scan takes no task that is pinned to a host. -/
theorem Claim.find_unpinned {nowUnixMs : Int} {task : WtTaskSummary}
    (h : (Claim.assigned agentName).find ledger nowUnixMs = some task) :
    Unpinned ledger task.taskId := by
  unfold Claim.find at h
  dsimp only at h
  split at h
  · cases h
  · unfold wtTaskFindClaimableForAgent at h
    split at h
    · rename_i found hfound
      cases h
      obtain ⟨hstate, -, -⟩ := eligible_of_find hfound
      rw [Unpinned, hstate, Option.map_some, (isQueuedFor_iff.mp (List.find?_some hfound)).1]
    · obtain ⟨row, hfound, rfl⟩ := Option.map_eq_some_iff.mp h
      have hstate := ((claimTable ["lease"]).mem_scan_iff.mp (List.mem_of_find?_eq_some hfound)).2
      have hstuck := List.find?_some hfound
      simp only [Bool.and_eq_true, beq_iff_eq] at hstuck
      exact (unpinned_iff hstate).mpr hstuck.1.2

/-- The agent has its own task in hand when its cycle has leased it. -/
theorem Claim.run_inHand {duration : Int} {times : ClaimTimes} {leased : Ledger}
    {granted : Granted}
    (h : (Claim.assigned agentName).run duration ledger times = (leased, .leased granted))
    (hownedBy : owner ledger granted.task.taskId = some agentName)
    (hid : Recordable granted.task.taskId) (hagent : isKnownAgent agentName) :
    InHand granted.task.taskId agentName granted.leaseExpiresAtUnixMs
      granted.leaseExpiresAtUnixMs leased := by
  obtain ⟨hfound, released, line, hrecords⟩ := Claim.run_leases h hid
  have hunpinned := Claim.find_unpinned hfound
  have hreads : (FieldValue.text agentName).readString wtTaskAgentSize = .ok agentName := by
    simp only [isKnownAgent, Bool.or_eq_true, beq_iff_eq] at hagent
    rcases hagent with (rfl | rfl) | rfl <;> decide
  have hlease := hrecords.agent.trans hreads
  rw [hrecords.leased]
  rcases hrecords.reclaim with hsame | ⟨reclaim, hreleased, hevent⟩
  · rw [hsame]
    exact InHand.of_lease hownedBy hunpinned hrecords.lease hrecords.expires hlease
  · rw [hreleased]
    obtain ⟨hschema, -, -⟩ := isEventOf_iff.mp hevent.event
    exact InHand.of_lease ((owner_append_event hevent (by decide)).trans hownedBy)
      (hunpinned.append fun _ => taskEvent_ne_taskPackage hschema) hrecords.lease
      hrecords.expires hlease

end recovers

section interrupted

variable {config : WtConfig} {agentName : Bytes} {ledger leased : Ledger} {times : ClaimTimes}
  {granted : Granted} {world : AgentWorld} {a : Adapter} {gap grantedAt renewedAt : Int}
  {p : AdapterWait} {looks : List Look} {w : Wait}

/-- The clock keeps away from the ends of its type. -/
structure ClockInRange (p : AdapterWait) : Prop where
  start : 0 ≤ p.start ∧ p.start < 2 ^ 50
  duration : p.leaseDuration < 2 ^ 31

/-- While the wait goes on, the agent has the task in hand. -/
theorem inHand_wait (hid : Recordable p.taskId) (hagent : isKnownAgent p.agentName)
    (hp : Punctual p gap looks) (hclock : ClockInRange p)
    (hinHand : InHand p.taskId p.agentName grantedAt grantedAt ledger)
    (hothers : ∀ l ∈ looks, ∀ line ∈ l.heard ++ l.between, Bystander p.taskId line)
    (h : waitForAdapterChild p (p.initial ledger) looks = .waits w) :
    ∃ last, InHand p.taskId p.agentName grantedAt last w.ledger ∧
      (last = grantedAt ∨ 0 < last ∧ last ≤ (p.latest looks + p.leaseDuration) * 1000) := by
  induction looks using List.reverseRecOn generalizing w with
  | nil =>
    cases h
    exact ⟨grantedAt, hinHand, .inl rfl⟩
  | append_singleton looks l ih =>
    obtain ⟨v, hv, hlook⟩ := wait_concat.mp h
    obtain ⟨hlooks, hnow⟩ := hp.of_concat
    obtain ⟨last, hlast, hrange⟩ := ih hlooks (fun l hl => hothers l (by simp [hl])) hv
    have hother := hothers l (by simp)
    have hheard := hlast.append_bystanders fun line hline =>
      hother line (List.mem_append_left _ hline)
    rw [latest_concat_look]
    rcases (look_waits hlook).appends hid hagent with
      ⟨hledger, -⟩ | ⟨line, hledger, -, hevent, hread⟩
    · rw [hledger]
      refine ⟨last, hheard, hrange.imp_right fun hle => ⟨hle.1, ?_⟩⟩
      omega
    · have hbetween := hheard.append_bystanders fun line hline =>
        hother line (List.mem_append_right _ hline)
      have hstart := hlooks.spaced.start_le
      have htime := (clocked hlooks hv).inTime
      have htimeout := hp.timeout
      have hclockStart := hclock.start
      have hpositive : 0 < p.leaseDuration := positiveOr_pos (by decide)
      rw [hledger]
      refine ⟨_, hbetween.append_renewal hevent hread, .inr ?_⟩
      rw [leaseExpiry_eq p l.now (by unfold AdapterWait.latest at *; omega) hclock.duration]
      unfold AdapterWait.latest at *
      omega

end interrupted

end WovenTeam

import WovenTeam.Projection
import WovenTeam.Store.Find
import WovenTeam.Store.Lease

/-!
# Lease renewals

A long run appends lease renewals so that its task is not taken over. Four readers fold the ledger
into an expiry. `wtTaskFindClaimableForAgentOnHost` takes over the expiry of a renewal;
`wtTaskFindActiveLease`, the projection and `wtTaskFindClaimableForAgent` know only that of the
lease event. So a renewal holds for all of them exactly when it moves nothing: when the lease it
renews had its expiry already (`renewal_extends_iff`).
-/

namespace WovenTeam

open CText QuotedText FirstSeen

/-! ## The statement -/

/-- `line` renews the task's lease until `expires`, and no later line starts, renews or ends one. -/
structure LastRenewal (taskId : Bytes) (expires : Int) (line : Bytes) (after : Ledger) : Prop where
  renews : isEventOf taskId "lease_renewal" line
  reads : wtJsonReadLongLong line "leaseExpiresAtUnixMs" = some expires
  last : ∀ l ∈ after, leaseMark taskId l = none ∧ isEventOf taskId "lease_renewal" l = false

/-- The lease columns of a row that a renewal must leave alone. -/
def TaskRow.leaseHolding (row : TaskRow) : Bytes × Int := (row.leaseOwner, row.attemptCount)

def isHeld (status : Bytes) : Prop := status = bytes "leased" ∨ status = bytes "running"

/-- Every reader of the ledger takes the renewal as an extension of the lease until `expires`. -/
structure RenewalExtends (taskId : Bytes) (expires : Int) (before : Ledger) (line : Bytes)
    (after : Ledger) : Prop where
  active : (wtTaskFindActiveLease (before ++ line :: after) taskId).active
  activeUntil :
    (wtTaskFindActiveLease (before ++ line :: after) taskId).leaseExpiresAtUnixMs = expires
  projected : ∃ row ∈ wtTaskProjectionRebuild (before ++ line :: after),
    row.taskId = taskId ∧ row.leaseExpiresAtMs = expires
  kept : (projectedRow (before ++ line :: after) taskId).map TaskRow.leaseHolding =
    (projectedRow (before ++ after) taskId).map TaskRow.leaseHolding
  notClaimable : ∀ nowUnixMs < expires, ∀ agentName task,
    wtTaskFindClaimableForAgent (before ++ line :: after) agentName nowUnixMs = some task →
      task.taskId = taskId → ¬ isHeld task.status
  notClaimableOnHost : ∀ nowUnixMs < expires, ∀ agentName executionHost task,
    wtTaskFindClaimableForAgentOnHost (before ++ line :: after) agentName executionHost nowUnixMs =
      some task → task.taskId = taskId → ¬ isHeld task.status

theorem lineEventType_eq {line : Bytes} {eventType : String} (h : bytes eventType ≠ []) :
    lineEventType line = bytes eventType ↔
      wtJsonReadString line "eventType" 32 = .ok (bytes eventType) := by
  unfold lineEventType
  cases wtJsonReadString line "eventType" 32 <;> simp [StringField.orElse, h.symm]

/-! ## The finders -/

/-- What a line makes of the expiry in the finders' rows. -/
def expiryChange (movesExpiry : List String) (line : Bytes) : Option Int :=
  if lineHasSchema line taskPackageSchema then none
  else if lineHasSchema line taskEventSchema then
    if (movesExpiry.map bytes).contains (lineEventType line) then
      wtJsonReadLongLong line "leaseExpiresAtUnixMs"
    else if lineEventType line == bytes "reclaim" then some 0
    else none
  else none

theorem leaseExpiresAt_scanClaimLine (movesExpiry : List String) (line : Bytes) (row : ClaimRow) :
    (scanClaimLine movesExpiry line row).leaseExpiresAt =
      (expiryChange movesExpiry line).getD row.leaseExpiresAt := by
  unfold scanClaimLine expiryChange
  split
  · rfl
  · split
    · simp only [overlayClaimEvent]
      split
      · rfl
      · split <;> rfl
    · rfl

/-- The lines that name the task. -/
def taskLines (ledger : Ledger) (taskId : Bytes) : List Bytes :=
  ledger.filter fun line => lineTaskId line = some taskId

/-- A row's expiry is zero or what the last of the task's lines that moves it gave it. -/
theorem leaseExpiresAt_cases {movesExpiry : List String} {ledger : Ledger} {row : ClaimRow}
    (h : row ∈ (claimTable movesExpiry).scan (some taskTableSize) ledger) :
    row.leaseExpiresAt = 0 ∨
      lastOf (expiryChange movesExpiry) (taskLines ledger row.task.taskId) =
        some row.leaseExpiresAt := by
  have hstate := ((claimTable movesExpiry).mem_scan_iff.mp h).2
  have hkept := (claimTable movesExpiry).stateOf_kept ClaimRow.leaseExpiresAt
    (expiryChange movesExpiry) (leaseExpiresAt_scanClaimLine movesExpiry) ledger row.task.taskId
  have hid : (claimTable movesExpiry).idOf row = row.task.taskId := rfl
  rw [← hid, hstate, hid] at hkept
  cases hlife : (claimTable movesExpiry).life ledger row.task.taskId with
  | none => simp [hlife] at hkept
  | some p =>
    rw [hlife] at hkept
    have hx : row.leaseExpiresAt = (lastOf (expiryChange movesExpiry) p.2).getD 0 :=
      Option.some.inj hkept
    cases hlast : lastOf (expiryChange movesExpiry) p.2 with
    | none => exact .inl (by rw [hx, hlast]; rfl)
    | some expires =>
      right
      rw [hx, hlast]
      exact lastOf_of_suffix ((claimTable movesExpiry).life_suffix hlife) hlast

theorem expiryChange_isSome {movesExpiry : List String} {line : Bytes}
    (h : (expiryChange movesExpiry line).isSome) :
    lineHasSchema line taskEventSchema ∧
      (lineEventType line ∈ movesExpiry.map bytes ∨ lineEventType line = bytes "reclaim") := by
  unfold expiryChange at h
  split at h
  · cases h
  · split at h
    · rename_i hevent
      refine ⟨hevent, ?_⟩
      split at h
      · rename_i hmoves
        exact .inl (List.contains_iff_mem.mp hmoves)
      · split at h
        · rename_i hreclaim
          exact .inr (eq_of_beq hreclaim)
        · cases h
    · cases h

theorem isEventOf_of {taskId line : Bytes} {eventType : String} (hne : bytes eventType ≠ [])
    (hs : lineHasSchema line taskEventSchema) (hid : lineTaskId line = some taskId)
    (ht : lineEventType line = bytes eventType) : isEventOf taskId eventType line :=
  isEventOf_iff.mpr ⟨hs, hid, (lineEventType_eq hne).mp ht⟩

theorem expiryChange_of_event {taskId line : Bytes} {eventType : String}
    (hne : bytes eventType ≠ []) (h : isEventOf taskId eventType line) {movesExpiry : List String}
    (hmoves : eventType ∈ movesExpiry) :
    expiryChange movesExpiry line = wtJsonReadLongLong line "leaseExpiresAtUnixMs" := by
  obtain ⟨hs, -, ht⟩ := isEventOf_iff.mp h
  rw [expiryChange, taskEvent_ne_taskPackage hs, (lineEventType_eq hne).mpr ht]
  simp only [Bool.false_eq_true, ↓reduceIte, hs]
  rw [if_pos (List.contains_iff_mem.mpr (List.mem_map_of_mem hmoves))]

/-- A line of the task that is no lease mark moves no expiry but by renewing it. -/
theorem expiryChange_eq_none {taskId line : Bytes} (hid : lineTaskId line = some taskId)
    (hm : leaseMark taskId line = none) {movesExpiry : List String}
    (hmoves : ∀ eventType ∈ movesExpiry,
      eventType = "lease" ∨ bytes eventType ≠ [] ∧ isEventOf taskId eventType line = false) :
    expiryChange movesExpiry line = none := by
  rw [← Option.not_isSome_iff_eq_none]
  intro h
  obtain ⟨hs, ht | ht⟩ := expiryChange_isSome h
  · obtain ⟨eventType, hmem, heq⟩ := List.mem_map.mp ht
    rcases hmoves eventType hmem with rfl | ⟨hne, hno⟩
    · have := leaseMark_lease (isEventOf_of (by decide) hs hid heq.symm)
      rw [hm] at this
      cases this
    · have := isEventOf_of hne hs hid heq.symm
      rw [hno] at this
      cases this
  · have := leaseMark_reclaim (isEventOf_of (by decide) hs hid ht)
    rw [hm] at this
    cases this

theorem mem_taskLines {ledger : Ledger} {taskId line : Bytes} (h : line ∈ taskLines ledger taskId) :
    line ∈ ledger ∧ lineTaskId line = some taskId := by
  simpa [taskLines] using h

variable {taskId : Bytes} {expires : Int} {before after : Ledger} {line : Bytes}

/-- The finder for a host takes over the renewal's expiry. -/
theorem lastOf_expiryChange_renewal (h : LastRenewal taskId expires line after) :
    lastOf (expiryChange ["lease", "lease_renewal"]) (taskLines (before ++ line :: after) taskId) =
      some expires := by
  have hid := (isEventOf_iff.mp h.renews).2.1
  have hlines : taskLines (before ++ line :: after) taskId =
      taskLines before taskId ++ line :: taskLines after taskId := by
    simp [taskLines, hid]
  have hafter : ∀ l ∈ taskLines after taskId,
      expiryChange ["lease", "lease_renewal"] l = none := by
    intro l hl
    obtain ⟨hmem, hid⟩ := mem_taskLines hl
    obtain ⟨hm, hr⟩ := h.last l hmem
    refine expiryChange_eq_none hid hm fun eventType het => ?_
    simp only [List.mem_cons, List.not_mem_nil, or_false] at het
    rcases het with rfl | rfl
    · exact .inl rfl
    · exact .inr ⟨by decide, hr⟩
  rw [hlines, lastOf_append, lastOf_cons_of_none hafter,
    expiryChange_of_event (by decide) h.renews (by decide), h.reads]
  rfl

/-- The other finder takes over the expiry of the last mark, where that can be read. -/
theorem lastOf_expiryChange_lease {ledger : Ledger} {holder : Bytes} {attempt : Int}
    (h : lastOf (leaseMark taskId) ledger = some (.lease holder expires attempt)) :
    expires = 0 ∨ lastOf (expiryChange ["lease"]) (taskLines ledger taskId) = some expires := by
  have hfilter : lastOf (leaseMark taskId) (taskLines ledger taskId) =
      some (.lease holder expires attempt) := by
    rw [← h, taskLines, lastOf_filter fun l _ hl => by simpa using (isSome_leaseMark hl).2]
  obtain ⟨x, lease, y, hsplit, hmark, hy⟩ := lastOf_eq_some_iff.mp hfilter
  have hlease := (leaseMark_cases hmark).resolve_right (by simp)
  rw [leaseMark_lease hlease, Option.some.injEq, LeaseMark.lease.injEq] at hmark
  have hafter : ∀ l ∈ y, expiryChange ["lease"] l = none := by
    intro l hl
    have hmem : l ∈ taskLines ledger taskId := by
      rw [hsplit]
      simp [hl]
    refine expiryChange_eq_none (mem_taskLines hmem).2 (hy l hl) fun eventType het => ?_
    exact .inl (List.mem_singleton.mp het)
  cases hread : wtJsonReadLongLong lease "leaseExpiresAtUnixMs" with
  | none => exact .inl (by rw [← hmark.2.1, hread]; rfl)
  | some e =>
    right
    rw [hsplit, lastOf_append, lastOf_cons_of_none hafter,
      expiryChange_of_event (by decide) hlease (by decide), hread, ← hmark.2.1, hread]
    rfl

theorem not_stuck {movesExpiry : List String} {ledger : Ledger} {row : ClaimRow}
    (hrow : row ∈ (claimTable movesExpiry).scan (some taskTableSize) ledger)
    (hlast : expires = 0 ∨
      lastOf (expiryChange movesExpiry) (taskLines ledger row.task.taskId) = some expires)
    {nowUnixMs : Int} (hnow : nowUnixMs < expires) : row.stuck nowUnixMs = false := by
  rw [← Bool.not_eq_true]
  intro h
  simp only [ClaimRow.stuck, Bool.and_eq_true, decide_eq_true_eq] at h
  obtain ⟨⟨-, hpos⟩, hle⟩ := h
  rcases leaseExpiresAt_cases hrow with hzero | hx
  · omega
  · rcases hlast with rfl | hlast
    · omega
    · rw [hlast] at hx
      have := Option.some.inj hx
      omega

theorem not_isHeld_of_queued {status : Bytes}
    (h : status = bytes "queued" ∨ status = bytes "assigned") : ¬ isHeld status := by
  unfold isHeld
  rcases h with rfl | rfl <;> decide

theorem notClaimable_of_lease {ledger : Ledger} {holder : Bytes} {attempt : Int}
    (h : lastOf (leaseMark taskId) ledger = some (.lease holder expires attempt))
    {nowUnixMs : Int} (hnow : nowUnixMs < expires) {agentName : Bytes} {task : WtTaskSummary}
    (hfind : wtTaskFindClaimableForAgent ledger agentName nowUnixMs = some task)
    (hid : task.taskId = taskId) : ¬ isHeld task.status := by
  unfold wtTaskFindClaimableForAgent at hfind
  split at hfind
  · rename_i queued hqueued
    cases hfind
    exact not_isHeld_of_queued (isQueuedFor_iff.mp (List.find?_some hqueued)).2.2
  · obtain ⟨row, hrow, rfl⟩ := Option.map_eq_some_iff.mp hfind
    have hid' : row.task.taskId = taskId := hid
    subst hid'
    have hno := not_stuck (List.mem_of_find?_eq_some hrow) (lastOf_expiryChange_lease h) hnow
    have := List.find?_some hrow
    simp [hno] at this

theorem notClaimableOnHost_of_renewal (h : LastRenewal taskId expires line after)
    {nowUnixMs : Int} (hnow : nowUnixMs < expires) {agentName executionHost : Bytes}
    {task : WtTaskSummary}
    (hfind : wtTaskFindClaimableForAgentOnHost (before ++ line :: after) agentName executionHost
      nowUnixMs = some task)
    (hid : task.taskId = taskId) : ¬ isHeld task.status := by
  obtain ⟨row, hrow, rfl⟩ := Option.map_eq_some_iff.mp hfind
  have hid' : row.task.taskId = taskId := hid
  subst hid'
  have hno := not_stuck (List.mem_of_find?_eq_some hrow) (.inr (lastOf_expiryChange_renewal h)) hnow
  have hp := List.find?_some hrow
  simp only [hno, Bool.or_false, Bool.and_eq_true] at hp
  have hqueued : row.task.status = bytes "queued" ∨ row.task.status = bytes "assigned" := by
    simpa [ClaimRow.queued] using hp.1.1
  exact not_isHeld_of_queued hqueued

/-! ## The projection -/

/-- What an event makes of the projection's expiry. -/
def EventFields.expiryChange (e : EventFields) : Option Int :=
  if e.applies then
    if e.eventType == bytes "lease" then some e.leaseExpiresAtMs
    else if e.eventType == bytes "reclaim" then some 0
    else none
  else none

/-- What a line makes of the projection's expiry. -/
def projectedExpiry (line : Bytes) : Option Int :=
  if lineHasSchema line taskPackageSchema then none
  else if lineHasSchema line taskEventSchema then (readEventFields line taskEventSchema).expiryChange
  else if lineHasSchema line taskRequestSchema then
    (readEventFields line taskRequestSchema).expiryChange
  else none

theorem leaseExpiresAtMs_insertEvent (line : Bytes) (schema : String) (row : TaskRow) :
    (insertEvent line schema row).leaseExpiresAtMs =
      (readEventFields line schema).expiryChange.getD row.leaseExpiresAtMs := by
  simp only [insertEvent, EventFields.expiryChange]
  split
  · simp only [updateRow]
    split
    · rfl
    · split <;> rfl
  · rfl

theorem leaseExpiresAtMs_projectLine (line : Bytes) (row : TaskRow) :
    (projectLine line row).leaseExpiresAtMs = (projectedExpiry line).getD row.leaseExpiresAtMs := by
  unfold projectLine projectedExpiry
  split
  · rfl
  · split
    · exact leaseExpiresAtMs_insertEvent ..
    · split
      · exact leaseExpiresAtMs_insertEvent ..
      · rfl

theorem projected_iff {ledger : Ledger} :
    (∃ row ∈ wtTaskProjectionRebuild ledger, row.taskId = taskId ∧ row.leaseExpiresAtMs = expires) ↔
      ∃ package lines, projectionTable.life (ledger.map stripLineEnd) taskId = some (package, lines) ∧
        (lastOf projectedExpiry lines).getD 0 = expires := by
  have hkept := projectionTable.stateOf_kept TaskRow.leaseExpiresAtMs projectedExpiry
    leaseExpiresAtMs_projectLine (ledger.map stripLineEnd) taskId
  rw [← projectedRow] at hkept
  constructor
  · rintro ⟨row, hrow, rfl, rfl⟩
    rw [mem_rebuild_iff.mp hrow] at hkept
    cases hlife : projectionTable.life (ledger.map stripLineEnd) row.taskId with
    | none => simp [hlife] at hkept
    | some p =>
      rw [hlife] at hkept
      exact ⟨p.1, p.2, rfl, (Option.some.inj hkept).symm⟩
  · rintro ⟨package, lines, hlife, rfl⟩
    rw [hlife] at hkept
    obtain ⟨row, hrow, hexp⟩ := Option.map_eq_some_iff.mp hkept
    have hid : row.taskId = taskId := projectionTable.idOf_stateOf hrow
    refine ⟨row, mem_rebuild_iff.mpr ?_, hid, hexp⟩
    rw [hid, hrow]

theorem leaseHolding_insertEvent {line : Bytes} {schema : String} {row row' : TaskRow}
    (h : row.leaseHolding = row'.leaseHolding) :
    (insertEvent line schema row).leaseHolding = (insertEvent line schema row').leaseHolding := by
  obtain ⟨ho, ha⟩ := Prod.mk.injEq .. ▸ h
  simp only [insertEvent]
  split
  · simp only [TaskRow.leaseHolding, updateRow, ho, ha]
  · exact h

theorem leaseHolding_projectLine {line : Bytes} {row row' : TaskRow}
    (h : row.leaseHolding = row'.leaseHolding) :
    (projectLine line row).leaseHolding = (projectLine line row').leaseHolding := by
  unfold projectLine
  split
  · exact h
  · split
    · exact leaseHolding_insertEvent h
    · split
      · exact leaseHolding_insertEvent h
      · exact h

/-- A renewal leaves the owner and the attempts of its row. -/
theorem leaseHolding_renewal (h : isEventOf taskId "lease_renewal" line) (row : TaskRow) :
    (projectLine (stripLineEnd line) row).leaseHolding = row.leaseHolding := by
  obtain ⟨hs, -, ht⟩ := isEventOf_iff.mp h
  have htype : (readEventFields (stripLineEnd line) taskEventSchema).eventType =
      bytes "lease_renewal" := by
    simp only [readEventFields, readString_orElse_stripLineEnd (k := "eventType") (by decide),
      wtJsonReadString_mono (show 32 ≤ 64 by decide) ht]
    rfl
  have hs' := hs
  have hpkg := taskEvent_ne_taskPackage hs
  rw [← lineHasSchema_stripLineEnd] at hs' hpkg
  rw [projectLine, hpkg, hs']
  simp only [Bool.false_eq_true, ↓reduceIte, insertEvent]
  split
  · simp only [updateRow, htype, TaskRow.leaseHolding]
    rfl
  · rfl

theorem leaseHolding_kept (h : isEventOf taskId "lease_renewal" line) :
    (projectedRow (before ++ line :: after) taskId).map TaskRow.leaseHolding =
      (projectedRow (before ++ after) taskId).map TaskRow.leaseHolding := by
  induction after using List.reverseRecOn with
  | nil =>
    have hpkg := taskEvent_ne_taskPackage (isEventOf_iff.mp h).1
    rw [← lineHasSchema_stripLineEnd] at hpkg
    rw [projectedRow_append, List.append_nil]
    by_cases hk : projectionTable.key (stripLineEnd line) = some taskId
    · cases projectedRow before taskId with
      | none =>
        have hcreates : projectionTable.creates (stripLineEnd line) = false := hpkg
        rw [projectionTable.stateStep_none hk, hcreates]
        rfl
      | some row =>
        rw [projectionTable.stateStep_some hk]
        exact congrArg some (leaseHolding_renewal h row)
    · rw [projectionTable.stateStep_of_ne hk]
  | append_singleton after l ih =>
    have hl : before ++ line :: (after ++ [l]) = (before ++ line :: after) ++ [l] := by simp
    rw [hl, ← List.append_assoc before after, projectedRow_append, projectedRow_append]
    have hstep : ∀ row row' : TaskRow, row.leaseHolding = row'.leaseHolding →
        (projectionTable.update (stripLineEnd l) row).leaseHolding =
          (projectionTable.update (stripLineEnd l) row').leaseHolding :=
      fun _ _ => leaseHolding_projectLine
    exact projectionTable.stateStep_map_congr hstep ih

/-! ## When a renewal extends the lease -/

/-- **A renewal extends the lease for every reader exactly when the lease event it renews had that
expiry already, and so had the last lease the projection applied since the task's first package.** -/
theorem renewal_extends_iff (h : LastRenewal taskId expires line after) :
    RenewalExtends taskId expires before line after ↔
      (∃ holder attempt, lastOf (leaseMark taskId) before = some (.lease holder expires attempt)) ∧
        ∃ package lines,
          projectionTable.life ((before ++ line :: after).map stripLineEnd) taskId =
            some (package, lines) ∧ (lastOf projectedExpiry lines).getD 0 = expires := by
  have hlast : lastOf (leaseMark taskId) (before ++ line :: after) =
      lastOf (leaseMark taskId) before := by
    rw [lastOf_append, lastOf_cons_of_none fun l hl => (h.last l hl).1,
      leaseMark_renewal h.renews, Option.none_or]
  rw [← hlast, ← wtTaskFindActiveLease_iff, ← projected_iff]
  constructor
  · exact fun hext => ⟨⟨hext.active, hext.activeUntil⟩, hext.projected⟩
  · rintro ⟨hactive, hproj⟩
    obtain ⟨holder, attempt, hlease⟩ := wtTaskFindActiveLease_iff.mp hactive
    exact {
      active := hactive.1
      activeUntil := hactive.2
      projected := hproj
      kept := leaseHolding_kept h.renews
      notClaimable := fun _ hnow _ _ hfind hid => notClaimable_of_lease hlease hnow hfind hid
      notClaimableOnHost := fun _ hnow _ _ _ hfind hid =>
        notClaimableOnHost_of_renewal h hnow hfind hid }

/-! ### A lease renewed once -/

/-- A package and a lease of ten minutes. -/
def leasedLedger : Ledger :=
  [recordLine (packageRecord (.ofPlain "t1") (.ofPlain "claude")),
    recordLine (leaseRecord (.ofPlain "t1") (.ofPlain "claude") (.ofPlain "") 1 600000 0)]

def renewalLine (expires : Int) : Bytes :=
  recordLine (leaseRenewalRecord (.ofPlain "t1") (.ofPlain "claude") (.ofPlain "") 1 expires 300000)

theorem renewal_extends_leased :
    RenewalExtends (bytes "t1") 600000 leasedLedger (renewalLine 600000) [] ↔
      (∃ holder attempt,
          lastOf (leaseMark (bytes "t1")) leasedLedger = some (.lease holder 600000 attempt)) ∧
        ∃ package lines,
          projectionTable.life ((leasedLedger ++ [renewalLine 600000]).map stripLineEnd)
            (bytes "t1") = some (package, lines) ∧ (lastOf projectedExpiry lines).getD 0 = 600000 :=
  renewal_extends_iff ⟨by decide +kernel, by decide +kernel, by simp⟩

/-- A renewal that moves the expiry is no extension: the store still reports the lease's own. -/
theorem not_renewal_extends :
    ¬ ∀ taskId expires before line after, LastRenewal taskId expires line after →
      RenewalExtends taskId expires before line after := by
  intro h
  have hext := h (bytes "t1") 900000 leasedLedger (renewalLine 900000) []
    ⟨by decide +kernel, by decide +kernel, by simp⟩
  exact absurd hext.activeUntil (by decide +kernel)

end WovenTeam

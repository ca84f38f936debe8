import WovenTeam.Renewal

/-!
# The local and the remote scan

`wtTaskFindClaimableForAgent` looks first for a waiting task, with the agent that any event of the
task named last, and then for a held one whose lease expired, with the agent the task was given
to. `wtTaskFindClaimableForAgentOnHost` takes the latter agent for both, and knows of renewals. So
a task may be there for one of them alone; `scans_agree_iff` says when that makes a difference.
-/

namespace WovenTeam

open CText QuotedText FirstSeen

/-! ## What the lines of a task say -/

/-- The agent a line gives the task to: a package, or a routing or assignment event that names
one. -/
def ownerText (line : Bytes) : Option Bytes :=
  if lineHasSchema line taskPackageSchema then
    some ((wtJsonReadString line "assignedAgent" wtTaskAgentSize).orElse [])
  else if lineHasSchema line taskEventSchema &&
      (lineEventType line == bytes "routing" || lineEventType line == bytes "assignment") then
    (wtJsonReadString line "assignedAgent" wtTaskAgentSize).written
  else none

/-- A field of a task package. -/
def packageField (key : String) (size : Nat) (line : Bytes) : Option StringField :=
  if lineHasSchema line taskPackageSchema then some (wtJsonReadString line key size) else none

/-- A text that packages set, with a fallback, and that any event may write over. -/
def overlaidText (key : String) (size : Nat) (fallback line : Bytes) : Option Bytes :=
  if lineHasSchema line taskPackageSchema then some ((wtJsonReadString line key size).orElse fallback)
  else if lineHasSchema line taskEventSchema then (wtJsonReadString line key size).written
  else none

def owner (ledger : Ledger) (taskId : Bytes) : Option Bytes :=
  lastOf ownerText (taskLines ledger taskId)

def lastStatus (ledger : Ledger) (taskId : Bytes) : Option Bytes :=
  lastOf (overlaidText "status" wtTaskStatusSize (bytes "queued")) (taskLines ledger taskId)

/-- The agent that the task's last line to name one names. -/
def lastNamedAgent (ledger : Ledger) (taskId : Bytes) : Option Bytes :=
  lastOf (overlaidText "assignedAgent" wtTaskAgentSize []) (taskLines ledger taskId)

/-- The expiry the lines since the task's first package leave. -/
def lastExpiry (movesExpiry : List String) (ledger : Ledger) (taskId : Bytes) : Option Int :=
  ((claimTable movesExpiry).life ledger taskId).map fun p =>
    (lastOf (expiryChange movesExpiry) p.2).getD 0

def Waits (ledger : Ledger) (taskId : Bytes) : Prop :=
  lastStatus ledger taskId = some (bytes "queued") ∨
    lastStatus ledger taskId = some (bytes "assigned")

def Held (ledger : Ledger) (taskId : Bytes) : Prop :=
  lastStatus ledger taskId = some (bytes "leased") ∨
    lastStatus ledger taskId = some (bytes "running")

def Expired (movesExpiry : List String) (ledger : Ledger) (nowUnixMs : Int) (taskId : Bytes) :
    Prop :=
  ∃ expires ∈ lastExpiry movesExpiry ledger taskId, 0 < expires ∧ expires ≤ nowUnixMs

/-! ## What the rows hold -/

section row

variable {movesExpiry : List String} {ledger : Ledger} {taskId : Bytes} {row : ClaimRow}

theorem snprintf_agent (line : Bytes) :
    snprintf wtTaskAgentSize ((wtJsonReadString line "assignedAgent" wtTaskAgentSize).orElse []) =
      (wtJsonReadString line "assignedAgent" wtTaskAgentSize).orElse [] := by
  cases h : wtJsonReadString line "assignedAgent" wtTaskAgentSize with
  | absent => rfl
  | cut written => rfl
  | ok agent => exact snprintf_of_lt (wtJsonReadString_length h)

theorem ownerAgent_eq (h : (claimTable movesExpiry).stateOf ledger taskId = some row) :
    owner ledger taskId = some row.ownerAgent := by
  refine (claimTable movesExpiry).lastOf_of_stateOf ClaimRow.ownerAgent ownerText ?_ ?_ h
  · intro line id hc
    have hpackage : lineHasSchema line taskPackageSchema := hc
    rw [ownerText, if_pos hpackage]
    exact congrArg some (snprintf_agent line).symm
  · intro line row
    show (scanClaimLine movesExpiry line row).ownerAgent = _
    unfold scanClaimLine ownerText
    split
    · exact snprintf_agent line
    · split
      · rename_i hevent
        simp only [overlayClaimEvent, hevent, Bool.true_and]
        split
        · exact StringField.overwrite_eq _ _
        · rfl
      · rename_i hevent
        simp [hevent]

/-- A field that only packages set is what the last of them has in it. -/
theorem packageField_eq {key : String} {size : Nat} {fallback : Bytes} (view : ClaimRow → Bytes)
    (hpopulate : ∀ line row,
      view (populateClaimRow line row) = (wtJsonReadString line key size).orElse fallback)
    (hevent : ∀ line row, view (overlayClaimEvent movesExpiry line row) = view row)
    (h : (claimTable movesExpiry).stateOf ledger taskId = some row) :
    ∃ declared, lastOf (packageField key size) (taskLines ledger taskId) = some declared ∧
      view row = declared.orElse fallback := by
  have hlast := (claimTable movesExpiry).lastOf_of_stateOf view
    (fun line => (packageField key size line).map (·.orElse fallback)) ?_ ?_ h
  · rw [lastOf_option_map] at hlast
    obtain ⟨declared, hdeclared, hview⟩ := Option.map_eq_some_iff.mp hlast
    exact ⟨declared, hdeclared, hview.symm⟩
  · intro line id hc
    have hpackage : lineHasSchema line taskPackageSchema := hc
    rw [packageField, if_pos hpackage]
    exact congrArg some (hpopulate line _).symm
  · intro line row
    show view (scanClaimLine movesExpiry line row) = _
    unfold scanClaimLine packageField
    split
    · exact hpopulate line row
    · split
      · exact hevent line row
      · rfl

theorem status_eq (h : (claimTable movesExpiry).stateOf ledger taskId = some row) :
    lastStatus ledger taskId = some row.task.status := by
  refine (claimTable movesExpiry).lastOf_of_stateOf (fun row => row.task.status)
    (overlaidText "status" wtTaskStatusSize (bytes "queued")) ?_ ?_ h
  · intro line id hc
    have hpackage : lineHasSchema line taskPackageSchema := hc
    rw [overlaidText, if_pos hpackage]
    rfl
  · intro line row
    show (scanClaimLine movesExpiry line row).task.status = _
    unfold scanClaimLine overlaidText
    split
    · rfl
    · split
      · exact StringField.overwrite_eq _ _
      · rfl

theorem leaseExpiresAt_eq (h : (claimTable movesExpiry).stateOf ledger taskId = some row) :
    lastExpiry movesExpiry ledger taskId = some row.leaseExpiresAt := by
  have hkept := (claimTable movesExpiry).stateOf_kept ClaimRow.leaseExpiresAt
    (expiryChange movesExpiry) (leaseExpiresAt_scanClaimLine movesExpiry) ledger taskId
  rw [h] at hkept
  exact hkept.symm

/-- A text of the queued-task scan is what the task's last line to write it leaves. -/
theorem overlaidText_eq {key : String} {size : Nat} {fallback : Bytes} {task : WtTaskSummary}
    (view : WtTaskSummary → Bytes)
    (hpopulate : ∀ line task, view (populateTaskPackageFields line task) =
      (wtJsonReadString line key size).orElse fallback)
    (hoverlay : ∀ line task, view (overlayTaskEvent line task) =
      (wtJsonReadString line key size).overwrite (view task))
    (h : foldedState ledger taskId = some task) :
    lastOf (overlaidText key size fallback) (taskLines ledger taskId) = some (view task) := by
  refine queuedTable.lastOf_of_stateOf view (overlaidText key size fallback) ?_ ?_ h
  · intro line id hc
    rw [queuedTable_creates] at hc
    rw [overlaidText, if_pos hc]
    exact congrArg some (hpopulate line _).symm
  · intro line task
    rw [queuedTable_update, scanQueuedLine, overlaidText]
    split
    · exact hpopulate line task
    · split
      · rw [hoverlay, StringField.overwrite_eq]
      · rfl

end row

/-! ## What the scans find -/

section scans

variable {ledger : Ledger} {agentName host : Bytes} {nowUnixMs : Int}

/-- The task is there for the local scan. -/
def LocalClaims (ledger : Ledger) (agentName : Bytes) (nowUnixMs : Int) (taskId : Bytes) : Prop :=
  Waits ledger taskId ∧ lastNamedAgent ledger taskId = some agentName ∨
    Held ledger taskId ∧ owner ledger taskId = some agentName ∧
      Expired ["lease"] ledger nowUnixMs taskId

/-- The task is there for the remote scan. -/
def RemoteClaims (ledger : Ledger) (agentName : Bytes) (nowUnixMs : Int) (taskId : Bytes) : Prop :=
  Waits ledger taskId ∧ owner ledger taskId = some agentName ∨
    Held ledger taskId ∧ owner ledger taskId = some agentName ∧
      Expired ["lease", "lease_renewal"] ledger nowUnixMs taskId

theorem stuck_iff {movesExpiry : List String} {taskId : Bytes} {row : ClaimRow}
    (h : (claimTable movesExpiry).stateOf ledger taskId = some row) :
    row.stuck nowUnixMs ↔ Held ledger taskId ∧ Expired movesExpiry ledger nowUnixMs taskId := by
  simp [ClaimRow.stuck, Held, Expired, status_eq h, leaseExpiresAt_eq h, and_assoc]

theorem queued_iff {movesExpiry : List String} {taskId : Bytes} {row : ClaimRow}
    (h : (claimTable movesExpiry).stateOf ledger taskId = some row) :
    row.queued ↔ Waits ledger taskId := by
  simp [ClaimRow.queued, Waits, status_eq h]

theorem claimRow_isSome (movesExpiry : List String) {taskId : Bytes}
    (h : taskId ∈ packageIds ledger) :
    ∃ row, (claimTable movesExpiry).stateOf ledger taskId = some row :=
  Option.isSome_iff_exists.mp ((claimTable movesExpiry).mem_firstSeen_iff.mp h)

/-- The rows of both scans agree on the host a task is pinned to. -/
theorem foldedHost_eq {movesExpiry : List String} {taskId : Bytes} {row : ClaimRow}
    (h : (claimTable movesExpiry).stateOf ledger taskId = some row) :
    (foldedState ledger taskId).map WtTaskSummary.executionHost =
      some row.task.executionHost := by
  have hsome : (foldedState ledger taskId).isSome := by
    rw [← mem_packageIds_iff]
    exact (claimTable movesExpiry).mem_firstSeen_iff.mpr (by rw [h]; rfl)
  obtain ⟨task, htask⟩ := Option.isSome_iff_exists.mp hsome
  obtain ⟨declared, hdeclared, hrow⟩ := packageField_eq
    (fun row => row.task.executionHost) (fun _ _ => rfl) (fun _ _ => rfl) h
  have hfolded := queuedTable.lastOf_of_stateOf WtTaskSummary.executionHost
    (fun line => (packageField "executionHost" wtTaskAgentSize line).map (·.orElse [])) ?_ ?_ htask
  · have hlast : (lastOf (packageField "executionHost" wtTaskAgentSize)
        (taskLines ledger taskId)).map (·.orElse []) = some task.executionHost := by
      rw [← lastOf_option_map]
      exact hfolded
    rw [hdeclared] at hlast
    rw [htask, Option.map_some, Option.some.injEq]
    exact (Option.some.inj hlast).symm.trans hrow.symm
  · intro line id hc
    rw [queuedTable_creates] at hc
    rw [packageField, if_pos hc]
    rfl
  · intro line task
    rw [queuedTable_update, scanQueuedLine, packageField]
    split
    · rfl
    · split <;> rfl

theorem unpinned_iff {movesExpiry : List String} {taskId : Bytes} {row : ClaimRow}
    (h : (claimTable movesExpiry).stateOf ledger taskId = some row) :
    Unpinned ledger taskId ↔ row.task.executionHost = [] := by
  rw [Unpinned, foldedHost_eq h, Option.some.injEq]

variable (hcap : (packageIds ledger).length ≤ taskTableSize)
  (hunpinned : ∀ taskId ∈ packageIds ledger, Unpinned ledger taskId)

include hcap hunpinned

theorem remoteScan_isSome :
    (wtTaskFindClaimableForAgentOnHost ledger agentName host nowUnixMs).isSome ↔
      ∃ taskId ∈ packageIds ledger, RemoteClaims ledger agentName nowUnixMs taskId := by
  rw [wtTaskFindClaimableForAgentOnHost, Option.isSome_map,
    (claimTable _).find?_scan_isSome hcap]
  refine exists_congr fun taskId => and_congr_right fun hmem => ?_
  obtain ⟨row, hrow⟩ := claimRow_isSome ["lease", "lease_renewal"] hmem
  have hhost := (unpinned_iff hrow).mp (hunpinned taskId hmem)
  have howner : owner ledger taskId = some agentName ↔ row.ownerAgent = agentName := by
    rw [ownerAgent_eq hrow, Option.some.injEq]
  simp only [hrow, Option.some.injEq, exists_eq_left', Bool.and_eq_true, Bool.or_eq_true,
    queued_iff hrow, stuck_iff hrow, hhost, true_or, and_true, beq_iff_eq,
    RemoteClaims, howner]
  tauto

theorem localScan_isSome :
    (wtTaskFindClaimableForAgent ledger agentName nowUnixMs).isSome ↔
      ∃ taskId ∈ packageIds ledger, LocalClaims ledger agentName nowUnixMs taskId := by
  have hqueued : (wtTaskFindQueuedForAgent ledger agentName).isSome ↔
      ∃ taskId ∈ packageIds ledger,
        Waits ledger taskId ∧ lastNamedAgent ledger taskId = some agentName := by
    rw [wtTaskFindQueuedForAgent, scanQueued, queuedTable.find?_scan_isSome hcap]
    refine exists_congr fun taskId => and_congr_right fun hmem => ?_
    obtain ⟨task, htask, hhost⟩ := Option.map_eq_some_iff.mp (hunpinned taskId hmem)
    have hstatus := overlaidText_eq WtTaskSummary.status (fun _ _ => rfl) (fun _ _ => rfl) htask
    have hagent := overlaidText_eq WtTaskSummary.assignedAgent (fun _ _ => rfl) (fun _ _ => rfl)
      htask
    rw [Waits, lastStatus, lastNamedAgent, hstatus, hagent]
    rw [← foldedState] at *
    simp only [htask, Option.some.injEq, exists_eq_left', isQueuedFor_iff, hhost, true_and]
    tauto
  have hstuck : (((claimTable ["lease"]).scan (some taskTableSize) ledger).find? fun row =>
        row.stuck nowUnixMs && row.task.executionHost == [] && row.ownerAgent == agentName).isSome ↔
      ∃ taskId ∈ packageIds ledger, Held ledger taskId ∧ owner ledger taskId = some agentName ∧
        Expired ["lease"] ledger nowUnixMs taskId := by
    rw [(claimTable _).find?_scan_isSome hcap]
    refine exists_congr fun taskId => and_congr_right fun hmem => ?_
    obtain ⟨row, hrow⟩ := claimRow_isSome ["lease"] hmem
    have hhost := (unpinned_iff hrow).mp (hunpinned taskId hmem)
    have howner : owner ledger taskId = some agentName ↔ row.ownerAgent = agentName := by
      rw [ownerAgent_eq hrow, Option.some.injEq]
    simp only [hrow, Option.some.injEq, exists_eq_left', Bool.and_eq_true, stuck_iff hrow, hhost,
      and_true, beq_iff_eq, howner]
    tauto
  unfold wtTaskFindClaimableForAgent
  cases hfind : wtTaskFindQueuedForAgent ledger agentName with
  | some task =>
    rw [hfind, Option.isSome_some, eq_self, true_iff] at hqueued
    obtain ⟨taskId, hmem, hwaits⟩ := hqueued
    exact iff_of_true rfl ⟨taskId, hmem, .inl hwaits⟩
  | none =>
    rw [hfind] at hqueued
    dsimp only
    rw [Option.isSome_map, hstuck]
    refine exists_congr fun taskId => and_congr_right fun hmem => ?_
    rw [LocalClaims, or_iff_right]
    exact fun hwaits => absurd (hqueued.mpr ⟨taskId, hmem, hwaits⟩) (by decide)

omit hcap hunpinned

/-! ## When the scans agree -/

/-- Both scans claim the task: it waits, and the agent it was given to is the last one named; or it
is held, and its lease is expired with or without its renewals. -/
def ClaimedByBoth (ledger : Ledger) (agentName : Bytes) (nowUnixMs : Int) (taskId : Bytes) : Prop :=
  owner ledger taskId = some agentName ∧
    (Waits ledger taskId ∧ lastNamedAgent ledger taskId = some agentName ∨
      Held ledger taskId ∧ Expired ["lease"] ledger nowUnixMs taskId ∧
        Expired ["lease", "lease_renewal"] ledger nowUnixMs taskId)

/-- Only the local scan claims the task: an event named the agent that it was not given to, or a
renewal keeps it. -/
def LocalOnly (ledger : Ledger) (agentName : Bytes) (nowUnixMs : Int) (taskId : Bytes) : Prop :=
  Waits ledger taskId ∧ lastNamedAgent ledger taskId = some agentName ∧
      owner ledger taskId ≠ some agentName ∨
    Held ledger taskId ∧ owner ledger taskId = some agentName ∧
      Expired ["lease"] ledger nowUnixMs taskId ∧
        ¬ Expired ["lease", "lease_renewal"] ledger nowUnixMs taskId

/-- Only the remote scan claims the task: an event named another agent than it was given to, or a
renewal ran out before its lease. -/
def RemoteOnly (ledger : Ledger) (agentName : Bytes) (nowUnixMs : Int) (taskId : Bytes) : Prop :=
  owner ledger taskId = some agentName ∧
    (Waits ledger taskId ∧ lastNamedAgent ledger taskId ≠ some agentName ∨
      Held ledger taskId ∧ Expired ["lease", "lease_renewal"] ledger nowUnixMs taskId ∧
        ¬ Expired ["lease"] ledger nowUnixMs taskId)

theorem localClaims_iff {taskId : Bytes} :
    LocalClaims ledger agentName nowUnixMs taskId ↔
      ClaimedByBoth ledger agentName nowUnixMs taskId ∨
        LocalOnly ledger agentName nowUnixMs taskId := by
  constructor
  · rintro (⟨hwaits, hnamed⟩ | ⟨hheld, howner, hexpired⟩)
    · by_cases howner : owner ledger taskId = some agentName
      · exact .inl ⟨howner, .inl ⟨hwaits, hnamed⟩⟩
      · exact .inr (.inl ⟨hwaits, hnamed, howner⟩)
    · by_cases hrenewed : Expired ["lease", "lease_renewal"] ledger nowUnixMs taskId
      · exact .inl ⟨howner, .inr ⟨hheld, hexpired, hrenewed⟩⟩
      · exact .inr (.inr ⟨hheld, howner, hexpired, hrenewed⟩)
  · rintro (⟨howner, ⟨hwaits, hnamed⟩ | ⟨hheld, hexpired, -⟩⟩ |
      ⟨hwaits, hnamed, -⟩ | ⟨hheld, howner, hexpired, -⟩)
    · exact .inl ⟨hwaits, hnamed⟩
    · exact .inr ⟨hheld, howner, hexpired⟩
    · exact .inl ⟨hwaits, hnamed⟩
    · exact .inr ⟨hheld, howner, hexpired⟩

theorem remoteClaims_iff {taskId : Bytes} :
    RemoteClaims ledger agentName nowUnixMs taskId ↔
      ClaimedByBoth ledger agentName nowUnixMs taskId ∨
        RemoteOnly ledger agentName nowUnixMs taskId := by
  constructor
  · rintro (⟨hwaits, howner⟩ | ⟨hheld, howner, hexpired⟩)
    · by_cases hnamed : lastNamedAgent ledger taskId = some agentName
      · exact .inl ⟨howner, .inl ⟨hwaits, hnamed⟩⟩
      · exact .inr ⟨howner, .inl ⟨hwaits, hnamed⟩⟩
    · by_cases hlease : Expired ["lease"] ledger nowUnixMs taskId
      · exact .inl ⟨howner, .inr ⟨hheld, hlease, hexpired⟩⟩
      · exact .inr ⟨howner, .inr ⟨hheld, hexpired, hlease⟩⟩
  · rintro (⟨howner, ⟨hwaits, -⟩ | ⟨hheld, -, hexpired⟩⟩ |
      ⟨howner, ⟨hwaits, -⟩ | ⟨hheld, hexpired, -⟩⟩)
    · exact .inl ⟨hwaits, howner⟩
    · exact .inr ⟨hheld, howner, hexpired⟩
    · exact .inl ⟨hwaits, howner⟩
    · exact .inr ⟨hheld, howner, hexpired⟩

end scans

end WovenTeam

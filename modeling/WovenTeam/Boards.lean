import WovenTeam.Config
import WovenTeam.ReadJson
import WovenTeam.ReadModels
import WovenTeam.Lib.Grouping

/-!
# Boards

What the operator's pages show of the projection: the work of each agent, the capacity that is
taken, the initiatives and their artifacts, the last heartbeats and milestones. The rows of a page
are the queries of `wt_task_projection.c` over the tables.
-/

namespace WovenTeam

open CText QuotedText JsonText FirstSeen Grouping

/-! ## The other tables -/

/-- A row of `agent_controls`. -/
structure AgentControlRow where
  state : Bytes
  message : Bytes
  updatedAtMs : Int
  deriving DecidableEq, Repr

abbrev agentControlSchema : String := "woventeam.agent_control.v0.1"

def projectAgentControl (line : Bytes) : AgentControlRow where
  state :=
    if (wtJsonReadString line "action" 32).orElse [] = bytes "pause" then bytes "paused"
    else bytes "active"
  message := (wtJsonReadString line "message" wtTaskTitleSize).orElse []
  updatedAtMs := (wtJsonReadLongLong line "createdAtUnixMs").getD 0

/-- A row of `heartbeats`. -/
structure Heartbeat where
  host : Bytes
  currentTaskId : Bytes
  leaseExpiresAtMs : Int
  statusLine : Bytes
  lastSeenMs : Int
  deriving DecidableEq, Repr

def heartbeatSchema : String := "woventeam.heartbeat.v0.1"

def projectHeartbeat (line : Bytes) : Heartbeat where
  host := (wtJsonReadString line "host" 128).orElse []
  currentTaskId := (wtJsonReadString line "currentTaskId" wtTaskIdSize).orElse []
  leaseExpiresAtMs := (wtJsonReadLongLong line "leaseExpiresAtUnixMs").getD 0
  statusLine := (wtJsonReadString line "statusLine" wtTaskBodySize).orElse []
  lastSeenMs := (wtJsonReadLongLong line "createdAtUnixMs").getD 0

/-- The `agent` of a record of the schema, the primary key of its table. -/
def agentKey (schema : String) (line : Bytes) : Option Bytes :=
  if lineHasSchema line schema then some ((wtJsonReadString line "agent" wtTaskAgentSize).orElse [])
  else none

def agentControls (ledger : Ledger) : List (Bytes × AgentControlRow) :=
  (upserts (agentKey agentControlSchema) projectAgentControl).scan none (ledger.map stripLineEnd)

def heartbeats (ledger : Ledger) : List (Bytes × Heartbeat) :=
  (upserts (agentKey heartbeatSchema) projectHeartbeat).scan none (ledger.map stripLineEnd)

/-- A row of `milestones`. -/
structure Milestone where
  taskId : Bytes
  milestone : Bytes
  message : Bytes
  createdBy : Bytes
  createdAtMs : Int
  deriving DecidableEq, Repr

def milestoneSchema : String := "woventeam.milestone.v0.1"

def projectMilestone (line : Bytes) : Milestone where
  taskId := (wtJsonReadString line "taskId" wtTaskIdSize).orElse []
  milestone := (wtJsonReadString line "milestone" 64).orElse []
  message := (wtJsonReadString line "message" wtTaskBodySize).orElse []
  createdBy := (wtJsonReadString line "createdBy" wtTaskAgentSize).orElse []
  createdAtMs := (wtJsonReadLongLong line "createdAtUnixMs").getD 0

/-- The rows with their `id`. -/
def milestones (ledger : Ledger) : List (Milestone × Nat) :=
  (((ledger.map stripLineEnd).filter fun line => lineHasSchema line milestoneSchema).map
    projectMilestone).zipIdx 1

/-! ## Agents -/

/-- `SUM` of a column, with which a query fails where it overflows. -/
def columnSum (column : TaskRow → Int) (rows : List TaskRow) : Option Int :=
  let add : Option Int → TaskRow → Option Int := fun total row =>
    total.bind fun n =>
      if -2 ^ 63 ≤ n + column row ∧ n + column row < 2 ^ 63 then some (n + column row)
      else none
  rows.foldl add (some 0)

def isActive (row : TaskRow) : Bool := !isTerminalStatus row.status

/-- Leased or running for longer than a quarter of an hour. -/
def isStuck (nowUnixMs : Int) (row : TaskRow) : Bool :=
  row.status == bytes "leased" && decide (0 < row.leasedAtMs) &&
      decide (row.leasedAtMs < nowUnixMs - 15 * 60 * 1000) ||
    row.status == bytes "running" && decide (0 < row.runningAtMs) &&
      decide (row.runningAtMs < nowUnixMs - 15 * 60 * 1000)

/-- What `appendAgentWorkload` has of an agent. -/
structure Workload where
  agent : Bytes
  state : Bytes
  message : Bytes
  activeTasks : Nat := 0
  leasedTasks : Nat := 0
  runningTasks : Nat := 0
  stuckTasks : Nat := 0
  attempts : Int := 0
  updatedAtMs : Int := 0
  controlAtMs : Int
  deriving DecidableEq, Repr

/-- The counts stay 0 where the sum of the attempts overflows. -/
def agentWorkload (ledger : Ledger) (nowUnixMs : Int) (agent : Bytes) : Workload :=
  let rows := (wtTaskProjectionRebuild ledger).filter fun row => row.assignedAgent == agent
  let control := ((agentControls ledger).find? fun row => row.1 = agent).map Prod.snd
  let workload : Workload := {
    agent
    state := (control.map AgentControlRow.state).getD (bytes "active")
    message := (control.map AgentControlRow.message).getD []
    controlAtMs := (control.map AgentControlRow.updatedAtMs).getD 0 }
  match columnSum TaskRow.attemptCount rows with
  | none => workload
  | some attempts => { workload with
      activeTasks := rows.countP isActive
      leasedTasks := rows.countP fun row => row.status == bytes "leased"
      runningTasks := rows.countP fun row => row.status == bytes "running"
      stuckTasks := rows.countP (isStuck nowUnixMs)
      attempts
      updatedAtMs := (rows.map TaskRow.updatedAtMs).max?.getD 0 }

/-! ## Capacity -/

/-- The active tasks with a value in the column, counted for each value. -/
def activeGroups (column : TaskRow → Bytes) (rows : List TaskRow) : List (Bytes × Nat) :=
  (groups column (rows.filter fun row => column row != [] && isActive row)).map fun g =>
    (g.1, g.2.length)

/-- `ORDER BY assigned_agent`. -/
def capacityAgents (rows : List TaskRow) : List (Bytes × Nat) :=
  (activeGroups TaskRow.assignedAgent rows).insertionSort (ascending Prod.fst)

/-- `ORDER BY COUNT(*) DESC` and the value, `LIMIT 50`. -/
def mostActive (column : TaskRow → Bytes) (rows : List TaskRow) : List (Bytes × Nat) :=
  top (thenBy (descending Prod.snd) (ascending Prod.fst)) 50 (activeGroups column rows)

/-! ## Initiatives -/

/-- The aggregates of an initiative's tasks. -/
structure InitiativeSummary where
  taskCount : Nat
  activeTasks : Nat
  completeTasks : Int
  failedTasks : Int
  blockedTasks : Int
  openGateTasks : Nat
  maxTokens : Int
  createdAtMs : Int
  updatedAtMs : Int
  title : Bytes
  deriving DecidableEq, Repr

def isOpenGate (row : TaskRow) : Bool :=
  row.status == bytes "approved" || row.status == bytes "rejected" ||
    row.status == bytes "revision_requested"

def summarize (rows : List TaskRow) : Option InitiativeSummary :=
  (columnSum TaskRow.maxTokens rows).map fun maxTokens => {
    taskCount := rows.length
    activeTasks := rows.countP isActive
    completeTasks := countStatus rows "complete"
    failedTasks := countStatus rows "failed"
    blockedTasks := countStatus rows "blocked"
    openGateTasks := rows.countP isOpenGate
    maxTokens
    createdAtMs := (rows.map TaskRow.createdAtMs).min?.getD 0
    updatedAtMs := (rows.map TaskRow.updatedAtMs).max?.getD 0
    title := ((rows.insertionSort auditOrder).head?.map TaskRow.title).getD [] }

/-- `ORDER BY MAX(updated_at_ms) DESC, initiative_id`. -/
abbrev initiativeOrder : Bytes × InitiativeSummary → Bytes × InitiativeSummary → Prop :=
  thenBy (descending fun entry => entry.2.updatedAtMs) (ascending Prod.fst)

/-- The tasks of each initiative. -/
def initiativeGroups (rows : List TaskRow) : List (Bytes × List TaskRow) :=
  groups TaskRow.initiativeId (rows.filter fun row => row.initiativeId != [])

/-- The rows of the list; the query fails where a sum overflows. -/
def initiativeList (rows : List TaskRow) : Option (List (Bytes × InitiativeSummary)) :=
  let groups := initiativeGroups rows
  if groups.all fun g => (summarize g.2).isSome then
    some (top initiativeOrder 100 (groups.filterMap fun g => (summarize g.2).map (g.1, ·)))
  else none

/-- `ORDER BY updated_at_ms DESC, created_at_ms DESC, task_id`. -/
abbrev initiativeTaskOrder : TaskRow → TaskRow → Prop :=
  thenBy (descending TaskRow.updatedAtMs)
    (thenBy (descending TaskRow.createdAtMs) (ascending TaskRow.taskId))

/-- The summary and the tasks of `wtTaskProjectionReadInitiativeDetailJson`. -/
def initiativeDetail (rows : List TaskRow) (initiativeId : Bytes) :
    Option (InitiativeSummary × List TaskRow) :=
  let rows := group TaskRow.initiativeId rows initiativeId
  match summarize rows with
  | none => none
  | some summary => if rows = [] then none else some (summary, top initiativeTaskOrder 200 rows)

/-! ## Artifacts -/

def isAccepted (row : TaskRow) : Bool := row.artifactState == bytes "accepted"

/-- The accepted ones first, the newest of them in front. -/
abbrev artifactOrder : TaskRow → TaskRow → Prop :=
  thenBy (descending fun row => (isAccepted row).toNat)
    (thenBy (descending TaskRow.acceptedAtMs) (descending TaskRow.updatedAtMs))

def initiativeArtifacts (rows : List TaskRow) (initiativeId : Bytes) : List TaskRow :=
  top artifactOrder 200
    (rows.filter fun row => row.initiativeId == initiativeId && row.artifactState != [])

/-! ## Heartbeats and milestones -/

/-- `ORDER BY id DESC LIMIT ?`. -/
def recentMilestones (ledger : Ledger) (limit : Int) : List (Milestone × Nat) :=
  (milestones ledger).reverse.take (if 0 < limit then limit.toNat else 50)

/-! ## Counts -/

section counts

variable {rows : List TaskRow} {column : TaskRow → Bytes} {value : Bytes} {n : Nat}

theorem length_activeGroup (hvalue : value ≠ []) :
    (group column (rows.filter fun row => column row != [] && isActive row) value).length =
      countActiveWhere rows column value := by
  rw [group, List.filter_filter, countActiveWhere, List.countP_eq_length_filter]
  congr 1
  refine List.filter_congr fun row _ => ?_
  by_cases hrow : column row = value
  · simp [hrow, hvalue, isActive]
  · simp [hrow]

/-- The groups are the values with active tasks, and their counts those of admission. -/
theorem mem_activeGroups_iff :
    (value, n) ∈ activeGroups column rows ↔
      value ≠ [] ∧ 0 < n ∧ n = countActiveWhere rows column value := by
  rw [activeGroups, List.mem_map]
  constructor
  · rintro ⟨⟨k, members⟩, hgroup, heq⟩
    obtain ⟨rfl, rfl⟩ := Prod.mk.inj heq
    obtain ⟨hkey, hmembers⟩ := mem_groups_iff.mp hgroup
    obtain ⟨row, hrow, hvalue⟩ := List.mem_map.mp hkey
    obtain ⟨-, hcolumn⟩ := List.mem_filter.mp hrow
    simp only [Bool.and_eq_true, bne_iff_ne, hvalue] at hcolumn
    dsimp only at hmembers ⊢
    rw [hmembers]
    exact ⟨hcolumn.1, List.length_pos_iff.mpr (group_ne_nil_iff.mpr hkey),
      length_activeGroup hcolumn.1⟩
  · rintro ⟨hvalue, hpos, rfl⟩
    have hlength := @length_activeGroup rows column value hvalue
    rw [← hlength] at hpos ⊢
    exact ⟨(value, _), mem_groups_iff.mpr ⟨group_ne_nil_iff.mp (List.length_pos_iff.mp hpos), rfl⟩,
      rfl⟩

/-- What the limit of 50 leaves out has no more active tasks than what it shows. -/
theorem mostActive_shows (hvalue : value ≠ []) :
    (∀ n, (value, n) ∈ mostActive column rows → n = countActiveWhere rows column value) ∧
      (0 < countActiveWhere rows column value →
        (value, countActiveWhere rows column value) ∈ mostActive column rows ∨
          (mostActive column rows).length = 50 ∧ ∀ shown ∈ mostActive column rows,
            countActiveWhere rows column value ≤ shown.2) := by
  refine ⟨fun n hmem => (mem_activeGroups_iff.mp (mem_of_mem_top hmem)).2.2, fun hpos => ?_⟩
  have hgroup : (value, countActiveWhere rows column value) ∈ activeGroups column rows :=
    mem_activeGroups_iff.mpr ⟨hvalue, hpos, rfl⟩
  refine Classical.or_iff_not_imp_left.mpr fun hout => ?_
  obtain ⟨hlength, hbefore⟩ := top_full hgroup hout
  exact ⟨hlength, fun shown hshown => (hbefore shown hshown).1⟩

theorem isTerminalStatus_leased : isTerminalStatus (bytes "leased") = false := by decide

theorem isTerminalStatus_running : isTerminalStatus (bytes "running") = false := by decide

/-- Leased and running tasks are active, and no task is both. -/
theorem countP_leased_running (rows : List TaskRow) :
    rows.countP (fun row => row.status == bytes "leased") +
      rows.countP (fun row => row.status == bytes "running") ≤ rows.countP isActive := by
  induction rows with
  | nil => simp
  | cons row rows ih =>
    simp only [List.countP_cons]
    by_cases hleased : row.status = bytes "leased"
    · have hne : bytes "leased" ≠ bytes "running" := by decide
      simp [hleased, isActive, isTerminalStatus_leased, hne]
      omega
    · by_cases hrunning : row.status = bytes "running"
      · have hne : bytes "running" ≠ bytes "leased" := by decide
        simp [hrunning, isActive, isTerminalStatus_running, hne]
        omega
      · simp [hleased, hrunning]
        omega

theorem countP_isStuck (now : Int) (rows : List TaskRow) :
    rows.countP (isStuck now) ≤ rows.countP (fun row => row.status == bytes "leased") +
      rows.countP (fun row => row.status == bytes "running") := by
  induction rows with
  | nil => simp
  | cons row rows ih =>
    have hone : (if isStuck now row then 1 else 0) ≤
        (if row.status == bytes "leased" then 1 else 0) +
          if row.status == bytes "running" then 1 else 0 := by
      rw [isStuck]
      by_cases hleased : row.status = bytes "leased"
      · rw [hleased]
        split <;> simp
      · by_cases hrunning : row.status = bytes "running"
        · rw [hrunning]
          split <;> simp
        · simp [hleased, hrunning]
    simp only [List.countP_cons]
    omega

theorem countP_agent (rows : List TaskRow) (agent : Bytes) :
    (rows.filter fun row => row.assignedAgent == agent).countP isActive =
      wtTaskProjectionCountActiveForAgent rows agent := by
  rw [List.countP_filter, wtTaskProjectionCountActiveForAgent, countActiveWhere]
  exact List.countP_congr fun row _ => by simp [isActive, and_comm]

end counts

/-- **The pages agree with each other and with what admission counts: the capacity row of an agent
is there exactly when it has active tasks and shows their number, its board shows the same number
unless its attempts overflow, and an initiative or a parent that the limit leaves out has no more
active tasks than the 50 that are shown.** -/
theorem boards_agree (ledger : Ledger) (now : Int) (value : Bytes) (hvalue : value ≠ []) :
    let rows := wtTaskProjectionRebuild ledger
    let workload := agentWorkload ledger now value
    (∀ n, (value, n) ∈ capacityAgents rows ↔
      0 < n ∧ n = wtTaskProjectionCountActiveForAgent rows value) ∧
    (columnSum TaskRow.attemptCount (rows.filter fun row => row.assignedAgent == value) ≠ none →
      workload.activeTasks = wtTaskProjectionCountActiveForAgent rows value ∧
        workload.leasedTasks + workload.runningTasks ≤ workload.activeTasks ∧
        workload.stuckTasks ≤ workload.leasedTasks + workload.runningTasks) ∧
    ((∀ n, (value, n) ∈ mostActive TaskRow.initiativeId rows →
        n = wtTaskProjectionCountActiveForInitiative rows value) ∧
      (0 < wtTaskProjectionCountActiveForInitiative rows value →
        (value, wtTaskProjectionCountActiveForInitiative rows value) ∈
            mostActive TaskRow.initiativeId rows ∨
          (mostActive TaskRow.initiativeId rows).length = 50 ∧
            ∀ shown ∈ mostActive TaskRow.initiativeId rows,
              wtTaskProjectionCountActiveForInitiative rows value ≤ shown.2)) ∧
    ((∀ n, (value, n) ∈ mostActive TaskRow.parentTaskId rows →
        n = wtTaskProjectionCountActiveForParent rows value) ∧
      (0 < wtTaskProjectionCountActiveForParent rows value →
        (value, wtTaskProjectionCountActiveForParent rows value) ∈
            mostActive TaskRow.parentTaskId rows ∨
          (mostActive TaskRow.parentTaskId rows).length = 50 ∧
            ∀ shown ∈ mostActive TaskRow.parentTaskId rows,
              wtTaskProjectionCountActiveForParent rows value ≤ shown.2)) := by
  intro rows workload
  refine ⟨fun n => ?_, fun hsum => ?_, mostActive_shows hvalue, mostActive_shows hvalue⟩
  · rw [capacityAgents, List.mem_insertionSort, mem_activeGroups_iff]
    exact and_iff_right hvalue
  · obtain ⟨attempts, hattempts⟩ := Option.ne_none_iff_exists'.mp hsum
    have hworkload : workload.activeTasks =
        (rows.filter fun row => row.assignedAgent == value).countP isActive ∧
        workload.leasedTasks = (rows.filter fun row => row.assignedAgent == value).countP
          (fun row => row.status == bytes "leased") ∧
        workload.runningTasks = (rows.filter fun row => row.assignedAgent == value).countP
          (fun row => row.status == bytes "running") ∧
        workload.stuckTasks =
          (rows.filter fun row => row.assignedAgent == value).countP (isStuck now) := by
      simp only [workload, agentWorkload, rows] at hattempts ⊢
      rw [hattempts]
      exact ⟨rfl, rfl, rfl, rfl⟩
    obtain ⟨hactive, hleased, hrunning, hstuck⟩ := hworkload
    rw [hleased, hrunning, hstuck, hactive]
    exact ⟨countP_agent rows value, countP_leased_running _, countP_isStuck now _⟩

theorem boards_agree_claude :
    let rows := wtTaskProjectionRebuild [claudePackageLine]
    ∀ n, (bytes "claude", n) ∈ capacityAgents rows ↔
      0 < n ∧ n = wtTaskProjectionCountActiveForAgent rows (bytes "claude") :=
  (boards_agree [claudePackageLine] 0 (bytes "claude") (by decide)).1

/-! ## Initiatives and their tasks -/

section initiatives

variable {rows : List TaskRow} {list : List (Bytes × InitiativeSummary)} {initiativeId : Bytes}
  {summary : InitiativeSummary}

theorem group_initiative (h : initiativeId ≠ []) :
    group TaskRow.initiativeId (rows.filter fun row => row.initiativeId != []) initiativeId =
      group TaskRow.initiativeId rows initiativeId :=
  group_filter fun row _ hrow => by simp [hrow, h]

theorem mem_initiativeGroups_iff {tasks : List TaskRow} :
    (initiativeId, tasks) ∈ initiativeGroups rows ↔
      initiativeId ≠ [] ∧ tasks ≠ [] ∧ tasks = group TaskRow.initiativeId rows initiativeId := by
  rw [initiativeGroups, mem_groups_iff]
  constructor
  · rintro ⟨hkey, htasks⟩
    obtain ⟨row, hrow, hid⟩ := List.mem_map.mp hkey
    have hne : initiativeId ≠ [] := by
      rw [show initiativeId = row.initiativeId from hid.symm]
      simpa using (List.mem_filter.mp hrow).2
    have htasks : tasks = _ := htasks
    refine ⟨hne, ?_, by rw [htasks, group_initiative hne]⟩
    rw [htasks]
    exact group_ne_nil_iff.mpr hkey
  · rintro ⟨hne, htasks, rfl⟩
    rw [← group_initiative hne] at htasks ⊢
    exact ⟨group_ne_nil_iff.mp htasks, rfl⟩

theorem initiativeDetail_eq_some_iff {tasks : List TaskRow} :
    initiativeDetail rows initiativeId = some (summary, tasks) ↔
      group TaskRow.initiativeId rows initiativeId ≠ [] ∧
        summarize (group TaskRow.initiativeId rows initiativeId) = some summary ∧
        tasks = top initiativeTaskOrder 200 (group TaskRow.initiativeId rows initiativeId) := by
  unfold initiativeDetail
  dsimp only
  cases hsummary : summarize (group TaskRow.initiativeId rows initiativeId) with
  | none => simp
  | some s =>
    by_cases hnil : group TaskRow.initiativeId rows initiativeId = []
    · simp [hnil]
    · simp only [hnil, if_false, Option.some.injEq, Prod.mk.injEq, ne_eq, not_false_eq_true,
        true_and]
      exact and_congr_right fun _ => eq_comm

/-- The rows of the list before its order and limit. -/
theorem mem_summaries_iff :
    (initiativeId, summary) ∈
        (initiativeGroups rows).filterMap (fun g => (summarize g.2).map (g.1, ·)) ↔
      initiativeId ≠ [] ∧
        ∃ tasks, initiativeDetail rows initiativeId = some (summary, tasks) := by
  simp only [List.mem_filterMap, Option.map_eq_some_iff, Prod.mk.injEq,
    initiativeDetail_eq_some_iff]
  constructor
  · rintro ⟨⟨k, members⟩, hgroup, s, hsummary, rfl, rfl⟩
    obtain ⟨hne, hmembers, rfl⟩ := mem_initiativeGroups_iff.mp hgroup
    exact ⟨hne, _, hmembers, hsummary, rfl⟩
  · rintro ⟨hne, tasks, hmembers, hsummary, -⟩
    exact ⟨(initiativeId, _), mem_initiativeGroups_iff.mpr ⟨hne, hmembers, rfl⟩, summary, hsummary,
      rfl, rfl⟩

theorem initiativeList_eq_none_iff :
    initiativeList rows = none ↔ ∃ initiativeId, initiativeId ≠ [] ∧
      columnSum TaskRow.maxTokens (group TaskRow.initiativeId rows initiativeId) = none := by
  simp only [initiativeList, ite_eq_right_iff, reduceCtorEq, imp_false, Bool.not_eq_true,
    List.all_eq_false, summarize, Option.isSome_map, Option.isSome_eq_false_iff,
    Option.isNone_iff_eq_none]
  constructor
  · rintro ⟨⟨k, members⟩, hgroup, hsum⟩
    obtain ⟨hne, -, rfl⟩ := mem_initiativeGroups_iff.mp hgroup
    exact ⟨k, hne, hsum⟩
  · rintro ⟨initiativeId, hne, hsum⟩
    refine ⟨(initiativeId, _), mem_initiativeGroups_iff.mpr ⟨hne, fun hnil => ?_, rfl⟩, hsum⟩
    rw [hnil] at hsum
    cases hsum

/-- The keys of the list are keys of groups. -/
theorem summaries_nodup : (((initiativeGroups rows).filterMap fun g =>
    (summarize g.2).map (g.1, ·)).map Prod.fst).Nodup := by
  have hkeys : ((initiativeGroups rows).filterMap fun g =>
      (summarize g.2).map (g.1, ·)).map Prod.fst =
      ((initiativeGroups rows).filter fun g => (summarize g.2).isSome).map Prod.fst := by
    induction initiativeGroups rows with
    | nil => rfl
    | cons g groups ih =>
      cases hsummary : summarize g.2 <;> simp [hsummary, ih]
  rw [hkeys]
  exact (groups_nodup _ _).sublist (List.filter_sublist.map _)

end initiatives

/-- **The list of initiatives shows each initiative once, newest first, with what its own page says
of it; one that has tasks is left out only behind a hundred that have been updated no earlier; and
there is no list exactly where the tokens of an initiative overflow.** -/
theorem initiatives_agree (rows : List TaskRow) :
    (initiativeList rows = none ↔ ∃ initiativeId, initiativeId ≠ [] ∧
      columnSum TaskRow.maxTokens (group TaskRow.initiativeId rows initiativeId) = none) ∧
    ∀ list, initiativeList rows = some list →
      (list.map Prod.fst).Nodup ∧ list.Pairwise initiativeOrder ∧
      (∀ initiativeId summary, (initiativeId, summary) ∈ list →
        ∃ tasks, initiativeDetail rows initiativeId = some (summary, tasks)) ∧
      ∀ initiativeId summary tasks, initiativeId ≠ [] →
        initiativeDetail rows initiativeId = some (summary, tasks) →
        (initiativeId, summary) ∈ list ∨
          list.length = 100 ∧ ∀ shown ∈ list, summary.updatedAtMs ≤ shown.2.updatedAtMs := by
  refine ⟨initiativeList_eq_none_iff, fun list hlist => ?_⟩
  simp only [initiativeList] at hlist
  split at hlist
  · obtain rfl := Option.some.inj hlist
    refine ⟨?_, top_pairwise, fun initiativeId summary hmem => ?_,
      fun initiativeId summary tasks hne hdetail => ?_⟩
    · exact (((List.perm_insertionSort _ _).map _).nodup_iff.mpr summaries_nodup).sublist
        ((List.take_sublist _ _).map _)
    · exact (mem_summaries_iff.mp (mem_of_mem_top hmem)).2
    · have hmem := mem_summaries_iff.mpr ⟨hne, tasks, hdetail⟩
      refine Classical.or_iff_not_imp_left.mpr fun hout => ?_
      obtain ⟨hlength, hbefore⟩ := top_full hmem hout
      exact ⟨hlength, fun shown hshown => (hbefore shown hshown).1⟩
  · cases hlist

section agents

variable {ledger : Ledger} {agent : Bytes} {schema : String} {line : Bytes}

theorem agentKey_stripLineEnd (schema : String) (line : Bytes) :
    agentKey schema (stripLineEnd line) = agentKey schema line := by
  rw [agentKey, agentKey, lineHasSchema_stripLineEnd, readString_orElse_stripLineEnd (by decide)]

theorem projectHeartbeat_stripLineEnd (line : Bytes) :
    projectHeartbeat (stripLineEnd line) = projectHeartbeat line := by
  simp only [projectHeartbeat, wtJsonReadLongLong,
    readString_orElse_stripLineEnd (k := "host") (by decide),
    readString_orElse_stripLineEnd (k := "currentTaskId") (by decide),
    readString_orElse_stripLineEnd (k := "statusLine") (by decide),
    readLong_stripLineEnd (k := "leaseExpiresAtUnixMs") (by decide),
    readLong_stripLineEnd (k := "createdAtUnixMs") (by decide)]

theorem projectAgentControl_stripLineEnd (line : Bytes) :
    projectAgentControl (stripLineEnd line) = projectAgentControl line := by
  simp only [projectAgentControl, wtJsonReadLongLong,
    readString_orElse_stripLineEnd (k := "action") (by decide),
    readString_orElse_stripLineEnd (k := "message") (by decide),
    readLong_stripLineEnd (k := "createdAtUnixMs") (by decide)]

/-- The line ends do not matter. -/
theorem lastOf_stripped {β : Type} {value : Bytes → β}
    (hvalue : ∀ line, value (stripLineEnd line) = value line) (ledger : Ledger) (agent : Bytes) :
    lastOf (valueFor (agentKey schema) value agent) (ledger.map stripLineEnd) =
      lastOf (valueFor (agentKey schema) value agent) ledger := by
  rw [lastOf_map]
  congr 1
  funext line
  simp only [valueFor, agentKey_stripLineEnd, hvalue]

/-- The line is the last of the agent's. -/
structure LastOf (schema : String) (ledger : Ledger) (agent line : Bytes) : Prop where
  key : agentKey schema line = some agent
  last : ∃ before behind, ledger = before ++ line :: behind ∧
    ∀ other ∈ behind, agentKey schema other ≠ some agent

theorem lastOf_valueFor_iff {β : Type} {value : Bytes → β} {v : β} :
    lastOf (valueFor (agentKey schema) value agent) ledger = some v ↔
      ∃ line, LastOf schema ledger agent line ∧ value line = v := by
  rw [lastOf_eq_some_iff]
  simp only [valueFor, Option.ite_none_right_eq_some, Option.some.injEq, ite_eq_right_iff,
    reduceCtorEq, imp_false]
  constructor
  · rintro ⟨before, line, behind, hsplit, ⟨hkey, rfl⟩, hbehind⟩
    exact ⟨line, ⟨hkey, before, behind, hsplit, hbehind⟩, rfl⟩
  · rintro ⟨line, ⟨hkey, before, behind, hsplit, hbehind⟩, rfl⟩
    exact ⟨before, line, behind, hsplit, ⟨hkey, rfl⟩, hbehind⟩

/-- There is one last line. -/
theorem LastOf.unique {other : Bytes} (h : LastOf schema ledger agent line)
    (hother : LastOf schema ledger agent other) : line = other := by
  have hvalue : ∀ l, LastOf schema ledger agent l →
      lastOf (valueFor (agentKey schema) id agent) ledger = some l := fun l hl =>
    lastOf_valueFor_iff.mpr ⟨l, hl, rfl⟩
  exact Option.some.inj ((hvalue line h).symm.trans (hvalue other hother))

end agents

/-- **The status page shows each agent that has sent a heartbeat once, in the order of the names,
with what its last heartbeat says.** -/
theorem heartbeats_shown (ledger : Ledger) :
    let shown := (heartbeats ledger).insertionSort (ascending Prod.fst)
    (shown.map Prod.fst).Nodup ∧ shown.Pairwise (ascending Prod.fst) ∧
      ∀ agent heartbeat, (agent, heartbeat) ∈ shown ↔
        ∃ line, LastOf heartbeatSchema ledger agent line ∧ projectHeartbeat line = heartbeat := by
  intro shown
  refine ⟨?_, List.pairwise_insertionSort _ _, fun agent heartbeat => ?_⟩
  · refine ((List.perm_insertionSort _ _).map _).nodup_iff.mpr ?_
    exact (upserts (agentKey heartbeatSchema) projectHeartbeat).idOf_scan_nodup none _
  · rw [List.mem_insertionSort, heartbeats, mem_scan_upserts,
      lastOf_stripped projectHeartbeat_stripLineEnd, lastOf_valueFor_iff]

/-! ## The switch of an agent -/

section switch

variable {ledger : Ledger} {agent : Bytes} {line : Bytes}

/-- What a record does to the switch. -/
def switchValue (agent line : Bytes) : Option Bool :=
  if lineHasSchema line agentControlSchema &&
      wtJsonReadString line "agent" wtTaskAgentSize == .ok agent then
    match wtJsonReadString line "action" 32 with
    | .ok action =>
      if action = bytes "pause" then some true
      else if action = bytes "resume" then some false
      else none
    | _ => none
  else none

theorem wtTaskAgentPaused_eq (ledger : Ledger) (agent : Bytes) :
    wtTaskAgentPaused ledger agent = (lastOf (switchValue agent) ledger).getD false := by
  rw [← foldl_getD, wtTaskAgentPaused]
  congr 1
  funext paused line
  rw [switchValue, agentControlSchema]
  split
  · cases wtJsonReadString line "action" 32 with
    | ok action =>
      dsimp only
      split
      · rfl
      · split <;> rfl
    | _ => rfl
  · rfl

/-- A name that is not empty is read as it is, or not at all. -/
theorem agentKey_eq_some_iff (hagent : agent ≠ []) :
    agentKey agentControlSchema line = some agent ↔
      (lineHasSchema line agentControlSchema &&
        wtJsonReadString line "agent" wtTaskAgentSize == .ok agent) = true := by
  rw [agentKey, Option.ite_none_right_eq_some, Option.some.injEq, StringField.orElse_eq,
    Bool.and_eq_true, beq_iff_eq]
  refine and_congr_right fun _ => ?_
  cases wtJsonReadString line "agent" wtTaskAgentSize with
  | ok name => simp [StringField.toOption]
  | _ => simp [StringField.toOption, Ne.symm hagent]

/-- The record says neither `pause` nor `resume`. -/
def OtherAction (line : Bytes) : Prop :=
  wtJsonReadString line "action" 32 ≠ .ok (bytes "pause") ∧
    wtJsonReadString line "action" 32 ≠ .ok (bytes "resume")

theorem switchValue_other (h : OtherAction line) : switchValue agent line = none := by
  unfold switchValue
  split
  · cases haction : wtJsonReadString line "action" 32 with
    | ok action =>
      rw [OtherAction, haction] at h
      have hpause : action ≠ bytes "pause" := fun heq => h.1 (heq ▸ rfl)
      have hresume : action ≠ bytes "resume" := fun heq => h.2 (heq ▸ rfl)
      simp [hpause, hresume]
    | _ => rfl
  · rfl

theorem state_other (h : OtherAction line) : (projectAgentControl line).state = bytes "active" := by
  refine if_neg fun hpause => h.1 ?_
  rw [StringField.orElse_eq] at hpause
  cases haction : wtJsonReadString line "action" 32 with
  | ok action =>
    rw [haction] at hpause
    rw [← hpause]
    rfl
  | _ =>
    have hempty : ([] : Bytes) ≠ bytes "pause" := by decide
    rw [haction] at hpause
    exact absurd hpause hempty

theorem switchValue_known (hagent : agent ≠ [])
    (hkey : agentKey agentControlSchema line = some agent) (h : ¬ OtherAction line) :
    switchValue agent line = some ((projectAgentControl line).state == bytes "paused") := by
  have hresume : bytes "resume" ≠ bytes "pause" := by decide
  have hactive : (bytes "active" == bytes "paused") = false := by decide
  rw [switchValue, if_pos ((agentKey_eq_some_iff hagent).mp hkey)]
  rw [OtherAction, not_and_or, not_not, not_not] at h
  rcases h with haction | haction
  · simp [haction, projectAgentControl, StringField.orElse]
  · simp [haction, projectAgentControl, StringField.orElse, hresume, hactive]

theorem switchValue_of_ne (hagent : agent ≠ [])
    (hkey : agentKey agentControlSchema line ≠ some agent) : switchValue agent line = none := by
  rw [switchValue, if_neg (mt (agentKey_eq_some_iff hagent).mpr hkey)]

theorem boardState_eq (ledger : Ledger) (now : Int) (agent : Bytes) :
    (agentWorkload ledger now agent).state =
      ((lastOf (valueFor (agentKey agentControlSchema) projectAgentControl agent) ledger).map
        AgentControlRow.state).getD (bytes "active") := by
  have hcontrol : (agentControls ledger).find? (fun row => row.1 = agent) =
      (lastOf (valueFor (agentKey agentControlSchema) projectAgentControl agent) ledger).map
        (agent, ·) := by
    rw [← lastOf_stripped projectAgentControl_stripLineEnd, ← find?_scan_upserts]
    rfl
  have hstate : (agentWorkload ledger now agent).state =
      ((((agentControls ledger).find? fun row => row.1 = agent).map Prod.snd).map
        AgentControlRow.state).getD (bytes "active") := by
    unfold agentWorkload
    dsimp only
    split <;> rfl
  rw [hstate, hcontrol]
  cases lastOf (valueFor (agentKey agentControlSchema) projectAgentControl agent) ledger <;> rfl

end switch

/-- **An agent's board shows the switch that the claims look at, except where the agent is paused
and its last control record says neither `pause` nor `resume`: the board then shows it active.** -/
theorem paused_shown_iff (ledger : Ledger) (now : Int) (agent : Bytes) (hagent : agent ≠ []) :
    ((agentWorkload ledger now agent).state = bytes "paused" ↔
        wtTaskAgentPaused ledger agent = true) ↔
      ¬ (wtTaskAgentPaused ledger agent = true ∧
        ∃ line, LastOf agentControlSchema ledger agent line ∧ OtherAction line) := by
  have hactive : bytes "active" ≠ bytes "paused" := by decide
  have hnone : ∀ lines : Ledger, (∀ line ∈ lines, agentKey agentControlSchema line ≠ some agent) →
      lastOf (switchValue agent) lines = none := fun lines hlines =>
    lastOf_eq_none fun line hline => switchValue_of_ne hagent (hlines line hline)
  rw [boardState_eq, wtTaskAgentPaused_eq]
  cases hlast : lastOf (valueFor (agentKey agentControlSchema) projectAgentControl agent)
      ledger with
  | none =>
    have hkeys : ∀ line ∈ ledger, agentKey agentControlSchema line ≠ some agent := by
      intro line hmem hkey
      rw [lastOf, List.getLast?_eq_none_iff, List.filterMap_eq_nil_iff] at hlast
      have hvalue := hlast line hmem
      rw [valueFor, if_pos hkey] at hvalue
      cases hvalue
    simp [hnone ledger hkeys, hactive]
  | some control =>
    obtain ⟨line, hline, rfl⟩ := lastOf_valueFor_iff.mp hlast
    obtain ⟨before, behind, rfl, hbehind⟩ := hline.last
    rw [lastOf_append, lastOf_cons, hnone behind hbehind, Option.none_or]
    by_cases hother : OtherAction line
    · rw [switchValue_other hother, Option.none_or, Option.map_some, state_other hother]
      have hexists : ∃ l, LastOf agentControlSchema (before ++ line :: behind) agent l ∧
          OtherAction l := ⟨line, hline, hother⟩
      simp [hactive, hexists]
    · rw [switchValue_known hagent hline.key hother, Option.some_or, Option.map_some]
      have hunique : ¬ ∃ l, LastOf agentControlSchema (before ++ line :: behind) agent l ∧
          OtherAction l := by
        rintro ⟨l, hl, hlother⟩
        obtain rfl : l = line := hl.unique hline
        exact hother hlother
      simp [hunique]

theorem paused_shown_iff_claude :
    ((agentWorkload [claudePackageLine] 0 (bytes "claude")).state = bytes "paused" ↔
        wtTaskAgentPaused [claudePackageLine] (bytes "claude") = true) ↔
      ¬ (wtTaskAgentPaused [claudePackageLine] (bytes "claude") = true ∧
        ∃ line, LastOf agentControlSchema [claudePackageLine] (bytes "claude") line ∧
          OtherAction line) :=
  paused_shown_iff [claudePackageLine] 0 (bytes "claude") (by decide)

end WovenTeam

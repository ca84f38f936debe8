import WovenTeam.ReadModels
import WovenTeam.Roomd.Recorded

/-!
# What policy allows and what is recorded

Between the evaluation and the record the package handler replaces a blank or unfitting model and
a negative budget in the policy input alone and appends the client's own JSON; the request handler
prints what it evaluated but drops the autonomy grant. `recorded_iff` says for which requests the
readers find in the ledger what was allowed.
-/

namespace WovenTeam

open CText QuotedText FirstSeen LineReader

/-! ## The statement -/

/-- The readers of a package line find the evaluated model and budget, no blocked vendor, and the
parts of the grant that the body asks for. -/
structure ReadAsAllowed (config : WtConfig) (body : Bytes) (input : WtPolicyInput)
    (line : Bytes) : Prop where
  modelId : (packageRow line []).modelId = input.modelId ∧
    (populateTaskPackageFields line { taskId := [] }).modelId = input.modelId
  maxTokens : (packageRow line []).maxTokens = input.maxTokens
  notBlocked : ∀ modelFamily ∈ wtPolicyExtractModelFamily (packageRow line []).modelId 64,
    wtPolicyVendorIsBlocked config.blockedVendors.text modelFamily = false
  level : (requestedAutonomyLevel body).isSome →
    (packageRow line []).autonomyLevel = input.autonomyLevel ∧
      (populateTaskPackageFields line { taskId := [] }).autonomyLevel = input.autonomyLevel
  ttl : (wtJsonReadLong body "ttlSeconds").isSome →
    (packageRow line []).autonomyTtlSeconds = input.autonomyTtlSeconds ∧
      (populateTaskPackageFields line { taskId := [] }).autonomyTtlSeconds =
        input.autonomyTtlSeconds
  scope : (wtJsonReadString body "scope" wtTaskBodySize).written.isSome →
    (packageRow line []).autonomyScope = input.autonomyScope ∧
      (populateTaskPackageFields line { taskId := [] }).autonomyScope = input.autonomyScope

/-- The appended lines hold a package, every package among them reads as it was allowed, and the
projection and the finders assign it to the evaluated agent. -/
structure RecordedAsAllowed (config : WtConfig) (body : Bytes) (input : WtPolicyInput)
    (appended : Ledger) : Prop where
  recorded : ∃ line ∈ appended, lineHasSchema line taskPackageSchema
  read : ∀ line ∈ appended, lineHasSchema line taskPackageSchema →
    ReadAsAllowed config body input line
  projected : ∀ taskId row, projectedRow appended taskId = some row →
    row.assignedAgent = input.assignedAgent
  found : ∀ taskId task, foldedState appended taskId = some task →
    task.assignedAgent = input.assignedAgent

/-! ## The routing event -/

section routing

variable {a b c d : Literal} {now : Int}

theorem routingRecord_schema :
    lineHasSchema (recordLine (routingRecord a b c d now)) taskEventSchema := by
  rw [lineHasSchema, recordLine, wtJsonReadString_object (.of_check rfl) quote_notMem_newline
    (v := .ofPlain "woventeam.task_event.v0.1") rfl (by decide)]
  decide

theorem routingRecord_taskId {taskId : Bytes} :
    lineTaskId (recordLine (routingRecord a b c d now)) = some taskId ↔
      unescape a.text = taskId ∧ taskId.length < wtTaskIdSize :=
  lineTaskId_recordLine (v := a) rfl

theorem routingRecord_agent_written :
    (wtJsonReadString (recordLine (routingRecord a b c d now)) "assignedAgent"
      wtTaskAgentSize).written = some ((unescape b.text).take (wtTaskAgentSize - 1)) :=
  written_object (.of_check rfl) quote_notMem_newline (v := b) rfl (by decide)

/-- The agent column after the routing event. -/
theorem insertEvent_routing (row : TaskRow) :
    (insertEvent (stripLineEnd (recordLine (routingRecord a b c d now))) taskEventSchema
        row).assignedAgent =
      if (unescape b.text).length < wtTaskAgentSize ∧ unescape b.text ≠ [] then unescape b.text
      else row.assignedAgent := by
  have hread : (wtJsonReadString (stripLineEnd (recordLine (routingRecord a b c d now)))
        "assignedAgent" wtTaskAgentSize).toOption =
      if (unescape b.text).length < wtTaskAgentSize then some (unescape b.text) else none := by
    rw [readString_stripLineEnd (by decide)]
    exact toOption_object (.of_check rfl) quote_notMem_newline rfl (by decide)
  have hproject := assignedAgentField.projected_event
    (stripLineEnd (recordLine (routingRecord a b c d now))) taskEventSchema row
  simp only [assignedAgentField, StringField.usable, hread] at hproject
  rw [hproject]
  by_cases hlt : (unescape b.text).length < wtTaskAgentSize
  · by_cases hne : unescape b.text = [] <;> simp [hlt, hne, Option.filter]
  · simp [hlt]

theorem overlayTaskEvent_routing (task : WtTaskSummary) :
    (overlayTaskEvent (recordLine (routingRecord a b c d now)) task).assignedAgent =
      (unescape b.text).take (wtTaskAgentSize - 1) := by
  show (wtJsonReadString _ "assignedAgent" wtTaskAgentSize).overwrite task.assignedAgent = _
  rw [StringField.overwrite_eq, routingRecord_agent_written]
  rfl

end routing

/-! ## Packages -/

/-- The task the routing event reads back as one of; none where there is no such event. -/
def TaskProposal.routedTask (p : TaskProposal) (config : WtConfig) : Option Bytes :=
  if !shouldRouteAgent (p.assignedAgent config) && decide ((reread p.taskId).length < wtTaskIdSize)
  then some (reread p.taskId) else none

/-- The line carries the evaluated model and budget and the requested grant. -/
structure CarriesAllowed (config : WtConfig) (body : Bytes) (p : TaskProposal) (line : Bytes) :
    Prop where
  modelId : (wtJsonReadString line "modelId" wtTaskModelSize).orElse [] = p.chosenModel config
  maxTokens : (wtJsonReadLong line "maxTokens").getD 0 = p.maxTokens
  level : ∀ level ∈ requestedAutonomyLevel body,
    (wtJsonReadString line "autonomyLevel" wtTaskPolicySize).orElse [] = level
  ttl : ∀ ttl ∈ wtJsonReadLong body "ttlSeconds", (wtJsonReadLong line "ttlSeconds").getD 0 = ttl ∧
    toInt32 ttl = ttl
  scope : ∀ scope ∈ (wtJsonReadString body "scope" wtTaskBodySize).written,
    (wtJsonReadString line "scope" wtTaskBodySize).orElse [] = scope

/-- The lines the client's JSON makes hold a package, each package among them carries what was
allowed, and each of their tasks has the evaluated agent: from the routing event, where that reads
back as an event of the task, or from the lines themselves. -/
structure LinesCarryAllowed (config : WtConfig) (body : Bytes) (p : TaskProposal) : Prop where
  recorded : ∃ line ∈ recordedLines body, lineHasSchema line taskPackageSchema
  carries : ∀ line ∈ recordedLines body, lineHasSchema line taskPackageSchema →
    CarriesAllowed config body p line
  projected : ∀ taskId row, projectedRow (recordedLines body) taskId = some row →
    (if p.routedTask config = some taskId ∧ taskId ≠ [] ∧
        (reread (p.assignedAgent config)).length < wtTaskAgentSize then
      reread (p.assignedAgent config) else row.assignedAgent) = p.assignedAgent config
  found : ∀ taskId task, foldedState (recordedLines body) taskId = some task →
    (if p.routedTask config = some taskId then
      (reread (p.assignedAgent config)).take (wtTaskAgentSize - 1)
      else task.assignedAgent) = p.assignedAgent config

section package

variable {config : WtConfig} {ledger : Ledger} {body : Bytes} {clock : Clock} {p : TaskProposal}
  {now : Int} {events : Ledger}

/-- What the readers take from a line is what was allowed exactly when the line carries it. -/
theorem readAsAllowed_iff {line : Bytes}
    (hallowed : (wtPolicyEvaluateTaskPackage config
      (p.policyInput config ledger body clock)).allowed = true) :
    ReadAsAllowed config body (p.policyInput config ledger body clock) line ↔
      CarriesAllowed config body p line := by
  constructor
  · intro h
    refine ⟨h.modelId.1, h.maxTokens, fun level hlevel => ?_, fun ttl httl => ?_,
      fun scope hscope => ?_⟩
    · have hread := (h.level (Option.isSome_of_mem hlevel)).1
      have hinput : (p.policyInput config ledger body clock).autonomyLevel = level := by
        show resolveAutonomyLevel config body _ _ = level
        rw [resolveAutonomyLevel, Option.mem_def.mp hlevel]
        rfl
      exact hread.trans hinput
    · have hread := h.ttl (Option.isSome_of_mem httl)
      have hinput : (p.policyInput config ledger body clock).autonomyTtlSeconds = ttl := by
        show (wtJsonReadLong body "ttlSeconds").getD 0 = ttl
        rw [Option.mem_def.mp httl]
        rfl
      rw [hinput] at hread
      refine ⟨hread.1, ?_⟩
      have h1 : (wtJsonReadLong line "ttlSeconds").getD 0 = ttl := hread.1
      have h2 : ((wtJsonReadLong line "ttlSeconds").map toInt32).getD 0 = ttl := hread.2
      cases hline : wtJsonReadLong line "ttlSeconds" with
      | none =>
        rw [hline] at h1
        rw [← show (0 : Int) = ttl from h1]
        rfl
      | some n =>
        rw [hline] at h1 h2
        have hn : n = ttl := h1
        rw [hn] at h2
        exact h2
    · have hread := (h.scope (Option.isSome_of_mem hscope)).1
      have hinput : (p.policyInput config ledger body clock).autonomyScope = scope := by
        show (wtJsonReadString body "scope" wtTaskBodySize).overwrite [] = scope
        rw [StringField.overwrite_eq, Option.mem_def.mp hscope]
        rfl
      exact hread.trans hinput
  · intro h
    have hmodel : (packageRow line []).modelId = p.chosenModel config := h.modelId
    refine ⟨⟨h.modelId, h.modelId⟩, h.maxTokens, ?_, fun hsome => ?_, fun hsome => ?_,
      fun hsome => ?_⟩
    · intro modelFamily hfamily
      rw [hmodel] at hfamily
      exact not_blocked_of_allowed hallowed hfamily
    · obtain ⟨level, hlevel⟩ := Option.isSome_iff_exists.mp hsome
      have hinput : (p.policyInput config ledger body clock).autonomyLevel = level := by
        show resolveAutonomyLevel config body _ _ = level
        rw [resolveAutonomyLevel, hlevel]
        rfl
      rw [hinput]
      exact ⟨h.level level hlevel, h.level level hlevel⟩
    · obtain ⟨ttl, httl⟩ := Option.isSome_iff_exists.mp hsome
      have hinput : (p.policyInput config ledger body clock).autonomyTtlSeconds = ttl := by
        show (wtJsonReadLong body "ttlSeconds").getD 0 = ttl
        rw [httl]
        rfl
      obtain ⟨hline, hint⟩ := h.ttl ttl httl
      rw [hinput]
      refine ⟨hline, ?_⟩
      show ((wtJsonReadLong line "ttlSeconds").map toInt32).getD 0 = ttl
      cases hread : wtJsonReadLong line "ttlSeconds" with
      | none =>
        rw [hread] at hline
        exact hline
      | some n =>
        rw [hread] at hline
        have hn : n = ttl := hline
        rw [hn]
        exact hint
    · obtain ⟨scope, hscope⟩ := Option.isSome_iff_exists.mp hsome
      have hinput : (p.policyInput config ledger body clock).autonomyScope = scope := by
        show (wtJsonReadString body "scope" wtTaskBodySize).overwrite [] = scope
        rw [StringField.overwrite_eq, hscope]
        rfl
      rw [hinput]
      exact ⟨h.scope scope hscope, h.scope scope hscope⟩

/-- The routing event is no package. -/
theorem forall_package_append (hevents : RoutingEvents p config now events) {P : Bytes → Prop} :
    (∀ line ∈ recordedLines body ++ events, lineHasSchema line taskPackageSchema → P line) ↔
      ∀ line ∈ recordedLines body, lineHasSchema line taskPackageSchema → P line := by
  have hno : ∀ line ∈ events, ¬ lineHasSchema line taskPackageSchema = true := by
    unfold RoutingEvents at hevents
    split at hevents
    · simp [hevents]
    · obtain ⟨a, b, c, d, -, -, rfl⟩ := hevents
      intro line hline
      rw [List.mem_singleton.mp hline, taskEvent_ne_taskPackage routingRecord_schema]
      decide
  constructor
  · exact fun h line hline => h line (List.mem_append_left _ hline)
  · intro h line hline hpackage
    exact h line ((List.mem_append.mp hline).resolve_right fun he => hno line he hpackage) hpackage

theorem routingRecord_lineTaskId_iff {a b c d : Literal}
    (hroute : ¬ shouldRouteAgent (p.assignedAgent config) = true)
    (ha : unescape a.text = reread p.taskId) {taskId : Bytes} :
    lineTaskId (recordLine (routingRecord a b c d now)) = some taskId ↔
      p.routedTask config = some taskId := by
  rw [routingRecord_taskId, ha, TaskProposal.routedTask]
  simp only [hroute, Bool.not_false, Bool.true_and, decide_eq_true_eq]
  split
  · rename_i hlt
    simp only [Option.some.injEq, and_iff_left_iff_imp]
    rintro rfl
    exact hlt
  · rename_i hlt
    simp only [reduceCtorEq, iff_false, not_and]
    rintro rfl
    exact hlt

/-- The agents of the rows behind the routing event. -/
theorem projected_routing_iff (hevents : RoutingEvents p config now events) {agent : Bytes} :
    (∀ taskId row, projectedRow (recordedLines body ++ events) taskId = some row →
        row.assignedAgent = agent) ↔
      ∀ taskId row, projectedRow (recordedLines body) taskId = some row →
        (if p.routedTask config = some taskId ∧ taskId ≠ [] ∧
            (reread (p.assignedAgent config)).length < wtTaskAgentSize then
          reread (p.assignedAgent config) else row.assignedAgent) = agent := by
  unfold RoutingEvents at hevents
  by_cases hroute : shouldRouteAgent (p.assignedAgent config) = true
  · rw [if_pos hroute] at hevents
    simp [hevents, TaskProposal.routedTask, hroute]
  · rw [if_neg hroute] at hevents
    obtain ⟨a, b, c, d, ha, hb, rfl⟩ := hevents
    have hne : reread (p.assignedAgent config) ≠ [] := by
      intro hnil
      rw [reread_eq_nil_iff] at hnil
      exact hroute (by rw [hnil]; rfl)
    simp only [projectedRow_append_event routingRecord_schema,
      routingRecord_lineTaskId_iff hroute ha]
    refine forall_congr' fun taskId => ?_
    by_cases hand : p.routedTask config = some taskId ∧ taskId ≠ []
    · simp only [hand.1, hand.2, ne_eq, not_false_eq_true, and_self, true_and, ↓reduceIte,
        Option.map_eq_some_iff, forall_exists_index, and_imp, forall_apply_eq_imp_iff₂,
        insertEvent_routing, hb, hne, and_true]
    · have hno : ¬ (p.routedTask config = some taskId ∧ taskId ≠ [] ∧
          (reread (p.assignedAgent config)).length < wtTaskAgentSize) :=
        fun h => hand ⟨h.1, h.2.1⟩
      simp only [if_neg hand, if_neg hno]

/-- The agents the finders fold behind the routing event. -/
theorem found_routing_iff (hevents : RoutingEvents p config now events) {agent : Bytes} :
    (∀ taskId task, foldedState (recordedLines body ++ events) taskId = some task →
        task.assignedAgent = agent) ↔
      ∀ taskId task, foldedState (recordedLines body) taskId = some task →
        (if p.routedTask config = some taskId then
          (reread (p.assignedAgent config)).take (wtTaskAgentSize - 1)
          else task.assignedAgent) = agent := by
  unfold RoutingEvents at hevents
  by_cases hroute : shouldRouteAgent (p.assignedAgent config) = true
  · rw [if_pos hroute] at hevents
    simp [hevents, TaskProposal.routedTask, hroute]
  · rw [if_neg hroute] at hevents
    obtain ⟨a, b, c, d, ha, hb, rfl⟩ := hevents
    simp only [foldedState_append_event routingRecord_schema,
      routingRecord_lineTaskId_iff hroute ha]
    refine forall_congr' fun taskId => ?_
    by_cases hand : p.routedTask config = some taskId
    · simp only [if_pos hand, Option.map_eq_some_iff, forall_exists_index, and_imp,
        forall_apply_eq_imp_iff₂, overlayTaskEvent_routing, hb]
    · simp only [if_neg hand]

/-- **What the readers find behind an accepted package is what was allowed exactly when the lines
of the client's JSON, with the routing event, carry it.** -/
theorem package_recorded_iff (hevents : RoutingEvents p config now events)
    (hallowed : (wtPolicyEvaluateTaskPackage config
      (p.policyInput config ledger body clock)).allowed = true) :
    RecordedAsAllowed config body (p.policyInput config ledger body clock)
        (recordedLines body ++ events) ↔
      LinesCarryAllowed config body p := by
  have hread : (∀ line ∈ recordedLines body ++ events, lineHasSchema line taskPackageSchema →
      ReadAsAllowed config body (p.policyInput config ledger body clock) line) ↔ _ :=
    forall_package_append hevents
  have hpackage : (∀ line ∈ recordedLines body ++ events, lineHasSchema line taskPackageSchema →
      False) ↔ _ := forall_package_append hevents
  have hprojected : (∀ taskId row, projectedRow (recordedLines body ++ events) taskId = some row →
      row.assignedAgent = p.assignedAgent config) ↔ _ := projected_routing_iff hevents
  have hfound : (∀ taskId task, foldedState (recordedLines body ++ events) taskId = some task →
      task.assignedAgent = p.assignedAgent config) ↔ _ := found_routing_iff hevents
  constructor
  · intro h
    refine ⟨?_, fun line hline hs => (readAsAllowed_iff hallowed).mp (hread.mp h.read line hline hs),
      hprojected.mp h.projected, hfound.mp h.found⟩
    by_contra hnone
    obtain ⟨line, hline, hs⟩ := h.recorded
    exact hpackage.mpr (fun l hl hsl => hnone ⟨l, hl, hsl⟩) line hline hs
  · intro h
    obtain ⟨line, hline, hs⟩ := h.recorded
    exact ⟨⟨line, List.mem_append_left _ hline, hs⟩,
      hread.mpr fun l hl hsl => (readAsAllowed_iff hallowed).mpr (h.carries l hl hsl),
      hprojected.mpr h.projected, hfound.mpr h.found⟩

end package

/-! ### Rows of new packages -/

section rows

variable {ledger : Ledger} {line taskId : Bytes}

theorem projectedRow_append_other (h : ¬ lineHasSchema line taskPackageSchema = true)
    (hnone : projectedRow ledger taskId = none) : projectedRow (ledger ++ [line]) taskId = none := by
  have hcreates : projectionTable.creates (stripLineEnd line) = false := by
    show lineHasSchema (stripLineEnd line) taskPackageSchema = false
    rw [lineHasSchema_stripLineEnd]
    simpa using h
  rw [projectedRow_append, hnone]
  by_cases hkey : projectionTable.key (stripLineEnd line) = some taskId
  · rw [projectionTable.stateStep_none hkey, hcreates]
    rfl
  · exact projectionTable.stateStep_of_ne hkey _

theorem projectedRow_append_package (h : lineHasSchema line taskPackageSchema)
    (hnone : projectedRow ledger taskId = none) :
    projectedRow (ledger ++ [line]) taskId =
      if (wtJsonReadString line "taskId" wtTaskIdSize).orElse [] = taskId then
        some (packageRow (stripLineEnd line) taskId)
      else none := by
  have hkey : projectionTable.key (stripLineEnd line) =
      some ((wtJsonReadString line "taskId" wtTaskIdSize).orElse []) := by
    show projectionKey (stripLineEnd line) = _
    rw [projectionKey, lineHasSchema_stripLineEnd, if_pos h,
      readString_orElse_stripLineEnd (by decide)]
  have hcreates : projectionTable.creates (stripLineEnd line) = true := by
    show lineHasSchema (stripLineEnd line) taskPackageSchema = true
    rw [lineHasSchema_stripLineEnd, h]
  rw [projectedRow_append, hnone]
  split
  · rename_i hid
    rw [hid] at hkey
    rw [projectionTable.stateStep_none hkey, hcreates]
    rfl
  · rename_i hid
    rw [projectionTable.stateStep_of_ne fun hk => hid (Option.some.inj (hkey.symm.trans hk))]

theorem foldedState_append_package (h : lineHasSchema line taskPackageSchema)
    (hnone : foldedState ledger taskId = none) :
    foldedState (ledger ++ [line]) taskId =
      if lineTaskId line = some taskId then some (populateTaskPackageFields line { taskId })
      else none := by
  rw [foldedState, Table.stateOf_append, ← foldedState, hnone]
  split
  · rename_i hkey
    rw [queuedTable.stateStep_none hkey, queuedTable_creates, h]
    rfl
  · rename_i hkey
    rw [queuedTable.stateStep_of_ne hkey]

theorem foldedState_append_other (h : ¬ lineHasSchema line taskPackageSchema = true)
    (hnone : foldedState ledger taskId = none) : foldedState (ledger ++ [line]) taskId = none := by
  rw [foldedState, Table.stateOf_append, ← foldedState, hnone]
  by_cases hkey : queuedTable.key line = some taskId
  · rw [queuedTable.stateStep_none hkey, queuedTable_creates]
    simp [h]
  · rw [queuedTable.stateStep_of_ne hkey]

theorem packageRow_assignedAgent :
    (packageRow (stripLineEnd line) taskId).assignedAgent =
      (wtJsonReadString line "assignedAgent" wtTaskAgentSize).orElse (bytes "all") :=
  readString_orElse_stripLineEnd (by decide) line wtTaskAgentSize _

end rows

/-! ## Client packages that stay as they are -/

/-- The reader takes the same string from both texts. -/
def SameString (body line : Bytes) (key : String) (size : Nat) : Prop :=
  wtJsonReadString line key size = wtJsonReadString body key size

/-- The compacted JSON is one line, and the readers take from it what they take from the body. -/
structure KeepsRequest (body line : Bytes) : Prop where
  oneLine : recordedLines body = [line]
  schema : SameString body line "schema" 128
  taskId : SameString body line "taskId" wtTaskIdSize
  assignedAgent : SameString body line "assignedAgent" wtTaskAgentSize
  modelId : SameString body line "modelId" wtTaskModelSize
  autonomyLevel : SameString body line "autonomyLevel" wtTaskPolicySize
  scope : SameString body line "scope" wtTaskBodySize
  maxTokens : wtJsonReadLong line "maxTokens" = wtJsonReadLong body "maxTokens"
  ttlSeconds : wtJsonReadLong line "ttlSeconds" = wtJsonReadLong body "ttlSeconds"

/-- The routing event is there and reads back as an event of the task. -/
def TaskProposal.ReachesTask (p : TaskProposal) (config : WtConfig) : Prop :=
  ¬ shouldRouteAgent (p.assignedAgent config) = true ∧ reread p.taskId = p.taskId

/-- The body itself gives the chosen model, a budget that is not negative, a lifetime that fits an
`int` and a scope that fits its buffer; and the evaluated agent is named by the routing event, or,
where that does not reach the task's row, by the body. -/
structure PackageKept (config : WtConfig) (body : Bytes) (p : TaskProposal) : Prop where
  model : (wtJsonReadString body "modelId" wtTaskModelSize).orElse [] = p.chosenModel config
  budget : 0 ≤ (wtJsonReadLong body "maxTokens").getD 0
  ttl : ∀ ttl ∈ wtJsonReadLong body "ttlSeconds", toInt32 ttl = ttl
  scope : ∀ cut, wtJsonReadString body "scope" wtTaskBodySize = .cut cut → cut = []
  routed : p.ReachesTask config → reread (p.assignedAgent config) = p.assignedAgent config
  assigned : ¬ p.ReachesTask config ∨ p.taskId = [] →
    wtJsonReadString body "assignedAgent" wtTaskAgentSize = .ok (p.assignedAgent config)

/-- What `readTaskPackage` takes from the body. -/
structure PackageFields (body : Bytes) (p : TaskProposal) : Prop where
  schema : wtJsonReadString body "schema" 128 = .ok (bytes taskPackageSchema)
  taskId : wtJsonReadString body "taskId" wtTaskIdSize = .ok p.taskId
  agent : p.requestedAgent =
    (wtJsonReadString body "assignedAgent" wtTaskAgentSize).orElse (bytes "router")
  maxTokens : p.maxTokens = clampedTokens body 0

theorem readTaskPackage_fields {body : Bytes} {p : TaskProposal}
    (h : readTaskPackage body = some p) : PackageFields body p := by
  unfold readTaskPackage at h
  obtain ⟨schema, h1, h⟩ := Option.bind_eq_some_iff.mp h
  split at h
  · obtain ⟨_, h, -⟩ := Option.bind_eq_some_iff.mp h
    cases h
  · rename_i hschema
    obtain ⟨taskId, h2, h⟩ := Option.bind_eq_some_iff.mp h
    obtain ⟨_, -, h⟩ := Option.bind_eq_some_iff.mp h
    obtain rfl := Option.some.inj h
    rw [StringField.toOption_eq_some_iff] at h1 h2
    exact ⟨by rw [h1, not_not.mp hschema], h2, rfl, rfl⟩

/-- Rereading does not change an agent only behind the end of its buffer. -/
theorem reread_of_take {agent : Bytes} {size : Nat} (hlen : agent.length ≤ size)
    (h : (reread agent).take size = agent) : reread agent = agent := by
  induction agent generalizing size with
  | nil => rfl
  | cons b t ih =>
    cases size with
    | zero => simp at hlen
    | succ size =>
      rw [reread, List.flatMap_cons] at h ⊢
      by_cases hb : b < 32 ∧ b ≠ 10 ∧ b ≠ 13 ∧ b ≠ 9
      · -- the escape of a control byte begins with a letter
        rw [rereadByte, if_pos hb] at h
        have hhead := (List.cons.inj h).1
        exact absurd (hhead ▸ hb.1) (by decide)
      · rw [rereadByte, if_neg hb] at h ⊢
        have htail : (reread t).take size = t := (List.cons.inj h).2
        exact congrArg (b :: ·) (ih (by simpa using hlen) htail)

theorem routeAgentForTask_length (config : WtConfig) (role profile : Bytes) {agent : Bytes}
    (h : agent.length < wtTaskAgentSize) :
    (routeAgentForTask config role profile agent).length < wtTaskAgentSize := by
  have hdefault : (defaultAgentForRole role).length < wtTaskAgentSize := by
    unfold defaultAgentForRole
    split_ifs <;> decide
  unfold routeAgentForTask
  split_ifs
  · exact h
  · decide
  · exact hdefault
  · decide
  · decide

theorem orElse_length {json : Bytes} {key : String} {size : Nat} {fallback : Bytes}
    (h : fallback.length < size) :
    ((wtJsonReadString json key size).orElse fallback).length < size := by
  cases hread : wtJsonReadString json key size with
  | absent => exact h
  | cut => exact h
  | ok => exact wtJsonReadString_length hread

theorem PackageFields.assignedAgent_length {body : Bytes} {p : TaskProposal}
    (h : PackageFields body p) (config : WtConfig) :
    (p.assignedAgent config).length < wtTaskAgentSize := by
  refine routeAgentForTask_length config _ _ ?_
  rw [h.agent]
  exact orElse_length (by decide)

section kept

variable {config : WtConfig} {body line : Bytes} {p : TaskProposal}

theorem routedTask_eq_some_iff (hlen : p.taskId.length < wtTaskIdSize) :
    p.routedTask config = some p.taskId ↔ p.ReachesTask config := by
  unfold TaskProposal.routedTask TaskProposal.ReachesTask
  by_cases hroute : shouldRouteAgent (p.assignedAgent config) = true
  · simp [hroute]
  · rw [Bool.not_eq_true] at hroute
    simp only [hroute, Bool.not_false, Bool.true_and, decide_eq_true_eq, Bool.false_eq_true,
      not_false_eq_true, true_and]
    split
    · exact ⟨Option.some.inj, congrArg some⟩
    · rename_i hlong
      refine iff_of_false (by simp) fun hsame => hlong ?_
      rw [hsame]
      exact hlen

/-- What a kept line carries. -/
theorem carriesAllowed_iff (hkeeps : KeepsRequest body line) (hfields : PackageFields body p) :
    CarriesAllowed config body p line ↔
      (wtJsonReadString body "modelId" wtTaskModelSize).orElse [] = p.chosenModel config ∧
      0 ≤ (wtJsonReadLong body "maxTokens").getD 0 ∧
      (∀ ttl ∈ wtJsonReadLong body "ttlSeconds", toInt32 ttl = ttl) ∧
      ∀ cut, wtJsonReadString body "scope" wtTaskBodySize = .cut cut → cut = [] := by
  have hbudget : (wtJsonReadLong line "maxTokens").getD 0 = p.maxTokens ↔
      0 ≤ (wtJsonReadLong body "maxTokens").getD 0 := by
    rw [hkeeps.maxTokens, hfields.maxTokens, clampedTokens]
    omega
  constructor
  · intro h
    refine ⟨?_, hbudget.mp h.maxTokens, fun ttl httl => (h.ttl ttl httl).2, fun cut hcut => ?_⟩
    · rw [← hkeeps.modelId]
      exact h.modelId
    · have hread := h.scope cut (by rw [hcut]; rfl)
      rw [hkeeps.scope, hcut] at hread
      exact hread.symm
  · rintro ⟨hmodel, hnonneg, hint, hscope⟩
    refine ⟨?_, hbudget.mpr hnonneg, fun level hlevel => ?_, fun ttl httl => ⟨?_, hint ttl httl⟩,
      fun scope hscope' => ?_⟩
    · rw [hkeeps.modelId]
      exact hmodel
    · have hread := (Option.filter_eq_some_iff.mp hlevel).1
      rw [StringField.toOption_eq_some_iff] at hread
      rw [hkeeps.autonomyLevel, hread]
      rfl
    · rw [hkeeps.ttlSeconds, Option.mem_def.mp httl]
      rfl
    · rw [hkeeps.scope]
      cases hread : wtJsonReadString body "scope" wtTaskBodySize with
      | absent =>
        rw [hread] at hscope'
        cases hscope'
      | cut text =>
        rw [hread] at hscope'
        rw [← Option.some.inj hscope', hscope text hread]
        rfl
      | ok text =>
        rw [hread] at hscope'
        exact Option.some.inj hscope'

theorem orElse_eq_iff {r : StringField} {fallback value : Bytes} (h : fallback ≠ value) :
    r.orElse fallback = value ↔ r = .ok value := by
  cases r <;> simp [StringField.orElse, h]

/-- Where the agent of a kept line comes from. -/
theorem assigned_iff (hfields : PackageFields body p) :
    ((if p.routedTask config = some p.taskId ∧ p.taskId ≠ [] ∧
          (reread (p.assignedAgent config)).length < wtTaskAgentSize then
        reread (p.assignedAgent config)
        else (wtJsonReadString body "assignedAgent" wtTaskAgentSize).orElse (bytes "all")) =
          p.assignedAgent config ∧
      (if p.routedTask config = some p.taskId then
        (reread (p.assignedAgent config)).take (wtTaskAgentSize - 1)
        else (wtJsonReadString body "assignedAgent" wtTaskAgentSize).orElse []) =
          p.assignedAgent config) ↔
      (p.ReachesTask config → reread (p.assignedAgent config) = p.assignedAgent config) ∧
        (¬ p.ReachesTask config ∨ p.taskId = [] →
          wtJsonReadString body "assignedAgent" wtTaskAgentSize = .ok (p.assignedAgent config)) := by
  have hid : p.taskId.length < wtTaskIdSize := wtJsonReadString_length hfields.taskId
  have hagent := hfields.assignedAgent_length config
  have hreaches := @routedTask_eq_some_iff config p hid
  by_cases hr : p.ReachesTask config
  · have hrouted := hreaches.mpr hr
    have hall : bytes "all" ≠ p.assignedAgent config := fun h => hr.1 (by rw [← h]; rfl)
    have htake : (reread (p.assignedAgent config)).take (wtTaskAgentSize - 1) =
        p.assignedAgent config ↔ reread (p.assignedAgent config) = p.assignedAgent config := by
      refine ⟨fun h => reread_of_take (by omega) h, fun h => ?_⟩
      rw [h]
      exact List.take_of_length_le (by omega)
    simp only [hrouted, hr, true_and, ↓reduceIte, htake, forall_const, not_true_eq_false, false_or]
    by_cases hempty : p.taskId = []
    · simp only [hempty, ne_eq, not_true_eq_false, false_and, ↓reduceIte, orElse_eq_iff hall,
        forall_const, and_comm]
    · simp only [hempty, ne_eq, not_false_eq_true, true_and, false_imp_iff, and_true,
        and_iff_right_iff_imp]
      intro h
      rw [if_pos (by rw [h]; exact hagent), h]
  · have hrouted : ¬ p.routedTask config = some p.taskId := fun h => hr (hreaches.mp h)
    simp only [hrouted, hr, false_and, ↓reduceIte, false_imp_iff, true_and, not_false_eq_true,
      true_or, forall_const]
    cases wtJsonReadString body "assignedAgent" wtTaskAgentSize with
    | ok value => simp [StringField.orElse]
    | absent =>
      simp only [StringField.orElse, reduceCtorEq, iff_false, not_and]
      intro h1 h2
      rw [← h2] at h1
      exact absurd h1 (by decide)
    | cut text =>
      simp only [StringField.orElse, reduceCtorEq, iff_false, not_and]
      intro h1 h2
      rw [← h2] at h1
      exact absurd h1 (by decide)

/-- **A client package that compaction keeps is recorded as it was allowed exactly when the body
itself says what was evaluated.** -/
theorem linesCarryAllowed_iff (hkeeps : KeepsRequest body line) (hfields : PackageFields body p) :
    LinesCarryAllowed config body p ↔ PackageKept config body p := by
  have hschema : lineHasSchema line taskPackageSchema := by
    rw [lineHasSchema, hkeeps.schema, hfields.schema]
    decide
  have htask : wtJsonReadString line "taskId" wtTaskIdSize = .ok p.taskId :=
    hkeeps.taskId.trans hfields.taskId
  have hrow : ∀ taskId, projectedRow [line] taskId =
      if p.taskId = taskId then some (packageRow (stripLineEnd line) taskId) else none := by
    intro taskId
    have h := @projectedRow_append_package [] line taskId hschema rfl
    rw [htask] at h
    exact h
  have hstate : ∀ taskId, foldedState [line] taskId =
      if p.taskId = taskId then some (populateTaskPackageFields line { taskId }) else none := by
    intro taskId
    have h := @foldedState_append_package [] line taskId hschema rfl
    rw [lineTaskId, htask] at h
    simpa [StringField.toOption] using h
  have hprojected : (∀ taskId row, projectedRow (recordedLines body) taskId = some row →
        (if p.routedTask config = some taskId ∧ taskId ≠ [] ∧
            (reread (p.assignedAgent config)).length < wtTaskAgentSize then
          reread (p.assignedAgent config) else row.assignedAgent) = p.assignedAgent config) ↔
      (if p.routedTask config = some p.taskId ∧ p.taskId ≠ [] ∧
          (reread (p.assignedAgent config)).length < wtTaskAgentSize then
        reread (p.assignedAgent config)
        else (wtJsonReadString body "assignedAgent" wtTaskAgentSize).orElse (bytes "all")) =
          p.assignedAgent config := by
    rw [hkeeps.oneLine, ← hkeeps.assignedAgent]
    constructor
    · intro h
      have hown := h p.taskId _ (by rw [hrow, if_pos rfl])
      rwa [packageRow_assignedAgent] at hown
    · intro h taskId row hsome
      rw [hrow] at hsome
      split at hsome
      · rename_i hid
        subst hid
        rwa [← Option.some.inj hsome, packageRow_assignedAgent]
      · cases hsome
  have hfound : (∀ taskId task, foldedState (recordedLines body) taskId = some task →
        (if p.routedTask config = some taskId then
          (reread (p.assignedAgent config)).take (wtTaskAgentSize - 1)
          else task.assignedAgent) = p.assignedAgent config) ↔
      (if p.routedTask config = some p.taskId then
        (reread (p.assignedAgent config)).take (wtTaskAgentSize - 1)
        else (wtJsonReadString body "assignedAgent" wtTaskAgentSize).orElse []) =
          p.assignedAgent config := by
    rw [hkeeps.oneLine, ← hkeeps.assignedAgent]
    constructor
    · intro h
      exact h p.taskId _ (by rw [hstate, if_pos rfl])
    · intro h taskId task hsome
      rw [hstate] at hsome
      split at hsome
      · rename_i hid
        subst hid
        rw [← Option.some.inj hsome]
        exact h
      · cases hsome
  have hcarries : (∀ l ∈ recordedLines body, lineHasSchema l taskPackageSchema →
      CarriesAllowed config body p l) ↔ CarriesAllowed config body p line := by
    rw [hkeeps.oneLine]
    simp [hschema]
  constructor
  · intro h
    obtain ⟨hmodel, hbudget, httl, hscope⟩ :=
      (carriesAllowed_iff hkeeps hfields).mp (hcarries.mp h.carries)
    obtain ⟨hrouted, hassigned⟩ :=
      (assigned_iff hfields).mp ⟨hprojected.mp h.projected, hfound.mp h.found⟩
    exact ⟨hmodel, hbudget, httl, hscope, hrouted, hassigned⟩
  · intro h
    obtain ⟨hrow', hstate'⟩ := (assigned_iff hfields).mpr ⟨h.routed, h.assigned⟩
    refine ⟨⟨line, by rw [hkeeps.oneLine]; exact List.mem_singleton_self line, hschema⟩,
      hcarries.mpr ?_, hprojected.mpr hrow', hfound.mpr hstate'⟩
    exact (carriesAllowed_iff hkeeps hfields).mpr ⟨h.model, h.budget, h.ttl, h.scope⟩

end kept

/-! ## Requests -/

/-- The evaluated model and agent read back as they are, and the body asks for no level, no
lifetime and no scope. -/
structure RequestKept (config : WtConfig) (body : Bytes) (p : TaskProposal) : Prop where
  model : reread (p.chosenModel config) = p.chosenModel config
  agent : reread (p.assignedAgent config) = p.assignedAgent config
  level : requestedAutonomyLevel body = none
  ttl : ∀ ttl ∈ wtJsonReadLong body "ttlSeconds", ttl = 0
  scope : ∀ scope ∈ (wtJsonReadString body "scope" wtTaskBodySize).written, scope = []

section request

variable {config : WtConfig} {ledger : Ledger} {body : Bytes} {clock : Clock} {r : TaskRequest}
  {now : Int} {lines : Ledger}

/-- A text and its fallback that are printed and read back. -/
theorem reread_or_iff {text fallback : Bytes} {size : Nat} (hlen : text.length < size)
    (hfallback : reread fallback = fallback) :
    (if (reread text).length < size then some (reread text) else none).getD fallback = text ↔
      reread text = text := by
  constructor
  · intro h
    split at h
    · exact h
    · rw [← h]
      exact hfallback
  · intro h
    rw [h, if_pos hlen]
    rfl

theorem readTaskRequest_lengths (h : readTaskRequest body = some r) :
    r.proposal.requestedAgent.length < wtTaskAgentSize ∧
      r.proposal.modelId.length < wtTaskModelSize ∧
      r.proposal.taskId.length < wtTaskIdSize := by
  unfold readTaskRequest at h
  obtain ⟨_, -, h⟩ := Option.bind_eq_some_iff.mp h
  split at h
  · obtain ⟨_, h, -⟩ := Option.bind_eq_some_iff.mp h
    cases h
  · obtain ⟨_, -, h⟩ := Option.bind_eq_some_iff.mp h
    obtain ⟨_, hid, h⟩ := Option.bind_eq_some_iff.mp h
    obtain ⟨_, -, h⟩ := Option.bind_eq_some_iff.mp h
    obtain ⟨_, -, h⟩ := Option.bind_eq_some_iff.mp h
    obtain ⟨_, -, h⟩ := Option.bind_eq_some_iff.mp h
    obtain ⟨_, -, h⟩ := Option.bind_eq_some_iff.mp h
    obtain ⟨_, -, h⟩ := Option.bind_eq_some_iff.mp h
    obtain rfl := Option.some.inj h
    exact ⟨orElse_length (by decide), orElse_length (by decide),
      wtJsonReadString_length (StringField.toOption_eq_some_iff.mp hid)⟩

theorem chosenModel_length {p : TaskProposal} (h : p.modelId.length < wtTaskModelSize) :
    (p.chosenModel config).length < wtTaskModelSize := by
  unfold TaskProposal.chosenModel defaultModelForAgent
  split_ifs
  · decide
  · decide
  · decide
  · exact h
  · exact h

/-- What the printed package carries. -/
theorem request_carriesAllowed_iff {e : EscapedRequest} (he : e.Of r config)
    (hr : readTaskRequest body = some r) :
    CarriesAllowed config body r.proposal (recordLine (taskPackageRecord e r.proposal.toolProfile
        r.proposal.maxTokens now)) ↔
      reread (r.proposal.chosenModel config) = r.proposal.chosenModel config ∧
        requestedAutonomyLevel body = none ∧
        (∀ ttl ∈ wtJsonReadLong body "ttlSeconds", ttl = 0) ∧
        ∀ scope ∈ (wtJsonReadString body "scope" wtTaskBodySize).written, scope = [] := by
  obtain ⟨hlevel, hscope, httl⟩ := @taskPackageRecord_autonomy e r.proposal.toolProfile
    r.proposal.maxTokens now
  have hmodel := @chosenModel_length config _ (readTaskRequest_lengths hr).2.1
  have hread : (wtJsonReadString (recordLine (taskPackageRecord e r.proposal.toolProfile
      r.proposal.maxTokens now)) "modelId" wtTaskModelSize).orElse [] =
        r.proposal.chosenModel config ↔
      reread (r.proposal.chosenModel config) = r.proposal.chosenModel config := by
    rw [StringField.orElse_eq, taskPackageRecord_modelId, he.model]
    exact reread_or_iff hmodel rfl
  have htokens := @taskPackageRecord_maxTokens e r.proposal.toolProfile r.proposal.maxTokens now
    (readTaskRequest_maxTokens hr).2
  constructor
  · intro h
    refine ⟨hread.mp h.modelId, ?_, fun ttl hmem => ?_, fun scope hmem => ?_⟩
    · cases hreq : requestedAutonomyLevel body with
      | none => rfl
      | some level =>
        have hempty := h.level level hreq
        rw [hlevel] at hempty
        have hne := (Option.filter_eq_some_iff.mp hreq).2
        rw [← hempty] at hne
        cases hne
    · have hzero := (h.ttl ttl hmem).1
      rw [httl] at hzero
      exact hzero.symm
    · have hempty := h.scope scope hmem
      rw [hscope] at hempty
      exact hempty.symm
  · rintro ⟨hsame, hnone, hzero, hempty⟩
    refine ⟨hread.mpr hsame, ?_, ?_, ?_, ?_⟩
    · rw [htokens]
      rfl
    · rw [hnone]
      intro level hmem
      cases hmem
    · intro ttl hmem
      rw [httl, hzero ttl hmem]
      exact ⟨rfl, by decide⟩
    · intro scope hmem
      rw [hscope, hempty scope hmem]
      rfl

/-- **The records of an accepted request read back as it was allowed exactly when the model and the
agent are printed as they are and no part of a grant was asked for.** -/
theorem request_recorded_iff (hlines : RequestLines r config now lines)
    (hr : readTaskRequest body = some r)
    (hallowed : (wtPolicyEvaluateTaskPackage config
      (r.proposal.policyInput config ledger body clock)).allowed = true) :
    RecordedAsAllowed config body (r.proposal.policyInput config ledger body clock) lines ↔
      RequestKept config body r.proposal := by
  obtain ⟨e, he, rfl⟩ := hlines
  have hother := @taskRequestRecord_schema e now
  have hschema := @taskPackageRecord_schema e r.proposal.toolProfile r.proposal.maxTokens now
  have hassigned := @taskPackageRecord_assignedAgent e r.proposal.toolProfile r.proposal.maxTokens now
  have hcarries := @request_carriesAllowed_iff config body r now e he hr
  generalize recordLine (taskRequestRecord e now) = request at hother ⊢
  generalize recordLine (taskPackageRecord e r.proposal.toolProfile r.proposal.maxTokens now) =
    package at hschema hassigned hcarries ⊢
  have hagent := routeAgentForTask_length config r.proposal.assignedRole r.proposal.toolProfile
    (readTaskRequest_lengths hr).1
  have hread : ∀ fallback, reread fallback = fallback →
      ((wtJsonReadString package "assignedAgent" wtTaskAgentSize).orElse fallback =
        r.proposal.assignedAgent config ↔
      reread (r.proposal.assignedAgent config) = r.proposal.assignedAgent config) := by
    intro fallback hfallback
    rw [StringField.orElse_eq, hassigned, he.agent]
    exact reread_or_iff hagent hfallback
  have hrow : ∀ taskId, projectedRow [request, package] taskId =
      if (wtJsonReadString package "taskId" wtTaskIdSize).orElse [] = taskId then
        some (packageRow (stripLineEnd package) taskId)
      else none := fun taskId =>
    @projectedRow_append_package [request] package taskId hschema
      (@projectedRow_append_other [] request taskId (by simp [hother]) rfl)
  have hstate : ∀ taskId, foldedState [request, package] taskId =
      if lineTaskId package = some taskId then some (populateTaskPackageFields package { taskId })
      else none := fun taskId =>
    @foldedState_append_package [request] package taskId hschema
      (@foldedState_append_other [] request taskId (by simp [hother]) rfl)
  constructor
  · intro h
    obtain ⟨hmodel, hlevel, httl, hscope⟩ := hcarries.mp
      ((readAsAllowed_iff hallowed).mp (h.read package (by simp) hschema))
    refine ⟨hmodel, ?_, hlevel, httl, hscope⟩
    have hown := h.projected _ _ (by rw [hrow, if_pos rfl])
    rw [packageRow_assignedAgent] at hown
    exact (hread (bytes "all") (by decide)).mp hown
  · intro h
    have hcarried := hcarries.mpr ⟨h.model, h.level, h.ttl, h.scope⟩
    refine ⟨⟨package, by simp, hschema⟩, fun line hline hs => ?_, fun taskId row hsome => ?_,
      fun taskId task hsome => ?_⟩
    · rcases List.mem_pair.mp hline with rfl | rfl
      · rw [hother] at hs
        cases hs
      · exact (readAsAllowed_iff hallowed).mpr hcarried
    · rw [hrow] at hsome
      split at hsome
      · rw [← Option.some.inj hsome, packageRow_assignedAgent]
        exact (hread (bytes "all") (by decide)).mpr h.agent
      · cases hsome
    · rw [hstate] at hsome
      split at hsome
      · rw [← Option.some.inj hsome]
        exact (hread [] rfl).mpr h.agent
      · cases hsome

end request

/-! ## Both endpoints -/

/-- The requests whose records say what was evaluated. Where compaction changes what the readers
take from a package, its lines are to carry it all the same. -/
def AdmissionEndpoint.Keeps (endpoint : AdmissionEndpoint) (config : WtConfig) (body : Bytes)
    (p : TaskProposal) : Prop :=
  match endpoint with
  | taskPackage => (∃ line, KeepsRequest body line) ∧ PackageKept config body p ∨
      (¬ ∃ line, KeepsRequest body line) ∧ LinesCarryAllowed config body p
  | taskRequest => RequestKept config body p

/-- A package that leaves the agent to the router and names a blocked vendor's model. -/
def swappedModelBody : Bytes :=
  bytes ("\x7b\"schema\":\"woventeam.task_package.v0.1\",\"taskId\":\"t\"," ++
    "\"assignedRole\":\"technical_writer\",\"assignedAgent\":\"router\"," ++
    "\"modelId\":\"openai/gpt\"\x7d")

def swappedModelRequest : Bytes :=
  bytes "POST /api/task-package HTTP/1.1\r\n\r\n" ++ swappedModelBody

def swappedModelProposal : TaskProposal where
  taskId := bytes "t"
  assignedRole := bytes "technical_writer"
  requestedAgent := bytes "router"
  initiativeId := []
  toolProfile := bytes "observe"
  modelId := bytes "openai/gpt"
  executionHost := []
  maxTokens := 0

def openaiBlocked : WtConfig := { blockedVendors := Path.of "openai" }

def firstClock : Clock := ⟨1, 1, 1, by decide, by decide, by decide⟩

theorem swappedModel_accepted :
    (AdmissionEndpoint.taskPackage.handle openaiBlocked [] swappedModelRequest
        firstClock).2.accepted ∧
      requestBody swappedModelRequest = some swappedModelBody ∧
      AdmissionEndpoint.taskPackage.proposal swappedModelBody = some swappedModelProposal := by
  decide +kernel

theorem swappedModel_not_recorded : ¬ RecordedAsAllowed openaiBlocked swappedModelBody
    (swappedModelProposal.policyInput openaiBlocked [] swappedModelBody firstClock)
    ((AdmissionEndpoint.taskPackage.handle openaiBlocked [] swappedModelRequest
      firstClock).1.drop 0) := by
  intro h
  have hblocked : ∃ line ∈ (AdmissionEndpoint.taskPackage.handle openaiBlocked []
      swappedModelRequest firstClock).1.drop 0,
      lineHasSchema line taskPackageSchema ∧
        wtPolicyExtractModelFamily (packageRow line []).modelId 64 = some (bytes "openai") := by
    decide +kernel
  obtain ⟨line, hline, hschema, hfamily⟩ := hblocked
  have hopen := (h.read line hline hschema).notBlocked _ hfamily
  exact absurd hopen (by decide)

end WovenTeam

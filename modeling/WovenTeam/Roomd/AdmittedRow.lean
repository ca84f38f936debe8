import WovenTeam.Roomd.AsAllowed

/-!
# The row of an admitted task

What an accepted request does to the `tasks` table: where its records name the evaluated task and
no other, it writes the package columns of that task's row and leaves the other rows as they are
(`writes_of_accepted`). A request that is not accepted appends no package.
-/

namespace WovenTeam

open CText QuotedText FirstSeen LineReader

/-! ## Columns -/

/-- The columns admission control looks at, but for the status. -/
structure TaskColumns where
  initiativeId : Bytes
  parentTaskId : Bytes
  assignedAgent : Bytes
  modelId : Bytes
  maxTokens : Int
  deriving DecidableEq, Repr

def TaskRow.columns (row : TaskRow) : TaskColumns where
  initiativeId := row.initiativeId
  parentTaskId := row.parentTaskId
  assignedAgent := row.assignedAgent
  modelId := row.modelId
  maxTokens := row.maxTokens

def packageColumns (line : Bytes) : TaskColumns := (packageRow line []).columns

theorem packageRow_columns (line taskId : Bytes) :
    (packageRow (stripLineEnd line) taskId).columns = packageColumns line := by
  simp only [TaskRow.columns, packageColumns, packageRow, TaskColumns.mk.injEq]
  exact ⟨readString_orElse_stripLineEnd (by decide) _ _ _,
    readString_orElse_stripLineEnd (by decide) _ _ _,
    readString_orElse_stripLineEnd (by decide) _ _ _,
    readString_orElse_stripLineEnd (by decide) _ _ _,
    congrArg (·.getD 0) (readLong_stripLineEnd (by decide) _)⟩

/-- The columns of a task's row. -/
def columnsOf (ledger : Ledger) (taskId : Bytes) : Option TaskColumns :=
  (projectedRow ledger taskId).map TaskRow.columns

/-- The rows of the other tasks. -/
def otherRows (ledger : Ledger) (taskId : Bytes) : List TaskRow :=
  projectionTable.others (ledger.map stripLineEnd) taskId

theorem rebuild_perm (ledger : Ledger) (taskId : Bytes) :
    (wtTaskProjectionRebuild ledger).Perm
      ((projectedRow ledger taskId).toList ++ otherRows ledger taskId) :=
  projectionTable.scan_perm _ taskId

/-- The line changes no row but the task's. -/
def ConcernsOnly (taskId line : Bytes) : Prop :=
  ∀ id ∈ projectionKey (stripLineEnd line), id = taskId

theorem otherRows_append {ledger lines : Ledger} {taskId : Bytes}
    (h : ∀ line ∈ lines, ConcernsOnly taskId line) :
    otherRows (ledger ++ lines) taskId = otherRows ledger taskId := by
  induction lines using List.reverseRecOn with
  | nil => rw [List.append_nil]
  | append_singleton lines line ih =>
    have hinit := ih fun l hl => h l (List.mem_append_left _ hl)
    have hlast := h line (by simp)
    rw [otherRows, ← List.append_assoc, List.map_append, List.map_singleton,
      projectionTable.others_append hlast, ← otherRows, hinit]

section package

variable {ledger : Ledger} {line taskId : Bytes}

theorem projectionKey_package (hs : lineHasSchema line taskPackageSchema)
    (hid : lineTaskId line = some taskId) : projectionKey (stripLineEnd line) = some taskId := by
  have hread : (wtJsonReadString line "taskId" wtTaskIdSize).orElse [] = taskId := by
    rw [StringField.orElse_eq, ← lineTaskId, hid]
    rfl
  rw [projectionKey, lineHasSchema_stripLineEnd, if_pos hs,
    readString_orElse_stripLineEnd (by decide), hread]

theorem columnsOf_append_package (hs : lineHasSchema line taskPackageSchema)
    (hid : lineTaskId line = some taskId) :
    columnsOf (ledger ++ [line]) taskId = some (packageColumns line) := by
  have hkey : projectionTable.key (stripLineEnd line) = some taskId := projectionKey_package hs hid
  have hcreates : projectionTable.creates (stripLineEnd line) = true := by
    show lineHasSchema (stripLineEnd line) taskPackageSchema = true
    rw [lineHasSchema_stripLineEnd, hs]
  rw [columnsOf, projectedRow_append]
  cases projectedRow ledger taskId with
  | none =>
    rw [projectionTable.stateStep_none hkey, if_pos hcreates]
    exact congrArg some (packageRow_columns line taskId)
  | some row =>
    rw [projectionTable.stateStep_some hkey]
    show some (projectLine (stripLineEnd line) row).columns = _
    rw [projectLine, lineHasSchema_stripLineEnd, if_pos hs]
    exact congrArg some (packageRow_columns line row.taskId)

/-- A task event changes the agent column of its task at most. -/
theorem columnsOf_append_event (h : lineHasSchema line taskEventSchema) :
    columnsOf (ledger ++ [line]) taskId =
      if lineTaskId line = some taskId ∧ taskId ≠ [] then
        (projectedRow ledger taskId).map fun row => { row.columns with
          assignedAgent :=
            (insertEvent (stripLineEnd line) taskEventSchema row).assignedAgent }
      else columnsOf ledger taskId := by
  rw [columnsOf, projectedRow_append_event h]
  split
  · rw [Option.map_map]
    congr 1
    funext row
    show (insertEvent (stripLineEnd line) taskEventSchema row).columns = _
    unfold insertEvent
    dsimp only
    split <;> rfl
  · rfl

end package

/-! ## What an endpoint writes -/

/-- The client's JSON is one line, a package of the evaluated task, and the routing event, if
there is one, reads back as an event of that task. -/
structure OneTask (config : WtConfig) (body : Bytes) (p : TaskProposal) (line : Bytes) : Prop where
  oneLine : recordedLines body = [line]
  schema : lineHasSchema line taskPackageSchema
  taskId : lineTaskId line = some p.taskId
  routed : shouldRouteAgent (p.assignedAgent config) = false → reread p.taskId = p.taskId

/-- The routing event gives the row its agent. -/
def TaskProposal.routesRow (p : TaskProposal) (config : WtConfig) : Bool :=
  !shouldRouteAgent (p.assignedAgent config) && p.taskId != [] &&
    decide ((reread (p.assignedAgent config)).length < wtTaskAgentSize)

/-- The columns of a client's package behind the routing event. -/
def routedColumns (config : WtConfig) (p : TaskProposal) (line : Bytes) : TaskColumns :=
  { packageColumns line with
    assignedAgent :=
      if p.routesRow config then reread (p.assignedAgent config)
      else (packageColumns line).assignedAgent }

/-- What is read of a printed text, where it fits. -/
def rereadOr (text : Bytes) (size : Nat) (fallback : Bytes) : Bytes :=
  if (reread text).length < size then reread text else fallback

/-- The columns of a printed package. -/
def printedColumns (config : WtConfig) (r : TaskRequest) : TaskColumns where
  initiativeId := rereadOr r.proposal.initiativeId wtTaskIdSize []
  parentTaskId := rereadOr r.parentTaskId wtTaskIdSize []
  assignedAgent := rereadOr (r.proposal.assignedAgent config) wtTaskAgentSize (bytes "all")
  modelId := rereadOr (r.proposal.chosenModel config) wtTaskModelSize []
  maxTokens := r.proposal.maxTokens

/-- The accepted request writes these columns to the row of its task, and to no other row. -/
inductive AdmissionEndpoint.Writes (config : WtConfig) (body : Bytes) (p : TaskProposal) :
    AdmissionEndpoint → TaskColumns → Prop
  | taskPackage {line : Bytes} (h : OneTask config body p line) :
      Writes config body p .taskPackage (routedColumns config p line)
  | taskRequest {r : TaskRequest} (hr : readTaskRequest body = some r) (hp : r.proposal = p)
      (hid : reread p.taskId = p.taskId) :
      Writes config body p .taskRequest (printedColumns config r)

section writes

variable {config : WtConfig} {ledger lines : Ledger} {body : Bytes} {p : TaskProposal} {now : Int}

theorem concernsOnly_package {line taskId : Bytes} (hs : lineHasSchema line taskPackageSchema)
    (hid : lineTaskId line = some taskId) : ConcernsOnly taskId line := by
  intro id hmem
  rw [projectionKey_package hs hid] at hmem
  exact (Option.some.inj hmem).symm

/-- A line that is no package concerns only the task it names. -/
theorem concernsOnly_of_taskId {line taskId : Bytes}
    (hs : ¬ lineHasSchema line taskPackageSchema = true)
    (hid : ∀ id, lineTaskId line = some id → id = taskId) : ConcernsOnly taskId line := by
  intro id hmem
  rw [projectionKey, lineHasSchema_stripLineEnd, if_neg hs,
    readString_orElse_stripLineEnd (by decide), StringField.orElse_eq, ← lineTaskId] at hmem
  cases hread : lineTaskId line with
  | none =>
    rw [hread] at hmem
    cases hmem
  | some read =>
    rw [hread, Option.getD_some] at hmem
    split at hmem
    · cases hmem
    · rw [← Option.some.inj hmem]
      exact hid read hread

/-- The package handler's lines. -/
theorem package_writes {events : Ledger} {line : Bytes} (hevents : RoutingEvents p config now events)
    (h : OneTask config body p line) :
    columnsOf (ledger ++ (recordedLines body ++ events)) p.taskId =
        some (routedColumns config p line) ∧
      ∀ l ∈ recordedLines body ++ events, ConcernsOnly p.taskId l := by
  have hpackage := concernsOnly_package h.schema h.taskId
  have hlen : p.taskId.length < wtTaskIdSize := lineTaskId_length h.taskId
  unfold RoutingEvents at hevents
  by_cases hroute : shouldRouteAgent (p.assignedAgent config) = true
  · rw [if_pos hroute] at hevents
    subst hevents
    rw [h.oneLine, List.append_nil, columnsOf_append_package h.schema h.taskId]
    refine ⟨?_, by simpa using hpackage⟩
    simp [routedColumns, TaskProposal.routesRow, hroute]
  · rw [if_neg hroute] at hevents
    obtain ⟨a, b, c, d, ha, hb, rfl⟩ := hevents
    have hreread := h.routed (by simpa using hroute)
    have hevent := @routingRecord_schema a b c d now
    have hid : lineTaskId (recordLine (routingRecord a b c d now)) = some p.taskId := by
      rw [routingRecord_taskId, ha, hreread]
      exact ⟨rfl, hlen⟩
    have hconcerns : ConcernsOnly p.taskId (recordLine (routingRecord a b c d now)) := by
      refine concernsOnly_of_taskId ?_ fun id hread => ?_
      · rw [taskEvent_ne_taskPackage hevent]
        decide
      · exact Option.some.inj (hread.symm.trans hid)
    rw [h.oneLine]
    refine ⟨?_, by simp [hpackage, hconcerns]⟩
    have hne : reread (p.assignedAgent config) ≠ [] := by
      intro hnil
      rw [reread_eq_nil_iff] at hnil
      exact hroute (by rw [hnil]; rfl)
    have hcolumns := @columnsOf_append_package ledger line p.taskId h.schema h.taskId
    rw [← List.append_assoc, columnsOf_append_event hevent, hid]
    by_cases hempty : p.taskId = []
    · rw [if_neg fun hand => hand.2 hempty, hcolumns]
      simp [routedColumns, TaskProposal.routesRow, hempty]
    · obtain ⟨row, hrow, hrowcolumns⟩ := Option.map_eq_some_iff.mp hcolumns
      rw [if_pos ⟨rfl, hempty⟩, hrow, Option.map_some, hrowcolumns, insertEvent_routing, hb]
      have hagent : row.assignedAgent = (packageColumns line).assignedAgent := by
        rw [← hrowcolumns]
        rfl
      simp [routedColumns, TaskProposal.routesRow, hempty, hroute, hne, hagent]

/-- The request handler's lines. -/
theorem request_writes {r : TaskRequest} (hlines : RequestLines r config now lines)
    (hr : readTaskRequest body = some r) (hid : reread r.proposal.taskId = r.proposal.taskId) :
    columnsOf (ledger ++ lines) r.proposal.taskId = some (printedColumns config r) ∧
      ∀ l ∈ lines, ConcernsOnly r.proposal.taskId l := by
  obtain ⟨e, he, rfl⟩ := hlines
  have hlen := (readTaskRequest_lengths hr).2.2
  have hmax := (readTaskRequest_maxTokens hr).2
  have hpackage : lineTaskId (recordLine (taskPackageRecord e r.proposal.toolProfile
      r.proposal.maxTokens now)) = some r.proposal.taskId := by
    rw [taskPackageRecord_taskId, he.taskId, hid]
    exact ⟨rfl, hlen⟩
  have hcolumns : packageColumns (recordLine (taskPackageRecord e r.proposal.toolProfile
      r.proposal.maxTokens now)) = printedColumns config r := by
    simp only [packageColumns, TaskRow.columns, packageRow, printedColumns, StringField.orElse_eq,
      taskPackageRecord_initiativeId, taskPackageRecord_parentTaskId,
      taskPackageRecord_assignedAgent, taskPackageRecord_modelId, he.initiativeId, he.parent,
      he.agent, he.model, taskPackageRecord_maxTokens hmax, rereadOr, Option.getD_some,
      TaskColumns.mk.injEq, and_true]
    refine ⟨?_, ?_, ?_, ?_⟩ <;> split <;> rfl
  constructor
  · have hlast := @columnsOf_append_package (ledger ++ [recordLine (taskRequestRecord e now)]) _ _
      taskPackageRecord_schema hpackage
    rw [hcolumns, List.append_assoc] at hlast
    exact hlast
  · intro l hl
    rcases List.mem_pair.mp hl with rfl | rfl
    · refine concernsOnly_of_taskId (by rw [taskRequestRecord_schema]; decide) fun id hread => ?_
      rw [taskRequestRecord_taskId, he.taskId, hid] at hread
      exact hread.1.symm
    · exact concernsOnly_package taskPackageRecord_schema hpackage

/-- **An accepted request that writes its columns writes them to its task's row and to no other.** -/
theorem writes_of_accepted {endpoint : AdmissionEndpoint} {request : Bytes} {clock : Clock}
    {columns : TaskColumns}
    (haccepted : (endpoint.handle config ledger request clock).2.accepted)
    (hbody : requestBody request = some body) (hp : endpoint.proposal body = some p)
    (hwrites : endpoint.Writes config body p columns) :
    columnsOf (endpoint.handle config ledger request clock).1 p.taskId = some columns ∧
      otherRows (endpoint.handle config ledger request clock).1 p.taskId =
        otherRows ledger p.taskId := by
  obtain ⟨body', p', lines, hbody', hp', -, hlines, hledger⟩ := admission_accepted haccepted
  obtain rfl : body' = body := Option.some.inj (hbody'.symm.trans hbody)
  obtain rfl : p' = p := Option.some.inj (hp'.symm.trans hp)
  rw [hledger]
  cases hwrites with
  | taskPackage hone =>
    obtain ⟨q, events, hq, hevents, rfl⟩ := hlines
    obtain rfl : q = p' := Option.some.inj (hq.symm.trans hp)
    obtain ⟨hcolumns, hconcerns⟩ := @package_writes config ledger body' q _ events _ hevents hone
    exact ⟨hcolumns, otherRows_append hconcerns⟩
  | @taskRequest r hr hproposal hid =>
    subst hproposal
    obtain ⟨r', hr', hrequest⟩ := hlines
    obtain rfl : r' = r := Option.some.inj (hr'.symm.trans hr)
    obtain ⟨hcolumns, hconcerns⟩ := @request_writes config ledger lines body' _ r' hrequest hr hid
    exact ⟨hcolumns, otherRows_append hconcerns⟩

end writes

/-! ## What other lines leave -/

/-- The columns no line but a package changes. -/
structure ChargedColumns where
  initiativeId : Bytes
  modelId : Bytes
  maxTokens : Int
  deriving DecidableEq, Repr

def TaskRow.charge (row : TaskRow) : ChargedColumns where
  initiativeId := row.initiativeId
  modelId := row.modelId
  maxTokens := row.maxTokens

theorem insertEvent_charge (line : Bytes) (schema : String) (row : TaskRow) :
    (insertEvent line schema row).charge = row.charge := by
  simp only [insertEvent]
  split <;> rfl

/-- A line that is no package makes no row and keeps the charged columns of all. -/
theorem projectedRow_append_kept {ledger : Ledger} {line taskId : Bytes} {row : TaskRow}
    (hs : ¬ lineHasSchema line taskPackageSchema = true)
    (h : projectedRow (ledger ++ [line]) taskId = some row) :
    ∃ old, projectedRow ledger taskId = some old ∧ old.charge = row.charge := by
  have hcreates : projectionTable.creates (stripLineEnd line) = false := by
    show lineHasSchema (stripLineEnd line) taskPackageSchema = false
    rw [lineHasSchema_stripLineEnd]
    simpa using hs
  rw [projectedRow_append] at h
  by_cases hkey : projectionTable.key (stripLineEnd line) = some taskId
  · cases hold : projectedRow ledger taskId with
    | none =>
      rw [hold, projectionTable.stateStep_none hkey, hcreates] at h
      cases h
    | some old =>
      rw [hold, projectionTable.stateStep_some hkey] at h
      obtain rfl := Option.some.inj h
      refine ⟨old, rfl, ?_⟩
      show old.charge = (projectLine (stripLineEnd line) old).charge
      rw [projectLine, lineHasSchema_stripLineEnd, if_neg hs]
      split
      · exact (insertEvent_charge _ _ _).symm
      · split
        · exact (insertEvent_charge _ _ _).symm
        · rfl
  · rw [projectionTable.stateStep_of_ne hkey] at h
    exact ⟨row, h, rfl⟩

/-! ## Requests that are not accepted -/

/-- The lines hold no package. -/
def NoPackage (lines : Ledger) : Prop := ∀ line ∈ lines, ¬ lineHasSchema line taskPackageSchema = true

theorem noPackage_nil : NoPackage [] := by simp [NoPackage]

section denied

variable {config : WtConfig} {ledger : Ledger}

theorem policyDecisionRecord_fits {a b c d e : Literal} {now : Int}
    (ha : a.text.length < wtTaskIdSize * 2) (hb : b.text.length < wtTaskIdSize * 2)
    (hc : c.text.length < wtPolicyReasonSize * 2) (hd : d.text.length < wtPolicyMessageSize * 2)
    (he : e.text.length < wtTaskAgentSize * 2) (h : Int64 now) :
    (policyDecisionRecord a b c d e now).object.length + 2 ≤ wtTaskLedgerLineSize := by
  have := length_decimal h
  simp only [wtTaskIdSize, wtTaskAgentSize, wtPolicyReasonSize, wtPolicyMessageSize,
    wtTaskLedgerLineSize] at *
  unfold policyDecisionRecord str num Literal.ofPlain
  simp [Members.length_object, render, Item.render]
  omega

theorem recordPolicyDenial_appends (taskId initiativeId : Bytes) (decision : WtPolicyDecision)
    (createdBy : Bytes) {now : Int} (h : Int64 now) :
    ∃ lines, NoPackage lines ∧
      recordPolicyDenial ledger taskId initiativeId decision createdBy now = ledger ++ lines := by
  unfold recordPolicyDenial
  cases hrecord : denialRecord taskId initiativeId decision createdBy now with
  | none => exact ⟨[], noPackage_nil, (List.append_nil _).symm⟩
  | some record =>
    unfold denialRecord at hrecord
    obtain ⟨a, ha, hrecord⟩ := Option.bind_eq_some_iff.mp hrecord
    obtain ⟨b, hb, hrecord⟩ := Option.bind_eq_some_iff.mp hrecord
    obtain ⟨c, hc, hrecord⟩ := Option.bind_eq_some_iff.mp hrecord
    obtain ⟨d, hd, hrecord⟩ := Option.bind_eq_some_iff.mp hrecord
    obtain ⟨e, he, hrecord⟩ := Option.bind_eq_some_iff.mp hrecord
    obtain rfl := Option.some.inj hrecord
    have hfits := policyDecisionRecord_fits (wtJsonEscape_eq ha).2 (wtJsonEscape_eq hb).2
      (wtJsonEscape_eq hc).2 (wtJsonEscape_eq hd).2 (wtJsonEscape_eq he).2 h
    refine ⟨[recordLine (policyDecisionRecord a b c d e now)], ?_, ?_⟩
    · intro line hline
      rw [List.mem_singleton.mp hline, lineHasSchema, recordLine,
        wtJsonReadString_object (.of_check rfl) quote_notMem_newline
          (v := .ofPlain "woventeam.policy_decision.v0.1") rfl (by decide)]
      decide
    · dsimp only
      rw [printRecord_of_fits (by omega), wtTaskAppendRecord_object _ hfits]

theorem denied_appends {p : TaskProposal} {body : Bytes} {clock : Clock}
    {deniedBy hostDeniedBy : Bytes} {denial : Ledger × HttpReply}
    (h : p.denied config ledger body clock deniedBy hostDeniedBy = some denial) :
    ∃ lines, NoPackage lines ∧ denial.1 = ledger ++ lines := by
  unfold TaskProposal.denied at h
  dsimp only at h
  split at h
  · obtain rfl := Option.some.inj h
    exact recordPolicyDenial_appends _ _ _ _ clock.int64_record
  · split at h
    · obtain rfl := Option.some.inj h
      exact recordPolicyDenial_appends _ _ _ _ clock.int64_record
    · cases h

theorem recordPackage_refused {p : TaskProposal} {body : Bytes} {now : Int}
    (h : ¬ (p.recordPackage config ledger body now).2.accepted) :
    (p.recordPackage config ledger body now).1 = ledger := by
  unfold TaskProposal.recordPackage at *
  dsimp only at h ⊢
  split
  · rename_i hroute
    rw [if_pos hroute] at h
    exact absurd rfl h
  · rename_i hroute
    rw [if_neg hroute] at h
    split
    · rfl
    · rename_i record hrecord
      rw [hrecord] at h
      exact absurd rfl h

theorem record_refused {r : TaskRequest} {now : Int}
    (h : ¬ (r.record config ledger now).2.accepted) : (r.record config ledger now).1 = ledger := by
  unfold TaskRequest.record at *
  split
  · rfl
  · rename_i e he
    rw [he] at h
    exact absurd rfl h

/-- **A request that is not accepted appends no package.** -/
theorem noPackage_of_refused {endpoint : AdmissionEndpoint} {request : Bytes} {clock : Clock}
    (h : ¬ (endpoint.handle config ledger request clock).2.accepted) :
    ∃ lines, NoPackage lines ∧ (endpoint.handle config ledger request clock).1 = ledger ++ lines := by
  have hsame : ∀ {ledger' : Ledger}, ledger' = ledger →
      ∃ lines, NoPackage lines ∧ ledger' = ledger ++ lines :=
    fun h => ⟨[], noPackage_nil, by rw [h, List.append_nil]⟩
  generalize hresult : endpoint.handle config ledger request clock = result at h ⊢
  cases endpoint with
  | taskPackage =>
    simp only [AdmissionEndpoint.handle, handlePostTaskPackage] at hresult
    split at hresult
    · exact hsame (by rw [← hresult])
    · split at hresult
      · exact hsame (by rw [← hresult])
      · split at hresult
        · rename_i denial hdenied
          rw [← hresult]
          exact denied_appends hdenied
        · rw [← hresult] at h ⊢
          exact hsame (recordPackage_refused h)
  | taskRequest =>
    simp only [AdmissionEndpoint.handle, handlePostTaskRequest] at hresult
    split at hresult
    · exact hsame (by rw [← hresult])
    · split at hresult
      · exact hsame (by rw [← hresult])
      · split at hresult
        · exact hsame (by rw [← hresult])
        · split at hresult
          · rename_i denial hdenied
            rw [← hresult]
            exact denied_appends hdenied
          · split at hresult
            · exact hsame (by rw [← hresult])
            · rw [← hresult] at h ⊢
              exact hsame (record_refused h)

end denied

end WovenTeam

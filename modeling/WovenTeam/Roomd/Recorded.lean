import WovenTeam.Roomd.Admission

/-!
# What an accepted admission appends

The records the two admission endpoints print, that none of them is cut, and `admission_accepted`:
what is known of a request the daemon accepted.
-/

namespace WovenTeam

open CText QuotedText FirstSeen LineReader

theorem Clock.int64_record (clock : Clock) : Int64 clock.record := by
  have := clock.started
  have := clock.inOrder
  have := clock.range
  unfold Int64
  omega

/-! ## Accepted requests -/

/-- The routing event of a package, where the router or the client named an agent. -/
def RoutingEvents (p : TaskProposal) (config : WtConfig) (now : Int) (events : Ledger) : Prop :=
  if shouldRouteAgent (p.assignedAgent config) then events = []
  else ∃ a b c d : Literal, unescape a.text = reread p.taskId ∧
    unescape b.text = reread (p.assignedAgent config) ∧
    events = [recordLine (routingRecord a b c d now)]

theorem routingRecord_fits {a b c d : Literal} {now : Int} (ha : a.text.length < wtTaskIdSize * 2)
    (hb : b.text.length < wtTaskAgentSize * 2) (hc : c.text.length < wtTaskAgentSize * 2)
    (hd : d.text.length < wtTaskPolicySize * 2) (h : Int64 now) :
    (routingRecord a b c d now).object.length + 2 ≤ wtTaskLedgerLineSize := by
  have := length_decimal h
  simp only [wtTaskIdSize, wtTaskAgentSize, wtTaskPolicySize, wtTaskLedgerLineSize] at *
  unfold routingRecord str num Literal.ofPlain
  simp [Members.length_object, render, Item.render]
  omega

theorem routingEvent_eq {p : TaskProposal} {config : WtConfig} {now : Int} {record : Members}
    (hnow : Int64 now) (h : p.routingEvent config now = some record) :
    (∃ a b c d : Literal, unescape a.text = reread p.taskId ∧
        unescape b.text = reread (p.assignedAgent config) ∧ record = routingRecord a b c d now) ∧
      record.object.length + 2 ≤ wtTaskLedgerLineSize := by
  simp only [TaskProposal.routingEvent, Option.bind_eq_bind, Option.bind_eq_some_iff,
    Option.pure_def, Option.some.injEq] at h
  obtain ⟨a, ha, c, hc, b, hb, d, hd, rfl⟩ := h
  exact ⟨⟨a, b, c, d, (wtJsonEscape_eq ha).1, (wtJsonEscape_eq hb).1, rfl⟩,
    routingRecord_fits (wtJsonEscape_eq ha).2 (wtJsonEscape_eq hb).2 (wtJsonEscape_eq hc).2
      (wtJsonEscape_eq hd).2 hnow⟩

theorem recordPackage_accepted {p : TaskProposal} {config : WtConfig} {ledger : Ledger}
    {body : Bytes} {now : Int} (hnow : Int64 now)
    (h : (p.recordPackage config ledger body now).2.accepted) :
    ∃ events, RoutingEvents p config now events ∧
      (p.recordPackage config ledger body now).1 = ledger ++ (recordedLines body ++ events) := by
  unfold TaskProposal.recordPackage RoutingEvents at *
  dsimp only at h ⊢
  split
  · exact ⟨[], rfl, by rw [wtTaskAppendRecord_compact, List.append_nil]⟩
  · rename_i hroute
    rw [if_neg hroute] at h
    cases hrecord : p.routingEvent config now with
    | none =>
      rw [hrecord] at h
      exact absurd h (by decide : ¬ (badRequest "task too large").accepted)
    | some record =>
      obtain ⟨⟨a, b, c, d, ha, hb, rfl⟩, hfits⟩ := routingEvent_eq hnow hrecord
      refine ⟨_, ⟨a, b, c, d, ha, hb, rfl⟩, ?_⟩
      dsimp only
      rw [wtTaskAppendRecord_compact, printRecord_of_fits (by omega),
        wtTaskAppendRecord_object _ hfits, List.append_assoc]

theorem status_denied {p : TaskProposal} {config : WtConfig} {ledger : Ledger} {body : Bytes}
    {clock : Clock} {deniedBy hostDeniedBy : Bytes} {denial : Ledger × HttpReply}
    (h : p.denied config ledger body clock deniedBy hostDeniedBy = some denial) :
    ¬ denial.2.accepted := by
  unfold TaskProposal.denied at h
  dsimp only at h
  split at h
  · cases h
    exact show (409 : Nat) ≠ 200 by decide
  · split at h
    · cases h
      exact show (409 : Nat) ≠ 200 by decide
    · cases h

/-- An accepted package was allowed, and the client's JSON is in the ledger with the routing event
behind it. -/
theorem taskPackage_accepted {config : WtConfig} {ledger : Ledger} {request : Bytes}
    {clock : Clock} (h : (handlePostTaskPackage config ledger request clock).2.accepted) :
    ∃ body p events, requestBody request = some body ∧ readTaskPackage body = some p ∧
      (wtPolicyEvaluateTaskPackage config (p.policyInput config ledger body clock)).allowed = true ∧
      RoutingEvents p config clock.record events ∧
      (handlePostTaskPackage config ledger request clock).1 =
        ledger ++ (recordedLines body ++ events) := by
  unfold handlePostTaskPackage at *
  split at h
  · exact absurd h (by decide : ¬ noBody.accepted)
  · rename_i body hbody
    split at h
    · exact absurd h (by decide : ¬ (badRequest "invalid task package").accepted)
    · rename_i p hp
      dsimp only at h ⊢
      split at h
      · rename_i denial hdenied
        exact absurd h (status_denied hdenied)
      · rename_i hallowed
        obtain ⟨events, hevents, hledger⟩ := recordPackage_accepted clock.int64_record h
        exact ⟨body, p, events, hbody, hp, TaskProposal.allowed_of_not_denied hallowed, hevents,
          hledger⟩

/-! ### Requests -/

/-- The escaped arguments fit their buffers and read back as what was escaped. -/
structure EscapedRequest.Of (e : EscapedRequest) (r : TaskRequest) (config : WtConfig) : Prop where
  taskId : unescape e.taskId.text = reread r.proposal.taskId
  agent : unescape e.agent.text = reread (r.proposal.assignedAgent config)
  model : unescape e.model.text = reread (r.proposal.chosenModel config)
  initiativeId : unescape e.initiativeId.text = reread r.proposal.initiativeId
  parent : unescape e.parent.text = reread r.parentTaskId
  ids : e.taskId.text.length < 256 ∧ e.initiativeId.text.length < 256 ∧
    e.parent.text.length < 256
  agents : e.agent.text.length < 128 ∧ e.host.text.length < 128 ∧ e.role.text.length < 128 ∧
    e.requestedBy.text.length < 128 ∧ e.requestedByRole.text.length < 128
  texts : e.title.text.length < 384 ∧ e.body.text.length < 4096 ∧ e.priority.text.length < 64
  policy : e.model.text.length < 256 ∧ e.profile.text.length < 128

theorem escape_eq {r : TaskRequest} {config : WtConfig} {e : EscapedRequest}
    (h : r.escape config = some e) : e.Of r config := by
  unfold TaskRequest.escape at h
  obtain ⟨_, h1, h⟩ := Option.bind_eq_some_iff.mp h
  obtain ⟨_, h2, h⟩ := Option.bind_eq_some_iff.mp h
  obtain ⟨_, h3, h⟩ := Option.bind_eq_some_iff.mp h
  obtain ⟨_, h4, h⟩ := Option.bind_eq_some_iff.mp h
  obtain ⟨_, h5, h⟩ := Option.bind_eq_some_iff.mp h
  obtain ⟨_, h6, h⟩ := Option.bind_eq_some_iff.mp h
  obtain ⟨_, h7, h⟩ := Option.bind_eq_some_iff.mp h
  obtain ⟨_, h8, h⟩ := Option.bind_eq_some_iff.mp h
  obtain ⟨_, h9, h⟩ := Option.bind_eq_some_iff.mp h
  obtain ⟨_, h10, h⟩ := Option.bind_eq_some_iff.mp h
  obtain ⟨_, h11, h⟩ := Option.bind_eq_some_iff.mp h
  obtain ⟨_, h12, h⟩ := Option.bind_eq_some_iff.mp h
  obtain ⟨_, h13, h⟩ := Option.bind_eq_some_iff.mp h
  obtain rfl := Option.some.inj h
  exact
    { taskId := (wtJsonEscape_eq h1).1
      agent := (wtJsonEscape_eq h6).1
      model := (wtJsonEscape_eq h7).1
      initiativeId := (wtJsonEscape_eq h2).1
      parent := (wtJsonEscape_eq h12).1
      ids := ⟨(wtJsonEscape_eq h1).2, (wtJsonEscape_eq h2).2, (wtJsonEscape_eq h12).2⟩
      agents := ⟨(wtJsonEscape_eq h6).2, (wtJsonEscape_eq h13).2, (wtJsonEscape_eq h5).2,
        (wtJsonEscape_eq h3).2, (wtJsonEscape_eq h4).2⟩
      texts := ⟨(wtJsonEscape_eq h9).2, (wtJsonEscape_eq h10).2, (wtJsonEscape_eq h8).2⟩
      policy := ⟨(wtJsonEscape_eq h7).2, (wtJsonEscape_eq h11).2⟩ }

section fits

variable {r : TaskRequest} {config : WtConfig} {e : EscapedRequest} {maxTokens now : Int}

theorem taskRequestRecord_fits (he : e.Of r config) (h : Int64 now) :
    (taskRequestRecord e now).object.length + 2 ≤ wtTaskLedgerLineSize := by
  have := length_decimal h
  have := he.ids
  have := he.agents
  have := he.texts
  have := he.policy
  simp only [wtTaskLedgerLineSize]
  unfold taskRequestRecord str num raw Literal.ofPlain
  simp only [Members.length_object, Members.length_append]
  simp [render, Item.render]
  omega

theorem length_policies (toolProfile : Bytes) :
    (filesystemPolicy toolProfile).text.length ≤ 15 ∧
      (networkPolicy toolProfile).text.length ≤ 15 ∧ (gitPolicy toolProfile).text.length ≤ 15 := by
  unfold filesystemPolicy networkPolicy gitPolicy
  refine ⟨?_, ?_, ?_⟩ <;> split <;> decide

theorem taskPackageRecord_fits (he : e.Of r config) (toolProfile : Bytes) (h : Int64 now)
    (hmax : Int64 maxTokens) :
    (taskPackageRecord e toolProfile maxTokens now).object.length + 2 ≤ wtTaskLedgerLineSize := by
  have := length_decimal h
  have := length_decimal hmax
  have : (decimal 1800).length ≤ 20 := length_decimal (by decide)
  have : (decimal 1048576).length ≤ 20 := length_decimal (by decide)
  have := he.ids
  have := he.agents
  have := he.texts
  have := he.policy
  have := length_policies toolProfile
  simp only [wtTaskLedgerLineSize]
  unfold taskPackageRecord str num raw elem Literal.ofPlain
  simp only [Members.length_object, Members.length_append]
  simp [render, Item.render]
  omega

end fits

theorem readTaskRequest_maxTokens {body : Bytes} {r : TaskRequest}
    (h : readTaskRequest body = some r) :
    0 ≤ r.proposal.maxTokens ∧ Int64 r.proposal.maxTokens := by
  unfold readTaskRequest at h
  obtain ⟨_, -, h⟩ := Option.bind_eq_some_iff.mp h
  split at h
  · obtain ⟨_, h, -⟩ := Option.bind_eq_some_iff.mp h
    cases h
  · obtain ⟨_, -, h⟩ := Option.bind_eq_some_iff.mp h
    obtain ⟨_, -, h⟩ := Option.bind_eq_some_iff.mp h
    obtain ⟨_, -, h⟩ := Option.bind_eq_some_iff.mp h
    obtain ⟨_, -, h⟩ := Option.bind_eq_some_iff.mp h
    obtain ⟨_, -, h⟩ := Option.bind_eq_some_iff.mp h
    obtain ⟨_, -, h⟩ := Option.bind_eq_some_iff.mp h
    obtain ⟨_, -, h⟩ := Option.bind_eq_some_iff.mp h
    obtain rfl := Option.some.inj h
    exact clampedTokens_range body (by decide)

/-! ### Reading the package of a request -/

section read

variable (e : EscapedRequest) (toolProfile : Bytes) (maxTokens now : Int)

/-- The first members of the package. -/
def packageNames : Members :=
  str "schema" (.ofPlain "woventeam.task_package.v0.1") ++ str "taskId" e.taskId ++
  str "initiativeId" e.initiativeId ++ str "createdBy" e.requestedBy ++
  str "assignedRole" e.role ++ str "assignedAgent" e.agent ++ str "modelId" e.model ++
  str "priority" e.priority ++ str "executionHost" e.host ++ str "status" (.ofPlain "queued")

def packageTexts : Members :=
  str "title" e.title ++ str "body" e.body ++ str "parentTaskId" e.parent ++
  str "requestedByRole" e.requestedByRole ++ raw "task" "\x7b" ++ str "title" e.title ++
  str "body" e.body ++ raw "deliverables" "[]\x7d," ++ raw "contextRefs" "[]," ++
  raw "acceptanceCriteria" "[" ++
  elem (.ofPlain "Task result is recorded in the room and task ledger.") "],"

def packagePolicy : Members :=
  raw "toolPolicy" "\x7b" ++ str "profile" e.profile ++
  str "filesystem" (filesystemPolicy toolProfile) ++ str "network" (networkPolicy toolProfile) ++
  str "system" (.ofPlain "none") ++ str "git" (gitPolicy toolProfile) "\x7d," ++
  raw "budget" "\x7b" ++ num "timeoutSeconds" 1800 ++ num "maxOutputBytes" 1048576 ++
  raw "maxCostUsd" "1.0,"

def packageEnd : Members :=
  num "maxTokens" maxTokens "\x7d," ++ raw "dependencies" "[" ++ elem e.parent "]," ++
  num "createdAtUnixMs" now "\x7d"

/-- The members in front of the budget's tokens. -/
def packageFront : Members := packageNames e ++ packageTexts e ++ packagePolicy e toolProfile

theorem taskPackageRecord_items : (taskPackageRecord e toolProfile maxTokens now).items =
    (packageFront e toolProfile).items ++ (packageEnd e maxTokens now).items := by
  unfold taskPackageRecord packageFront packageNames packageTexts packagePolicy packageEnd
  simp only [Members.items_append, List.append_assoc]

theorem packageFront_items : (packageFront e toolProfile).items =
    (packageNames e).items ++ ((packageTexts e).items ++ (packagePolicy e toolProfile).items) := by
  rw [packageFront, Members.items_append, Members.items_append, List.append_assoc]

theorem packageFront_keysAmong : (packageFront e toolProfile).KeysAmong
    ["schema", "taskId", "initiativeId", "createdBy", "assignedRole", "assignedAgent", "modelId",
      "priority", "executionHost", "status", "title", "body", "parentTaskId", "requestedByRole",
      "task", "deliverables", "contextRefs", "acceptanceCriteria", "toolPolicy", "profile",
      "filesystem", "network", "system", "git", "budget", "timeoutSeconds", "maxOutputBytes",
      "maxCostUsd"] := by
  unfold packageFront packageNames packageTexts packagePolicy
  repeat' with_reducible apply Members.KeysAmong.append
  all_goals first
    | refine keysAmong_str _ _ _ _ ?_
    | refine keysAmong_num _ _ _ _ ?_
    | refine keysAmong_raw _ _ _ ?_
    | exact keysAmong_elem _ _ _
  all_goals repeat first | exact List.mem_cons_self | apply List.mem_cons_of_mem

variable {e toolProfile maxTokens now}

/-- A string among the first members is read where it fits. -/
theorem taskPackageRecord_name {key : String} (hk : FieldKey key) {v : Literal} {f : Bytes}
    {js : List Item}
    (hl : lookup (bytes key) (packageNames e).items = some (render (⟨v.text, f⟩ :: js)))
    {size : Nat} (hpos : 0 < size) :
    (wtJsonReadString (recordLine (taskPackageRecord e toolProfile maxTokens now)) key
        size).toOption =
      if (unescape v.text).length < size then some (unescape v.text) else none := by
  have hall := lookup_append_of_string (lookup_append_of_string hl
    ((packageTexts e).items ++ (packagePolicy e toolProfile).items)) (packageEnd e maxTokens now).items
  rw [← packageFront_items, ← taskPackageRecord_items] at hall
  exact toOption_object hk quote_notMem_newline hall hpos

theorem taskPackageRecord_schema :
    lineHasSchema (recordLine (taskPackageRecord e toolProfile maxTokens now))
      taskPackageSchema := by
  have hread := @taskPackageRecord_name e toolProfile maxTokens now "schema" (.of_check rfl)
    (.ofPlain "woventeam.task_package.v0.1") _ _ rfl 128 (by decide)
  have hfits : (unescape (Literal.ofPlain "woventeam.task_package.v0.1").text).length < 128 := by
    decide
  rw [if_pos hfits, StringField.toOption_eq_some_iff] at hread
  rw [lineHasSchema, hread]
  decide

theorem taskRequestRecord_items : ∃ rest, (taskRequestRecord e now).items =
    (str "schema" (.ofPlain "woventeam.task_request.v0.1")).items ++
      ((str "taskId" e.taskId).items ++ rest) := by
  unfold taskRequestRecord
  simp only [Members.items_append, List.append_assoc]
  exact ⟨_, rfl⟩

/-- The request record is no package. -/
theorem taskRequestRecord_schema :
    lineHasSchema (recordLine (taskRequestRecord e now)) taskPackageSchema = false := by
  obtain ⟨rest, hitems⟩ := @taskRequestRecord_items e now
  have hfirst : lookup (bytes "schema")
      (str "schema" (.ofPlain "woventeam.task_request.v0.1")).items =
        some (render [⟨(Literal.ofPlain "woventeam.task_request.v0.1").text, bytes ","⟩]) := rfl
  have hall := lookup_append_of_string hfirst ((str "taskId" e.taskId).items ++ rest)
  rw [← hitems] at hall
  rw [lineHasSchema, recordLine, wtJsonReadString_object (.of_check rfl) quote_notMem_newline hall
    (by decide)]
  decide

theorem taskRequestRecord_taskId {taskId : Bytes} :
    lineTaskId (recordLine (taskRequestRecord e now)) = some taskId ↔
      unescape e.taskId.text = taskId ∧ taskId.length < wtTaskIdSize := by
  obtain ⟨rest, hitems⟩ := @taskRequestRecord_items e now
  have hschema : (str "schema" (.ofPlain "woventeam.task_request.v0.1")).Lacks
    (bytes "taskId") := rfl
  have hown : lookup (bytes "taskId") (str "taskId" e.taskId).items =
      some (render [⟨e.taskId.text, bytes ","⟩]) := rfl
  have hall := lookup_append_of_string hown rest
  rw [← lookup_append_of_lacks hschema, ← hitems] at hall
  exact lineTaskId_recordLine hall

theorem taskPackageRecord_taskId {taskId : Bytes} :
    lineTaskId (recordLine (taskPackageRecord e toolProfile maxTokens now)) = some taskId ↔
      unescape e.taskId.text = taskId ∧ taskId.length < wtTaskIdSize := by
  rw [lineTaskId, taskPackageRecord_name (.of_check rfl) rfl (by decide)]
  split
  · rename_i hfits
    exact ⟨fun h => ⟨Option.some.inj h, Option.some.inj h ▸ hfits⟩, fun h => congrArg some h.1⟩
  · rename_i hlong
    exact ⟨fun h => (Option.some_ne_none _ h.symm).elim, fun h => absurd (h.1 ▸ h.2) hlong⟩

theorem taskPackageRecord_assignedAgent :
    (wtJsonReadString (recordLine (taskPackageRecord e toolProfile maxTokens now)) "assignedAgent"
        wtTaskAgentSize).toOption =
      if (unescape e.agent.text).length < wtTaskAgentSize then some (unescape e.agent.text)
      else none :=
  taskPackageRecord_name (.of_check rfl) rfl (by decide)

theorem taskPackageRecord_modelId :
    (wtJsonReadString (recordLine (taskPackageRecord e toolProfile maxTokens now)) "modelId"
        wtTaskModelSize).toOption =
      if (unescape e.model.text).length < wtTaskModelSize then some (unescape e.model.text)
      else none :=
  taskPackageRecord_name (.of_check rfl) rfl (by decide)

theorem taskPackageRecord_initiativeId :
    (wtJsonReadString (recordLine (taskPackageRecord e toolProfile maxTokens now)) "initiativeId"
        wtTaskIdSize).toOption =
      if (unescape e.initiativeId.text).length < wtTaskIdSize then
        some (unescape e.initiativeId.text)
      else none :=
  taskPackageRecord_name (.of_check rfl) rfl (by decide)

theorem taskPackageRecord_parentTaskId :
    (wtJsonReadString (recordLine (taskPackageRecord e toolProfile maxTokens now)) "parentTaskId"
        wtTaskIdSize).toOption =
      if (unescape e.parent.text).length < wtTaskIdSize then some (unescape e.parent.text)
      else none := by
  have hnames : (packageNames e).Lacks (bytes "parentTaskId") := rfl
  have htexts : ∃ f js, lookup (bytes "parentTaskId") (packageTexts e).items =
      some (render (⟨e.parent.text, f⟩ :: js)) := ⟨_, _, rfl⟩
  obtain ⟨f, js, htexts⟩ := htexts
  have hall : lookup (bytes "parentTaskId")
      (taskPackageRecord e toolProfile maxTokens now).items = some (render (⟨e.parent.text, f⟩ ::
        (js ++ ((packagePolicy e toolProfile).items ++ (packageEnd e maxTokens now).items)))) := by
    rw [taskPackageRecord_items, packageFront_items, List.append_assoc,
      lookup_append_of_lacks hnames, List.append_assoc]
    exact lookup_append_of_string htexts _
  exact toOption_object (.of_check rfl) quote_notMem_newline hall (by decide)

/-- A key that none of the first members has. -/
theorem lookup_taskPackageRecord {k : Bytes} (h : (packageFront e toolProfile).Lacks k) :
    lookup k (taskPackageRecord e toolProfile maxTokens now).items =
      lookup k (packageEnd e maxTokens now).items := by
  rw [taskPackageRecord_items]
  exact lookup_append_of_lacks h _

theorem taskPackageRecord_maxTokens (h : Int64 maxTokens) :
    wtJsonReadLong (recordLine (taskPackageRecord e toolProfile maxTokens now)) "maxTokens" =
      some maxTokens := by
  have hfront : (packageFront e toolProfile).Lacks (bytes "maxTokens") :=
    (packageFront_keysAmong e toolProfile).lacks (by decide)
  have hl := @lookup_taskPackageRecord e toolProfile maxTokens now _ hfront
  exact wtJsonReadLong_object (.of_check rfl) quote_notMem_newline h (hl.trans rfl) rfl

/-- The package of a request has no autonomy fields. -/
theorem taskPackageRecord_autonomy :
    wtJsonReadString (recordLine (taskPackageRecord e toolProfile maxTokens now)) "autonomyLevel"
        wtTaskPolicySize = .absent ∧
      wtJsonReadString (recordLine (taskPackageRecord e toolProfile maxTokens now)) "scope"
        wtTaskBodySize = .absent ∧
      wtJsonReadLong (recordLine (taskPackageRecord e toolProfile maxTokens now)) "ttlSeconds" =
        none := by
  have hkeys := packageFront_keysAmong e toolProfile
  have hlevel := @lookup_taskPackageRecord e toolProfile maxTokens now (bytes "autonomyLevel")
    (hkeys.lacks (by decide))
  have hscope := @lookup_taskPackageRecord e toolProfile maxTokens now (bytes "scope")
    (hkeys.lacks (by decide))
  have httl := @lookup_taskPackageRecord e toolProfile maxTokens now (bytes "ttlSeconds")
    (hkeys.lacks (by decide))
  exact ⟨wtJsonReadString_object_absent (.of_check rfl) quote_notMem_newline (hlevel.trans rfl) _,
    wtJsonReadString_object_absent (.of_check rfl) quote_notMem_newline (hscope.trans rfl) _,
    wtJsonReadLong_object_absent (.of_check rfl) quote_notMem_newline (httl.trans rfl)⟩

end read

/-- The two lines a request makes. -/
def RequestLines (r : TaskRequest) (config : WtConfig) (now : Int) (lines : Ledger) : Prop :=
  ∃ e : EscapedRequest, e.Of r config ∧ lines =
    [recordLine (taskRequestRecord e now),
      recordLine (taskPackageRecord e r.proposal.toolProfile r.proposal.maxTokens now)]

/-- An accepted task request was allowed, and its two records are in the ledger. -/
theorem taskRequest_accepted {config : WtConfig} {ledger : Ledger} {request : Bytes}
    {clock : Clock} (h : (handlePostTaskRequest config ledger request clock).2.accepted) :
    ∃ body r lines, requestBody request = some body ∧ readTaskRequest body = some r ∧
      (wtPolicyEvaluateTaskPackage config
        (r.proposal.policyInput config ledger body clock)).allowed = true ∧
      RequestLines r config clock.record lines ∧
      (handlePostTaskRequest config ledger request clock).1 = ledger ++ lines := by
  unfold handlePostTaskRequest at *
  split at h
  · exact absurd h (by decide : ¬ noBody.accepted)
  · rename_i body hbody
    split at h
    · exact absurd h (by decide : ¬ (badRequest "invalid task request").accepted)
    · rename_i r hr
      split at h
      · exact absurd h (by decide : ¬ (errorReply 403 "Forbidden" "role spawn policy denied").accepted)
      · rename_i hspawn
        rw [if_neg hspawn]
        split at h
        · rename_i denial hdenied
          exact absurd h (status_denied hdenied)
        · rename_i hallowed
          split at h
          · exact absurd h (show (409 : Nat) ≠ 200 by decide)
          · rename_i hcapacity
            unfold TaskRequest.record at h ⊢
            cases he : r.escape config with
            | none =>
              rw [he] at h
              exact absurd h (by decide : ¬ (badRequest "request too large").accepted)
            | some e =>
              have hof := escape_eq he
              have hnow := clock.int64_record
              have hmax := (readTaskRequest_maxTokens hr).2
              have hfits := taskRequestRecord_fits hof hnow
              have hfits' := taskPackageRecord_fits hof r.proposal.toolProfile hnow hmax
              refine ⟨body, r, _, hbody, hr, TaskProposal.allowed_of_not_denied hallowed,
                ⟨e, hof, rfl⟩, ?_⟩
              dsimp only
              rw [printRecord_of_fits (by omega), printRecord_of_fits (by omega),
                wtTaskAppendRecord_object _ hfits, wtTaskAppendRecord_object _ hfits',
                List.append_assoc]
              rfl

/-! ## The two endpoints -/

inductive AdmissionEndpoint where
  | taskPackage
  | taskRequest
  deriving DecidableEq, Repr

namespace AdmissionEndpoint

def handle (endpoint : AdmissionEndpoint) (config : WtConfig) (ledger : Ledger)
    (request : Bytes) (clock : Clock) : Ledger × HttpReply :=
  match endpoint with
  | taskPackage => handlePostTaskPackage config ledger request clock
  | taskRequest => handlePostTaskRequest config ledger request clock

/-- The proposal a body carries. -/
def proposal (endpoint : AdmissionEndpoint) (body : Bytes) : Option TaskProposal :=
  match endpoint with
  | taskPackage => readTaskPackage body
  | taskRequest => (readTaskRequest body).map TaskRequest.proposal

/-- The lines an accepted request appends. -/
def Lines (endpoint : AdmissionEndpoint) (config : WtConfig) (body : Bytes) (now : Int)
    (lines : Ledger) : Prop :=
  match endpoint with
  | taskPackage => ∃ p events, readTaskPackage body = some p ∧ RoutingEvents p config now events ∧
      lines = recordedLines body ++ events
  | taskRequest => ∃ r, readTaskRequest body = some r ∧ RequestLines r config now lines

end AdmissionEndpoint

/-- **What an accepted request leaves behind: the policy allowed its proposal, and the endpoint's
lines are at the end of the ledger.** -/
theorem admission_accepted {endpoint : AdmissionEndpoint} {config : WtConfig} {ledger : Ledger}
    {request : Bytes} {clock : Clock}
    (h : (endpoint.handle config ledger request clock).2.accepted) :
    ∃ body p lines, requestBody request = some body ∧ endpoint.proposal body = some p ∧
      (wtPolicyEvaluateTaskPackage config (p.policyInput config ledger body clock)).allowed = true ∧
      endpoint.Lines config body clock.record lines ∧
      (endpoint.handle config ledger request clock).1 = ledger ++ lines := by
  cases endpoint with
  | taskPackage =>
    obtain ⟨body, p, events, hbody, hp, hallowed, hevents, hledger⟩ := taskPackage_accepted h
    exact ⟨body, p, _, hbody, hp, hallowed, ⟨p, events, hp, hevents, rfl⟩, hledger⟩
  | taskRequest =>
    obtain ⟨body, r, lines, hbody, hr, hallowed, hlines, hledger⟩ := taskRequest_accepted h
    refine ⟨body, r.proposal, lines, hbody, ?_, hallowed, ⟨r, hr, hlines⟩, hledger⟩
    simp [AdmissionEndpoint.proposal, hr]

end WovenTeam

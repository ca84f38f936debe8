import WovenTeam.Claims
import WovenTeam.ClaimScans
import WovenTeam.Room.Codec
import WovenTeam.Store.Events

/-!
# Rerouting a task

`handlePostTaskReroute` appends a routing event with the agent and the host the operator names. The
folds of the finders take the agent from it, but the host of a task from its packages alone:
`reroute_iff` says that a reroute does what it is asked exactly where the package names that host
already.
-/

namespace WovenTeam

open CText QuotedText FirstSeen

/-! ## The handler -/

/-- What a reroute request names. -/
structure Reroute where
  taskId : Bytes
  assignedAgent : Bytes
  executionHost : Bytes
  createdBy : Bytes
  deriving DecidableEq

def readReroute (request : Bytes) : Option Reroute :=
  let body := bearerBody request
  match wtJsonReadString body "taskId" wtTaskIdSize,
      wtJsonReadString body "assignedAgent" wtTaskAgentSize with
  | .ok taskId, .ok assignedAgent =>
    some {
      taskId, assignedAgent
      executionHost := (wtJsonReadString body "executionHost" wtTaskAgentSize).orElse []
      createdBy := (wtJsonReadString body "createdBy" wtTaskAgentSize).orElse (bytes "ceo") }
  | _, _ => none

def rerouteRecord (escapedTaskId escapedAgent escapedHost escapedBy : Literal) (now : Int) :
    Members :=
  str "schema" (.ofPlain "woventeam.task_event.v0.1") ++ str "taskId" escapedTaskId ++
  str "eventType" (.ofPlain "routing") ++ str "status" (.ofPlain "queued") ++
  str "assignedAgent" escapedAgent ++ str "executionHost" escapedHost ++
  str "message" (.ofPlain "Task rerouted by operator.") ++ str "createdBy" escapedBy ++
  num "createdAtUnixMs" now "\x7d"

/-- Nothing where a text does not fit its buffer when it is escaped: the function prints the buffer
all the same, without a terminator in it. -/
def handlePostTaskReroute (ledger : Ledger) (request : Bytes) (now : Int) :
    Option (Ledger × HttpReply) :=
  match readReroute request with
  | none => some (ledger, errorReply 400 "Bad Request" "task_agent_required")
  | some r => do
    let escapedTaskId ← wtJsonEscape r.taskId (wtTaskIdSize * 2)
    let escapedAgent ← wtJsonEscape r.assignedAgent (wtTaskAgentSize * 2)
    let escapedHost ← wtJsonEscape r.executionHost (wtTaskAgentSize * 2)
    let escapedBy ← wtJsonEscape r.createdBy (wtTaskAgentSize * 2)
    return (wtTaskAppendRecord ledger (printRecord 1280
        (rerouteRecord escapedTaskId escapedAgent escapedHost escapedBy now)),
      okReply (bytes "\x7b\"ok\":true\x7d\n"))

/-- The fields of the routing event. -/
def Reroute.fields (r : Reroute) (now : Int) : List Field :=
  [("schema", .text (bytes "woventeam.task_event.v0.1")), ("taskId", .text r.taskId),
    ("eventType", .text (bytes "routing")), ("status", .text (bytes "queued")),
    ("assignedAgent", .text r.assignedAgent), ("executionHost", .text r.executionHost),
    ("message", .text (bytes "Task rerouted by operator.")), ("createdBy", .text r.createdBy),
    ("createdAtUnixMs", .number now)]

/-- The texts of the request fit the escape buffers. -/
structure Reroute.Fits (r : Reroute) : Prop where
  taskId : EscapeFits r.taskId (wtTaskIdSize * 2)
  assignedAgent : EscapeFits r.assignedAgent (wtTaskAgentSize * 2)
  executionHost : EscapeFits r.executionHost (wtTaskAgentSize * 2)
  createdBy : EscapeFits r.createdBy (wtTaskAgentSize * 2)

/-! ## The statement -/

/-- The task is there for the agent in the first pass of the local scan. -/
def OfferedLocally (ledger : Ledger) (agentName taskId : Bytes) : Prop :=
  ∃ task ∈ scanQueued ledger, task.taskId = taskId ∧ isQueuedFor agentName task

/-- The test of the remote scan. -/
def isOffered (agentName executionHost : Bytes) (nowUnixMs : Int) (row : ClaimRow) : Bool :=
  (row.queued || row.stuck nowUnixMs) && row.ownerAgent == agentName &&
    (row.task.executionHost == [] || row.task.executionHost == executionHost)

/-- The task is there for the agent on the host. -/
def OfferedOn (ledger : Ledger) (agentName host : Bytes) (nowUnixMs : Int) (taskId : Bytes) :
    Prop :=
  ∃ row ∈ (claimTable ["lease", "lease_renewal"]).scan (some taskTableSize) ledger,
    row.task.taskId = taskId ∧ isOffered agentName host nowUnixMs row

/-- The task waits for the agent alone, on the host alone if there is one. -/
structure Reroute.TakesEffect (r : Reroute) (ledger : Ledger) : Prop where
  queued : ∀ agentName, OfferedLocally ledger agentName r.taskId ↔
    agentName = r.assignedAgent ∧ r.executionHost = []
  offered : ∀ agentName host nowUnixMs, OfferedOn ledger agentName host nowUnixMs r.taskId ↔
    agentName = r.assignedAgent ∧ (r.executionHost = [] ∨ host = r.executionHost)

/-- The host the task's packages pin it to. -/
def pinnedHost (ledger : Ledger) (taskId : Bytes) : Option Bytes :=
  (foldedState ledger taskId).map WtTaskSummary.executionHost

/-- The task already waits for the agent, as both scans read it. -/
structure Reroute.Done (r : Reroute) (ledger : Ledger) : Prop where
  waits : Waits ledger r.taskId
  owner : owner ledger r.taskId = some r.assignedAgent
  named : r.executionHost = [] → lastNamedAgent ledger r.taskId = some r.assignedAgent

/-- The condition of a reroute: its texts fit, the finders have a row for the task, its packages
pin it to the host of the request, and the names read back from the event; where the id does not,
the event is another task's and the task must be so already. -/
structure Reroute.Holds (r : Reroute) (ledger : Ledger) : Prop where
  fits : r.Fits
  tracked : r.taskId ∈ trackedIds ledger
  pinned : pinnedHost ledger r.taskId = some r.executionHost
  agent : Decodes r.taskId → Decodes r.assignedAgent
  already : ¬ Decodes r.taskId → r.Done ledger

/-- After the reroute, and whatever follows about other tasks, the task waits as it was asked. -/
def RerouteHolds (ledger : Ledger) (request : Bytes) (now : Int) (r : Reroute) : Prop :=
  ∀ later, (∀ line ∈ later, lineTaskId line ≠ some r.taskId) →
    ∃ after reply, handlePostTaskReroute ledger request now = some (after, reply) ∧
      reply.accepted ∧ r.TakesEffect (after ++ later)

/-! ## The event -/

theorem length_readReroute {request : Bytes} {r : Reroute} (h : readReroute request = some r) :
    r.taskId.length < wtTaskIdSize ∧ r.assignedAgent.length < wtTaskAgentSize := by
  unfold readReroute at h
  dsimp only at h
  split at h
  · rename_i hid hagent
    cases h
    exact ⟨wtJsonReadString_length hid, wtJsonReadString_length hagent⟩
  · cases h

theorem Reroute.fieldNames (r : Reroute) (now : Int) :
    ∀ field ∈ r.fields now, FieldName field.1 := by
  refine fieldNames_of_check ?_
  simp only [fields, List.map_cons, List.map_nil]
  decide

section event

variable {r : Reroute} {now : Int}

/-- The appended line. -/
def Reroute.line (r : Reroute) (now : Int) : Bytes := fieldsLine (r.fields now)

theorem Reroute.readString_line (k : String) (value : FieldValue)
    (hvalue : fieldNamed (r.fields now) k = some value) (hk : SearchKey k) (size : Nat) :
    wtJsonReadString (r.line now) k size = value.readString size := by
  rw [line, readString_fields (r.fieldNames now) hk, hvalue]
  rfl

theorem Reroute.schema_line : lineHasSchema (r.line now) taskEventSchema := by
  rw [lineHasSchema, readString_line "schema" (.text (bytes "woventeam.task_event.v0.1"))
    (by simp +decide [fieldNamed, fields]) ⟨by decide, by decide, by decide, by decide⟩]
  decide

theorem Reroute.taskId_line (h : r.taskId.length < wtTaskIdSize) :
    lineTaskId (r.line now) = some r.taskId ↔ Decodes r.taskId := by
  rw [lineTaskId, readString_line "taskId" (.text r.taskId)
    (by simp +decide [fieldNamed, fields]) ⟨by decide, by decide, by decide, by decide⟩]
  exact toOption_text_iff h

theorem Reroute.eventType_line : lineEventType (r.line now) = bytes "routing" := by
  rw [lineEventType, readString_line "eventType" (.text (bytes "routing"))
    (by simp +decide [fieldNamed, fields]) ⟨by decide, by decide, by decide, by decide⟩]
  decide

theorem Reroute.status_line :
    wtJsonReadString (r.line now) "status" wtTaskStatusSize = .ok (bytes "queued") := by
  rw [readString_line "status" (.text (bytes "queued"))
    (by simp +decide [fieldNamed, fields]) ⟨by decide, by decide, by decide, by decide⟩]
  decide

theorem Reroute.agent_line : wtJsonReadString (r.line now) "assignedAgent" wtTaskAgentSize =
    (FieldValue.text r.assignedAgent).readString wtTaskAgentSize :=
  readString_line "assignedAgent" _ (by simp +decide [fieldNamed, fields])
    ⟨by decide, by decide, by decide, by decide⟩ _

end event

/-- **A reroute request that names a task and an agent appends its routing event, where its texts
fit.** -/
theorem handlePostTaskReroute_eq {ledger : Ledger} {request : Bytes} {now : Int} {r : Reroute}
    (hnow : Int64 now) (hread : readReroute request = some r) :
    (r.Fits ∧ handlePostTaskReroute ledger request now =
        some (ledger ++ [r.line now], okReply (bytes "\x7b\"ok\":true\x7d\n"))) ∨
      (¬ r.Fits ∧ handlePostTaskReroute ledger request now = none) := by
  unfold handlePostTaskReroute
  rw [hread]
  by_cases hfits : r.Fits
  · obtain ⟨a, ha⟩ := wtJsonEscape_of_fits hfits.taskId
    obtain ⟨b, hb⟩ := wtJsonEscape_of_fits hfits.assignedAgent
    obtain ⟨c, hc⟩ := wtJsonEscape_of_fits hfits.executionHost
    obtain ⟨d, hd⟩ := wtJsonEscape_of_fits hfits.createdBy
    refine .inl ⟨hfits, ?_⟩
    simp only [ha, hb, hc, hd, Option.bind_eq_bind, Option.bind_some, Option.pure_def]
    obtain ⟨ha, hla⟩ := wtJsonEscape_text ha
    obtain ⟨hb, hlb⟩ := wtJsonEscape_text hb
    obtain ⟨hc, hlc⟩ := wtJsonEscape_text hc
    obtain ⟨hd, hld⟩ := wtJsonEscape_text hd
    congr 2
    refine append_printRecord ?_ ?_ (by decide)
    · simp only [Reroute.fields, fieldItems, FieldValue.items, ← ha, ← hb, ← hc, ← hd]
      rfl
    · have := length_decimal hnow
      have htype : ((bytes "routing").flatMap escapePiece).length = 7 := by decide
      have hstatus : ((bytes "queued").flatMap escapePiece).length = 6 := by decide
      have hmessage : ((bytes "Task rerouted by operator.").flatMap escapePiece).length = 26 := by
        decide
      simp only [length_fieldItems, Reroute.fields, List.map_cons, List.map_nil, List.sum_cons,
        List.sum_nil, FieldValue.length, ← ha, ← hb, ← hc, ← hd, length_taskEventSchema, htype,
        hstatus, hmessage, length_bytes, String.reduceToList, List.length_cons, List.length_nil]
      simp only [wtTaskIdSize, wtTaskAgentSize] at *
      omega
  · refine .inr ⟨hfits, ?_⟩
    rw [Option.eq_none_iff_forall_ne_some]
    intro result h
    simp only [Option.pure_def, Option.bind_eq_bind, Option.bind_eq_some_iff] at h
    obtain ⟨a, ha, b, hb, c, hc, d, hd, -⟩ := h
    exact hfits ⟨escapeFits_of_escape ha, escapeFits_of_escape hb, escapeFits_of_escape hc,
      escapeFits_of_escape hd⟩

/-! ## The task after the event -/

section after

variable {ledger later : Ledger} {r : Reroute} {now : Int}

theorem taskLines_after (hid : r.taskId.length < wtTaskIdSize)
    (h : ∀ line ∈ later, lineTaskId line ≠ some r.taskId) :
    taskLines (ledger ++ [r.line now] ++ later) r.taskId =
      taskLines ledger r.taskId ++ if Decodes r.taskId then [r.line now] else [] := by
  have hlater : later.filter (fun line => lineTaskId line = some r.taskId) = [] :=
    List.filter_eq_nil_iff.mpr fun line hline => by simpa using h line hline
  simp only [taskLines, List.filter_append, hlater, List.append_nil, List.filter_cons,
    List.filter_nil, decide_eq_true_eq, Reroute.taskId_line hid]

theorem trackedIds_after (h : ∀ line ∈ later, lineTaskId line ≠ some r.taskId) :
    r.taskId ∈ trackedIds (ledger ++ [r.line now] ++ later) ↔ r.taskId ∈ trackedIds ledger := by
  rw [← @trackedIds_append_event ledger _ r.schema_line]
  exact queuedTable.mem_admitted_append_of_ne h (some taskTableSize)

theorem pinnedHost_after (h : ∀ line ∈ later, lineTaskId line ≠ some r.taskId) :
    pinnedHost (ledger ++ [r.line now] ++ later) r.taskId = pinnedHost ledger r.taskId := by
  have hlater : foldedState (ledger ++ [r.line now] ++ later) r.taskId =
      foldedState (ledger ++ [r.line now]) r.taskId := queuedTable.stateOf_append_of_ne h
  rw [pinnedHost, hlater, foldedState_append_event r.schema_line, pinnedHost]
  split
  · rw [Option.map_map]
    rfl
  · rfl

theorem reroute_done_iff {ledger : Ledger} : r.Done ledger ↔
    Waits ledger r.taskId ∧ owner ledger r.taskId = some r.assignedAgent ∧
      (r.executionHost = [] → lastNamedAgent ledger r.taskId = some r.assignedAgent) :=
  ⟨fun h => ⟨h.waits, h.owner, h.named⟩, fun h => ⟨h.1, h.2.1, h.2.2⟩⟩

/-- Behind the event the task waits for the agent that the event's reading names. -/
theorem done_after (hid : r.taskId.length < wtTaskIdSize)
    (hagent : r.assignedAgent.length < wtTaskAgentSize)
    (h : ∀ line ∈ later, lineTaskId line ≠ some r.taskId) :
    r.Done (ledger ++ [r.line now] ++ later) ↔
      (Decodes r.taskId → Decodes r.assignedAgent) ∧ (¬ Decodes r.taskId → r.Done ledger) := by
  have hlines := @taskLines_after ledger later r now hid h
  by_cases hdecodes : Decodes r.taskId
  · rw [if_pos hdecodes] at hlines
    have hstatus : lastStatus (ledger ++ [r.line now] ++ later) r.taskId =
        some (bytes "queued") := by
      rw [lastStatus, hlines, lastOf_append, lastOf_cons_of_none (by simp), overlaidText,
        taskEvent_ne_taskPackage r.schema_line, if_neg (by decide), if_pos r.schema_line,
        r.status_line]
      rfl
    have hwritten := written_text_iff hagent
    obtain ⟨written, hw⟩ : ∃ written,
        ((FieldValue.text r.assignedAgent).readString wtTaskAgentSize).written = some written := by
      rw [readString_text r.assignedAgent (by decide)]
      split <;> exact ⟨_, rfl⟩
    have howner : owner (ledger ++ [r.line now] ++ later) r.taskId = some r.assignedAgent ↔
        Decodes r.assignedAgent := by
      have hrouting : (lineHasSchema (r.line now) taskEventSchema &&
          (lineEventType (r.line now) == bytes "routing" ||
            lineEventType (r.line now) == bytes "assignment")) = true := by
        simp [r.schema_line, r.eventType_line]
      rw [owner, hlines, lastOf_append, lastOf_cons_of_none (by simp), ownerText,
        taskEvent_ne_taskPackage r.schema_line, if_neg (by decide), if_pos hrouting,
        r.agent_line, ← hwritten, hw, Option.some_or]
    have hnamed : lastNamedAgent (ledger ++ [r.line now] ++ later) r.taskId =
        some r.assignedAgent ↔ Decodes r.assignedAgent := by
      rw [lastNamedAgent, hlines, lastOf_append, lastOf_cons_of_none (by simp), overlaidText,
        taskEvent_ne_taskPackage r.schema_line, if_neg (by decide), if_pos r.schema_line,
        r.agent_line, ← hwritten, hw, Option.some_or]
    simp only [hdecodes, forall_const, not_true_eq_false, false_imp_iff, and_true]
    exact ⟨fun hdone => howner.mp hdone.owner,
      fun ha => ⟨.inl hstatus, howner.mpr ha, fun _ => hnamed.mpr ha⟩⟩
  · rw [if_neg hdecodes, List.append_nil] at hlines
    have hstatus : lastStatus (ledger ++ [r.line now] ++ later) r.taskId =
        lastStatus ledger r.taskId := congrArg (lastOf _) hlines
    have howner : owner (ledger ++ [r.line now] ++ later) r.taskId = owner ledger r.taskId :=
      congrArg (lastOf _) hlines
    have hnamed : lastNamedAgent (ledger ++ [r.line now] ++ later) r.taskId =
        lastNamedAgent ledger r.taskId := congrArg (lastOf _) hlines
    have hdone : r.Done (ledger ++ [r.line now] ++ later) ↔ r.Done ledger := by
      simp only [reroute_done_iff, Waits, hstatus, howner, hnamed]
    simp only [hdecodes, false_imp_iff, not_false_eq_true, true_and, forall_const, hdone]

end after

/-! ## What the scans make of it -/

section offers

variable {ledger : Ledger} {agentName host taskId : Bytes} {nowUnixMs : Int}

theorem offeredLocally_iff : OfferedLocally ledger agentName taskId ↔
    taskId ∈ trackedIds ledger ∧ pinnedHost ledger taskId = some [] ∧ Waits ledger taskId ∧
      lastNamedAgent ledger taskId = some agentName := by
  have hrow : ∀ {task : WtTaskSummary}, foldedState ledger taskId = some task →
      (isQueuedFor agentName task ↔ pinnedHost ledger taskId = some [] ∧ Waits ledger taskId ∧
        lastNamedAgent ledger taskId = some agentName) := by
    intro task htask
    have hstatus := overlaidText_eq WtTaskSummary.status (fun _ _ => rfl) (fun _ _ => rfl) htask
    have hagent := overlaidText_eq WtTaskSummary.assignedAgent (fun _ _ => rfl) (fun _ _ => rfl)
      htask
    rw [isQueuedFor_iff, pinnedHost, htask, Waits, lastStatus, lastNamedAgent, hstatus, hagent]
    simp only [Option.map_some, Option.some.injEq]
    tauto
  constructor
  · rintro ⟨task, htask, rfl, hqueued⟩
    obtain ⟨htracked, hstate⟩ := mem_scanQueued_iff.mp htask
    exact ⟨htracked, (hrow hstate).mp hqueued⟩
  · rintro ⟨htracked, hrest⟩
    obtain ⟨task, htask⟩ := Option.isSome_iff_exists.mp
      (mem_packageIds_iff.mp (List.mem_of_mem_take htracked))
    obtain rfl := foldedState_taskId htask
    exact ⟨task, mem_scanQueued_iff.mpr ⟨htracked, htask⟩, rfl, (hrow htask).mpr hrest⟩

theorem offeredOn_iff : OfferedOn ledger agentName host nowUnixMs taskId ↔
    taskId ∈ trackedIds ledger ∧
      (Waits ledger taskId ∨
        Held ledger taskId ∧ Expired ["lease", "lease_renewal"] ledger nowUnixMs taskId) ∧
      owner ledger taskId = some agentName ∧
      ∃ pinned, pinnedHost ledger taskId = some pinned ∧ (pinned = [] ∨ pinned = host) := by
  have hrow : ∀ {row : ClaimRow},
      (claimTable ["lease", "lease_renewal"]).stateOf ledger taskId = some row →
      (isOffered agentName host nowUnixMs row ↔
        (Waits ledger taskId ∨
          Held ledger taskId ∧ Expired ["lease", "lease_renewal"] ledger nowUnixMs taskId) ∧
        owner ledger taskId = some agentName ∧
        ∃ pinned, pinnedHost ledger taskId = some pinned ∧ (pinned = [] ∨ pinned = host)) := by
    intro row hstate
    have hpin : pinnedHost ledger taskId = some row.task.executionHost := foldedHost_eq hstate
    rw [ownerAgent_eq hstate, hpin, ← queued_iff hstate, ← stuck_iff hstate]
    simp only [isOffered, Bool.and_eq_true, Bool.or_eq_true, beq_iff_eq, Option.some.injEq,
      exists_eq_left']
    tauto
  constructor
  · rintro ⟨row, hmem, rfl, hoffered⟩
    obtain ⟨htracked, hstate⟩ := (claimTable _).mem_scan_iff.mp hmem
    exact ⟨htracked, (hrow hstate).mp hoffered⟩
  · rintro ⟨htracked, hrest⟩
    obtain ⟨row, hstate⟩ := claimRow_isSome ["lease", "lease_renewal"]
      (List.mem_of_mem_take htracked)
    obtain rfl := (claimTable ["lease", "lease_renewal"]).idOf_stateOf hstate
    exact ⟨row, (claimTable _).mem_scan_iff.mpr ⟨htracked, hstate⟩, rfl, (hrow hstate).mpr hrest⟩

end offers

/-- A reroute has its effect where the finders have a row for the task that is pinned as it was
asked and waits for the agent. -/
theorem takesEffect_iff {r : Reroute} {ledger : Ledger} :
    r.TakesEffect ledger ↔ r.taskId ∈ trackedIds ledger ∧
      pinnedHost ledger r.taskId = some r.executionHost ∧ r.Done ledger := by
  constructor
  · rintro ⟨hqueued, hoffered⟩
    obtain ⟨htracked, hready, howner, pinned, hpinned, hhost⟩ := offeredOn_iff.mp
      ((hoffered r.assignedAgent r.executionHost 0).mpr ⟨rfl, .inr rfl⟩)
    have hwaits : Waits ledger r.taskId := by
      refine hready.resolve_right ?_
      rintro ⟨-, expires, -, hpositive, hexpired⟩
      omega
    have hpin : pinned = r.executionHost := by
      rcases hhost with rfl | rfl
      · -- a task for any host is offered on another host than the one asked for
        have hany := (hoffered r.assignedAgent (0 :: r.executionHost) 0).mp (offeredOn_iff.mpr
          ⟨htracked, hready, howner, [], hpinned, .inl rfl⟩)
        rcases hany.2 with hempty | hother
        · exact hempty.symm
        · exact absurd (congrArg List.length hother) (by simp)
      · rfl
    subst hpin
    refine ⟨htracked, hpinned, hwaits, howner, fun hempty => ?_⟩
    exact (offeredLocally_iff.mp ((hqueued r.assignedAgent).mpr ⟨rfl, hempty⟩)).2.2.2
  · rintro ⟨htracked, hpinned, hwaits, howner, hnamed⟩
    refine ⟨fun agentName => ?_, fun agentName host nowUnixMs => ?_⟩
    · rw [offeredLocally_iff, hpinned, Option.some.injEq]
      constructor
      · rintro ⟨-, hempty, -, hagent⟩
        exact ⟨Option.some.inj (hagent.symm.trans (hnamed hempty)), hempty⟩
      · rintro ⟨rfl, hempty⟩
        exact ⟨htracked, hempty, hwaits, hnamed hempty⟩
    · rw [offeredOn_iff, hpinned, howner]
      constructor
      · rintro ⟨-, -, hagent, pinned, hpin, hhost⟩
        obtain rfl := Option.some.inj hpin
        exact ⟨(Option.some.inj hagent).symm, hhost.imp_right Eq.symm⟩
      · rintro ⟨rfl, hhost⟩
        exact ⟨htracked, .inl hwaits, rfl, _, rfl, hhost.imp_right Eq.symm⟩

/-- **A reroute takes full effect exactly where the packages of the task pin it to the host of the
request already.** -/
theorem reroute_iff {ledger : Ledger} {request : Bytes} {now : Int} {r : Reroute}
    (hnow : Int64 now) (hread : readReroute request = some r) :
    RerouteHolds ledger request now r ↔ r.Holds ledger := by
  obtain ⟨hid, hagent⟩ := length_readReroute hread
  rcases @handlePostTaskReroute_eq ledger _ _ _ hnow hread with ⟨hfits, heq⟩ | ⟨hfits, heq⟩
  · have heffect : ∀ later, (∀ line ∈ later, lineTaskId line ≠ some r.taskId) →
        (r.TakesEffect (ledger ++ [r.line now] ++ later) ↔ r.Holds ledger) := by
      intro later hlater
      rw [takesEffect_iff, trackedIds_after hlater, pinnedHost_after hlater,
        done_after hid hagent hlater]
      exact ⟨fun ⟨ht, hp, ha, hd⟩ => ⟨hfits, ht, hp, ha, hd⟩,
        fun h => ⟨h.tracked, h.pinned, h.agent, h.already⟩⟩
    constructor
    · intro h
      obtain ⟨after, reply, hafter, -, hholds⟩ := h [] (by simp)
      rw [heq, Option.some.injEq, Prod.mk.injEq] at hafter
      rw [← hafter.1] at hholds
      exact (heffect [] (by simp)).mp hholds
    · intro h later hlater
      exact ⟨_, _, heq, rfl, (heffect later hlater).mpr h⟩
  · refine iff_of_false (fun h => ?_) fun h => hfits h.fits
    obtain ⟨after, reply, hafter, -⟩ := h [] (by simp)
    rw [heq] at hafter
    cases hafter

/-! ### A task of a host -/

/-- A package for claude, pinned to the host if one is given. -/
def hostPackage (host : String) : Bytes :=
  fieldsLine [("schema", .text (bytes "woventeam.task_package.v0.1")),
    ("taskId", .text (bytes "t1")), ("assignedRole", .text (bytes "dev")),
    ("assignedAgent", .text (bytes "claude")), ("executionHost", .text (bytes host))]

/-- A reroute to gemini, on no host in particular. -/
def rerouteRequest : Bytes :=
  bytes ("POST /api/task-reroute HTTP/1.1\r\n\r\n" ++
    "\x7b\"taskId\":\"t1\",\"assignedAgent\":\"gemini\"\x7d")

def geminiReroute : Reroute := ⟨bytes "t1", bytes "gemini", [], bytes "ceo"⟩

theorem reroute_iff_unpinned :
    RerouteHolds [hostPackage ""] rerouteRequest 1000 geminiReroute ↔
      geminiReroute.Holds [hostPackage ""] :=
  reroute_iff (by decide) (by decide +kernel)

/-- The task stays on the host of its package. -/
theorem not_reroute : ¬ ∀ ledger request now r, Int64 now → readReroute request = some r →
    RerouteHolds ledger request now r := by
  intro h
  obtain ⟨after, reply, hafter, -, heffect⟩ := h [hostPackage "h1"] rerouteRequest 1000 geminiReroute
    (by decide) (by decide +kernel) [] (by simp)
  have hpin := (takesEffect_iff.mp heffect).2.1
  have hhost : (handlePostTaskReroute [hostPackage "h1"] rerouteRequest 1000).map
      (fun result => pinnedHost result.1 (bytes "t1")) = some (some (bytes "h1")) := by
    decide +kernel
  rw [hafter, Option.map_some, Option.some.injEq] at hhost
  rw [List.append_nil] at hpin
  exact absurd (hhost.symm.trans hpin) (by decide)

end WovenTeam

import WovenTeam.Boards

/-!
# The texts of the boards

The appends of `wt_task_projection.c` for the pages of `Boards`, and that each page that fits its
buffer is one JSON text. The page of the agents always fits.
-/

namespace WovenTeam

open CText QuotedText JsonText FirstSeen Grouping

/-! ## Texts -/

def boardAgents : List Bytes := [bytes "claude", bytes "chatgpt", bytes "gemini"]

def workloadAppends (w : Workload) : List Append :=
  [Append.raw (123 :: keyed "agent"), .string w.agent, .raw (nextKey "state"), .string w.state,
    .raw (nextKey "message"), .string w.message,
    .raw (snprintf 512 (nextKey "activeTasks" ++ intText w.activeTasks ++
      nextKey "leasedTasks" ++ intText w.leasedTasks ++
      nextKey "runningTasks" ++ intText w.runningTasks ++
      nextKey "stuckTasks" ++ intText w.stuckTasks ++
      nextKey "attempts" ++ intText w.attempts ++
      nextKey "updatedAtUnixMs" ++ longText w.updatedAtMs ++
      nextKey "controlAtUnixMs" ++ longText w.controlAtMs ++ [125]))]

def agentsAppends (ledger : Ledger) (nowUnixMs : Int) : List Append :=
  [Append.raw (123 :: (keyed "ok" ++ bytes "true" ++ nextKey "agents" ++ [91]))] ++
    joined (boardAgents.map fun agent => workloadAppends (agentWorkload ledger nowUnixMs agent)) ++
    [Append.raw [93, 125, 10]]

def wtTaskProjectionReadAgentsJson (ledger : Ledger) (nowUnixMs : Int) (bufferSize : Nat) : Bytes :=
  writeAll bufferSize (agentsAppends ledger nowUnixMs)

def countAppends (key : String) (row : Bytes × Nat) : List Append :=
  [Append.raw (123 :: keyed key), .string row.1,
    .raw (snprintf 256 (nextKey "activeTasks" ++ intText row.2 ++ [125]))]

def capacityAppends (rows : List TaskRow) : List Append :=
  [Append.raw (123 :: (keyed "ok" ++ bytes "true" ++ nextKey "agents" ++ [91]))] ++
    joined ((capacityAgents rows).map (countAppends "agent")) ++ [nextArray "initiatives"] ++
    joined ((mostActive TaskRow.initiativeId rows).map (countAppends "initiativeId")) ++
    [nextArray "parents"] ++
    joined ((mostActive TaskRow.parentTaskId rows).map (countAppends "parentTaskId")) ++
    [Append.raw [93, 125]]

def wtTaskProjectionReadCapacityJson (ledger : Ledger) (bufferSize : Nat) : Int × Bytes :=
  match appendRaw bufferSize []
      (123 :: (keyed "ok" ++ bytes "true" ++ nextKey "agents" ++ [91])) with
  | none => (-1, [])
  | some _ => (0, writeAll bufferSize (capacityAppends (wtTaskProjectionRebuild ledger)))

/-- `sendCapacityJson`: the document with the caps in place of its last brace. -/
def capacityBody (config : WtConfig) (body : Bytes) (bodySize : Nat) : Bytes :=
  let caps := snprintf 256 (nextKey "caps" ++ 123 :: (keyed "maxActiveTasksPerAgent" ++
    decimal config.maxActiveTasksPerAgent ++ nextKey "maxSubtasksPerParent" ++
    decimal config.maxSubtasksPerParent ++ nextKey "maxTasksPerInitiative" ++
    decimal config.maxTasksPerInitiative ++ [125, 125, 10]))
  if body.getLast? = some 125 then
    body.dropLast ++ caps.take (bodySize - body.dropLast.length - 1)
  else body

def summaryNumbers (s : InitiativeSummary) : Bytes :=
  nextKey "taskCount" ++ intText s.taskCount ++ nextKey "activeTasks" ++ intText s.activeTasks ++
    nextKey "completeTasks" ++ intText s.completeTasks ++
    nextKey "failedTasks" ++ intText s.failedTasks ++
    nextKey "blockedTasks" ++ intText s.blockedTasks ++
    nextKey "openGateTasks" ++ intText s.openGateTasks ++
    nextKey "maxTokens" ++ longText s.maxTokens ++
    nextKey "createdAtUnixMs" ++ longText s.createdAtMs ++
    nextKey "updatedAtUnixMs" ++ longText s.updatedAtMs ++ [125]

def initiativeAppends (entry : Bytes × InitiativeSummary) : List Append :=
  [Append.raw (123 :: keyed "initiativeId"), .string entry.1, .raw (nextKey "title"),
    .string entry.2.title, .raw (snprintf 512 (summaryNumbers entry.2))]

def initiativesAppends (entries : List (Bytes × InitiativeSummary)) : List Append :=
  [Append.raw (123 :: (keyed "ok" ++ bytes "true" ++ nextKey "initiatives" ++ [91]))] ++
    joined (entries.map initiativeAppends) ++ [Append.raw [93, 125, 10]]

def wtTaskProjectionReadInitiativesJson (ledger : Ledger) (bufferSize : Nat) : Bytes :=
  writeAll bufferSize
    (initiativesAppends ((initiativeList (wtTaskProjectionRebuild ledger)).getD []))

def initiativeTaskAppends (row : TaskRow) : List Append :=
  [Append.raw [123]] ++
  joined [keyedString "taskId" row.taskId, keyedString "parentTaskId" row.parentTaskId,
    keyedString "requestedByRole" row.requestedByRole,
    keyedString "assignedRole" row.assignedRole, keyedString "assignedAgent" row.assignedAgent,
    keyedString "modelId" row.modelId, keyedString "priority" row.priority,
    keyedString "status" row.status, keyedString "title" row.title,
    keyedString "toolProfile" row.toolProfile] ++
  [Append.raw (snprintf 512 (nextKey "maxTokens" ++ longText row.maxTokens ++
    nextKey "createdAtUnixMs" ++ longText row.createdAtMs ++
    nextKey "updatedAtUnixMs" ++ longText row.updatedAtMs ++
    nextKey "eventCount" ++ intText row.eventCount ++ [125]))]

def initiativeDetailAppends (initiativeId : Bytes) (summary : InitiativeSummary)
    (tasks : List TaskRow) : List Append :=
  [Append.raw (123 :: (keyed "ok" ++ bytes "true" ++ nextKey "initiative" ++
      123 :: keyed "initiativeId")),
    .string initiativeId, .raw (nextKey "title"), .string summary.title,
    .raw (snprintf 512 (summaryNumbers summary ++ nextKey "tasks" ++ [91]))] ++
    joined (tasks.map initiativeTaskAppends) ++ [Append.raw [93, 125, 10]]

def wtTaskProjectionReadInitiativeDetailJson (ledger : Ledger) (initiativeId : Bytes)
    (bufferSize : Nat) : Int × Bytes :=
  match initiativeDetail (wtTaskProjectionRebuild ledger) initiativeId with
  | none =>
    (1, snprintf bufferSize (bytes "\x7b\"ok\":false,\"error\":\"initiative not found\"\x7d"))
  | some (summary, tasks) =>
    (0, writeAll bufferSize (initiativeDetailAppends initiativeId summary tasks))

def artifactAppends (row : TaskRow) : List Append :=
  [.raw (123 :: keyed "taskId"), .string row.taskId, .raw (nextKey "title"), .string row.title,
    .raw (nextKey "assignedAgent"), .string row.assignedAgent,
    .raw (nextKey "artifactState"), .string row.artifactState,
    .raw (nextKey "lastReviewer"), .string row.lastReviewer,
    .raw (nextKey "lastReviewNotes"), .string row.lastReviewNotes,
    .raw (snprintf 160 (nextKey "acceptedAtUnixMs" ++ longText row.acceptedAtMs ++
      nextKey "updatedAtUnixMs" ++ longText row.updatedAtMs ++ nextKey "acceptedArtifactPath")),
    .string row.acceptedArtifactPath, .raw [125]]

def artifactsAppends (initiativeId : Bytes) (rows : List TaskRow) : List Append :=
  [Append.raw (123 :: (keyed "ok" ++ bytes "true" ++ nextKey "initiativeId")), .string initiativeId,
    .raw (nextKey "artifacts" ++ [91])] ++
    joined (rows.map artifactAppends) ++
    [Append.raw (snprintf 128 (93 :: (nextKey "acceptedCount" ++ intText (rows.countP isAccepted) ++
      nextKey "pendingCount" ++ intText (rows.countP fun row => !isAccepted row) ++ [125, 10])))]

def wtTaskProjectionReadInitiativeArtifactsJson (ledger : Ledger) (initiativeId : Bytes)
    (bufferSize : Nat) : Bytes :=
  writeAll bufferSize (artifactsAppends initiativeId
    (initiativeArtifacts (wtTaskProjectionRebuild ledger) initiativeId))

def heartbeatAppends (row : Bytes × Heartbeat) : List Append :=
  [Append.raw (123 :: keyed "agent"), .string row.1, .raw (nextKey "host"), .string row.2.host,
    .raw (nextKey "currentTaskId"), .string row.2.currentTaskId,
    .raw (snprintf 128 (nextKey "leaseExpiresAtUnixMs" ++ longText row.2.leaseExpiresAtMs ++
      nextKey "statusLine")), .string row.2.statusLine,
    .raw (snprintf 128 (nextKey "lastSeenUnixMs" ++ longText row.2.lastSeenMs ++ [125]))]

def heartbeatsAppends (ledger : Ledger) : List Append :=
  [Append.raw [91]] ++
    joined (((heartbeats ledger).insertionSort (ascending Prod.fst)).map heartbeatAppends) ++
    [Append.raw [93]]

def wtTaskProjectionReadHeartbeatsJson (ledger : Ledger) (bufferSize : Nat) : Bytes :=
  writeAll bufferSize (heartbeatsAppends ledger)

def milestoneAppends (row : Milestone × Nat) : List Append :=
  [Append.raw (snprintf 64 (123 :: (keyed "id" ++ longText row.2 ++ nextKey "taskId"))),
    .string row.1.taskId, .raw (nextKey "milestone"), .string row.1.milestone,
    .raw (nextKey "message"), .string row.1.message,
    .raw (nextKey "createdBy"), .string row.1.createdBy,
    .raw (snprintf 64 (nextKey "createdAtUnixMs" ++ longText row.1.createdAtMs ++ [125]))]

def milestonesAppends (ledger : Ledger) (limit : Int) : List Append :=
  [Append.raw [91]] ++ joined ((recentMilestones ledger limit).map milestoneAppends) ++
    [Append.raw [93]]

def wtTaskProjectionReadRecentMilestonesJson (ledger : Ledger) (limit : Int) (bufferSize : Nat) :
    Bytes :=
  writeAll bufferSize (milestonesAppends ledger limit)

/-! ## The documents -/

section documents

def workloadKeys : List String :=
  ["agent", "state", "message", "activeTasks", "leasedTasks", "runningTasks", "stuckTasks",
    "attempts", "updatedAtUnixMs", "controlAtUnixMs"]

theorem fullText_workload (w : Workload) :
    fullText (workloadAppends w) = objectOf workloadKeys
      [stringText w.agent, stringText w.state, stringText w.message, intText w.activeTasks,
        intText w.leasedTasks, intText w.runningTasks, intText w.stuckTasks, intText w.attempts,
        longText w.updatedAtMs, longText w.controlAtMs] := by
  unfold workloadKeys workloadAppends
  simp (disch := (simp; grind [length_longText, length_intText])) only [snprintf_of_lt]
  simp [Append.text]

theorem value_workload (w : Workload) : Value (fullText (workloadAppends w)) := by
  rw [fullText_workload]
  refine value_objectOf (by decide) (by simp [workloadKeys]) (by decide) ?_
  simp

theorem fullText_count (key : String) (row : Bytes × Nat) :
    fullText (countAppends key row) =
      objectOf [key, "activeTasks"] [stringText row.1, intText row.2] := by
  have hnumber : (nextKey "activeTasks" ++ intText row.2 ++ [125]).length < 256 := by
    have := length_intText row.2
    simp
    omega
  rw [countAppends, snprintf_of_lt hnumber, objectOf_cons, restOf_cons, restOf_nil]
  simp only [fullText_cons, fullText_nil, Append.text, List.append_nil, List.cons_append,
    List.append_assoc]

def initiativeRowKeys : List String :=
  ["initiativeId", "title", "taskCount", "activeTasks", "completeTasks", "failedTasks",
    "blockedTasks", "openGateTasks", "maxTokens", "createdAtUnixMs", "updatedAtUnixMs"]

theorem fullText_initiative (entry : Bytes × InitiativeSummary) :
    fullText (initiativeAppends entry) = objectOf initiativeRowKeys
      [stringText entry.1, stringText entry.2.title, intText entry.2.taskCount,
        intText entry.2.activeTasks, intText entry.2.completeTasks, intText entry.2.failedTasks,
        intText entry.2.blockedTasks, intText entry.2.openGateTasks, longText entry.2.maxTokens,
        longText entry.2.createdAtMs, longText entry.2.updatedAtMs] := by
  unfold initiativeRowKeys initiativeAppends summaryNumbers
  simp (disch := (simp; grind [length_longText, length_intText])) only [snprintf_of_lt]
  simp [Append.text]

def initiativeTaskKeys : List String :=
  ["taskId", "parentTaskId", "requestedByRole", "assignedRole", "assignedAgent", "modelId",
    "priority", "status", "title", "toolProfile", "maxTokens", "createdAtUnixMs",
    "updatedAtUnixMs", "eventCount"]

theorem fullText_initiativeTask (row : TaskRow) :
    fullText (initiativeTaskAppends row) = objectOf initiativeTaskKeys
      [stringText row.taskId, stringText row.parentTaskId, stringText row.requestedByRole,
        stringText row.assignedRole, stringText row.assignedAgent, stringText row.modelId,
        stringText row.priority, stringText row.status, stringText row.title,
        stringText row.toolProfile, longText row.maxTokens, longText row.createdAtMs,
        longText row.updatedAtMs, intText row.eventCount] := by
  unfold initiativeTaskKeys initiativeTaskAppends
  simp (disch := (simp; grind [length_longText, length_intText])) only [snprintf_of_lt]
  simp [fullText_joined, commaSeparated_cons, Append.text]

def artifactKeys : List String :=
  ["taskId", "title", "assignedAgent", "artifactState", "lastReviewer", "lastReviewNotes",
    "acceptedAtUnixMs", "updatedAtUnixMs", "acceptedArtifactPath"]

theorem fullText_artifact (row : TaskRow) :
    fullText (artifactAppends row) = objectOf artifactKeys
      [stringText row.taskId, stringText row.title, stringText row.assignedAgent,
        stringText row.artifactState, stringText row.lastReviewer, stringText row.lastReviewNotes,
        longText row.acceptedAtMs, longText row.updatedAtMs,
        stringText row.acceptedArtifactPath] := by
  unfold artifactKeys artifactAppends
  simp (disch := (simp; grind [length_longText])) only [snprintf_of_lt]
  simp [Append.text]

def heartbeatKeys : List String :=
  ["agent", "host", "currentTaskId", "leaseExpiresAtUnixMs", "statusLine", "lastSeenUnixMs"]

theorem fullText_heartbeat (row : Bytes × Heartbeat) :
    fullText (heartbeatAppends row) = objectOf heartbeatKeys
      [stringText row.1, stringText row.2.host, stringText row.2.currentTaskId,
        longText row.2.leaseExpiresAtMs, stringText row.2.statusLine,
        longText row.2.lastSeenMs] := by
  unfold heartbeatKeys heartbeatAppends
  simp (disch := (simp; grind [length_longText])) only [snprintf_of_lt]
  simp [Append.text]

def milestoneKeys : List String :=
  ["id", "taskId", "milestone", "message", "createdBy", "createdAtUnixMs"]

theorem fullText_milestone (row : Milestone × Nat) :
    fullText (milestoneAppends row) = objectOf milestoneKeys
      [longText row.2, stringText row.1.taskId, stringText row.1.milestone,
        stringText row.1.message, stringText row.1.createdBy, longText row.1.createdAtMs] := by
  unfold milestoneKeys milestoneAppends
  simp (disch := (simp; grind [length_longText])) only [snprintf_of_lt]
  simp [Append.text]

theorem value_count {key : String} (hkey : isPlainName (bytes key)) (row : Bytes × Nat) :
    Value (fullText (countAppends key row)) := by
  rw [fullText_count]
  refine value_objectOf (by simp) (by simp) ?_ (by simp)
  have hactive : isPlainName (bytes "activeTasks") = true := by decide
  simp [hkey, hactive]

theorem value_initiative (entry : Bytes × InitiativeSummary) :
    Value (fullText (initiativeAppends entry)) := by
  rw [fullText_initiative]
  refine value_objectOf (by decide) (by simp [initiativeRowKeys]) (by decide) ?_
  simp

theorem value_initiativeTask (row : TaskRow) : Value (fullText (initiativeTaskAppends row)) := by
  rw [fullText_initiativeTask]
  refine value_objectOf (by decide) (by simp [initiativeTaskKeys]) (by decide) ?_
  simp

theorem value_artifact (row : TaskRow) : Value (fullText (artifactAppends row)) := by
  rw [fullText_artifact]
  refine value_objectOf (by decide) (by simp [artifactKeys]) (by decide) ?_
  simp

theorem value_heartbeat (row : Bytes × Heartbeat) : Value (fullText (heartbeatAppends row)) := by
  rw [fullText_heartbeat]
  refine value_objectOf (by decide) (by simp [heartbeatKeys]) (by decide) ?_
  simp

theorem value_milestone (row : Milestone × Nat) : Value (fullText (milestoneAppends row)) := by
  rw [fullText_milestone]
  refine value_objectOf (by decide) (by simp [milestoneKeys]) (by decide) ?_
  simp

end documents

section boards

variable {items : List (List Append)}

theorem isJson_newline {v : Bytes} (h : Value v) : IsJson (v ++ [newline]) :=
  ⟨[], v, [newline], by simp [White], by simp [White, isWhite, newline], h, by simp⟩

theorem value_items (h : ∀ item ∈ items, Value (fullText item)) :
    Value (arrayText (items.map fullText)) := by
  refine value_arrayText fun text htext => ?_
  obtain ⟨item, hitem, rfl⟩ := List.mem_map.mp htext
  exact (h item hitem).isJson

/-- A document with one array. -/
theorem isJson_listDocument {key : String} (hkey : isPlainName (bytes key) = true)
    (h : ∀ item ∈ items, Value (fullText item)) :
    IsJson (fullText ([Append.raw (123 :: (keyed "ok" ++ bytes "true" ++ nextKey key ++ [91]))] ++
      joined items ++ [Append.raw [93, 125, 10]])) := by
  have htext : fullText
      ([Append.raw (123 :: (keyed "ok" ++ bytes "true" ++ nextKey key ++ [91]))] ++
      joined items ++ [Append.raw [93, 125, 10]]) =
      objectOf ["ok", key] [bytes "true", arrayText (items.map fullText)] ++ [newline] := by
    simp [fullText_joined, arrayText, Append.text, newline]
  have hok : isPlainName (bytes "ok") = true := by decide
  rw [htext]
  refine isJson_newline (value_objectOf (by simp) (by simp) (by simp [hok, hkey]) ?_)
  simp [Value.true, value_items h]

theorem isJson_capacity (rows : List TaskRow) : IsJson (fullText (capacityAppends rows)) := by
  have htext : fullText (capacityAppends rows) =
      objectOf ["ok", "agents", "initiatives", "parents"] [bytes "true",
        arrayText (((capacityAgents rows).map (countAppends "agent")).map fullText),
        arrayText (((mostActive TaskRow.initiativeId rows).map
          (countAppends "initiativeId")).map fullText),
        arrayText (((mostActive TaskRow.parentTaskId rows).map
          (countAppends "parentTaskId")).map fullText)] := by
    simp [capacityAppends, fullText_joined, arrayText, Append.text, nextArray]
  have hcounts : ∀ (key : String) (entries : List (Bytes × Nat)), isPlainName (bytes key) = true →
      Value (arrayText ((entries.map (countAppends key)).map fullText)) := by
    intro key entries hkey
    refine value_items fun item hitem => ?_
    obtain ⟨row, -, rfl⟩ := List.mem_map.mp hitem
    exact value_count hkey row
  rw [htext]
  refine (value_objectOf (by decide) (by simp) (by decide) ?_).isJson
  simp only [List.forall_mem_cons, List.not_mem_nil, false_implies, implies_true, and_true]
  exact ⟨.true, hcounts _ _ (by decide), hcounts _ _ (by decide), hcounts _ _ (by decide)⟩

theorem isJson_initiative (initiativeId : Bytes) (summary : InitiativeSummary)
    (tasks : List TaskRow) :
    IsJson (fullText (initiativeDetailAppends initiativeId summary tasks)) := by
  have htext : fullText (initiativeDetailAppends initiativeId summary tasks) =
      objectOf ["ok", "initiative", "tasks"] [bytes "true",
        fullText (initiativeAppends (initiativeId, summary)),
        arrayText ((tasks.map initiativeTaskAppends).map fullText)] ++ [newline] := by
    rw [fullText_initiative]
    unfold initiativeDetailAppends summaryNumbers initiativeRowKeys
    simp (disch := (simp; grind [length_longText, length_intText])) only [snprintf_of_lt]
    simp [fullText_joined, arrayText, Append.text, newline]
  rw [htext]
  refine isJson_newline (value_objectOf (by decide) (by simp) (by decide) ?_)
  have htasks : Value (arrayText ((tasks.map initiativeTaskAppends).map fullText)) := by
    refine value_items fun item hitem => ?_
    obtain ⟨row, -, rfl⟩ := List.mem_map.mp hitem
    exact value_initiativeTask row
  simp only [List.forall_mem_cons, List.not_mem_nil, false_implies, implies_true, and_true]
  exact ⟨.true, value_initiative _, htasks⟩

theorem isJson_artifacts (initiativeId : Bytes) (rows : List TaskRow) :
    IsJson (fullText (artifactsAppends initiativeId rows)) := by
  have htext : fullText (artifactsAppends initiativeId rows) =
      objectOf ["ok", "initiativeId", "artifacts", "acceptedCount", "pendingCount"] [bytes "true",
        stringText initiativeId, arrayText ((rows.map artifactAppends).map fullText),
        intText (rows.countP isAccepted), intText (rows.countP fun row => !isAccepted row)] ++
        [newline] := by
    unfold artifactsAppends
    simp (disch := (simp; grind [length_intText])) only [snprintf_of_lt]
    simp [fullText_joined, arrayText, Append.text, newline]
  rw [htext]
  refine isJson_newline (value_objectOf (by decide) (by simp) (by decide) ?_)
  have hrows : Value (arrayText ((rows.map artifactAppends).map fullText)) := by
    refine value_items fun item hitem => ?_
    obtain ⟨row, -, rfl⟩ := List.mem_map.mp hitem
    exact value_artifact row
  simp only [List.forall_mem_cons, List.not_mem_nil, false_implies, implies_true, and_true]
  exact ⟨.true, value_stringText _, hrows, value_intText _, value_intText _⟩

/-- An array alone. -/
theorem isJson_array (h : ∀ item ∈ items, Value (fullText item)) :
    IsJson (fullText ([Append.raw [91]] ++ joined items ++ [Append.raw [93]])) := by
  have htext : fullText ([Append.raw [91]] ++ joined items ++ [Append.raw [93]]) =
      arrayText (items.map fullText) := by
    simp [fullText_joined, arrayText, Append.text]
  rw [htext]
  exact (value_items h).isJson

end boards

/-- The pages that read the projection. -/
inductive Board where
  | capacity
  | agents (nowUnixMs : Int)
  | initiatives
  | initiative (initiativeId : Bytes) (summary : InitiativeSummary) (tasks : List TaskRow)
  | artifacts (initiativeId : Bytes)
  | heartbeats
  | milestones (limit : Int)

def Board.appends (ledger : Ledger) : Board → List Append
  | capacity => capacityAppends (wtTaskProjectionRebuild ledger)
  | agents nowUnixMs => agentsAppends ledger nowUnixMs
  | initiatives => initiativesAppends ((initiativeList (wtTaskProjectionRebuild ledger)).getD [])
  | initiative initiativeId summary tasks => initiativeDetailAppends initiativeId summary tasks
  | artifacts initiativeId => artifactsAppends initiativeId
    (initiativeArtifacts (wtTaskProjectionRebuild ledger) initiativeId)
  | heartbeats => heartbeatsAppends ledger
  | milestones limit => milestonesAppends ledger limit

theorem Board.isJson (ledger : Ledger) (board : Board) :
    IsJson (fullText (board.appends ledger)) := by
  cases board with
  | capacity => exact isJson_capacity _
  | agents now =>
    refine isJson_listDocument (by decide) fun item hitem => ?_
    obtain ⟨agent, -, rfl⟩ := List.mem_map.mp hitem
    exact value_workload _
  | initiatives =>
    refine isJson_listDocument (by decide) fun item hitem => ?_
    obtain ⟨entry, -, rfl⟩ := List.mem_map.mp hitem
    exact value_initiative entry
  | initiative initiativeId summary tasks => exact isJson_initiative _ _ _
  | artifacts initiativeId => exact isJson_artifacts _ _
  | heartbeats =>
    refine isJson_array fun item hitem => ?_
    obtain ⟨row, -, rfl⟩ := List.mem_map.mp hitem
    exact value_heartbeat row
  | milestones limit =>
    refine isJson_array fun item hitem => ?_
    obtain ⟨row, -, rfl⟩ := List.mem_map.mp hitem
    exact value_milestone row

section agentsDocument

variable {ledger : Ledger} {now : Int} {agent : Bytes}

theorem escapeFits_of_length {text : Bytes} {size : Nat} (h : 6 * text.length < size) :
    EscapeFits text size :=
  lt_of_le_of_lt (length_escape_le text) h

theorem length_stringText_le (text : Bytes) : (stringText text).length ≤ 6 * text.length + 2 := by
  have := length_escape_le text
  simp only [stringText, List.length_cons, List.length_append, List.length_nil]
  omega

theorem length_orElse_lt {json : Bytes} {key : String} {size : Nat} (hsize : 0 < size) :
    ((wtJsonReadString json key size).orElse []).length < size := by
  rw [StringField.orElse_eq]
  cases hread : wtJsonReadString json key size with
  | ok text => exact wtJsonReadString_length hread
  | _ => exact hsize

/-- The texts of an agent's board are short. -/
theorem workload_short (ledger : Ledger) (now : Int) (agent : Bytes) :
    (agentWorkload ledger now agent).agent = agent ∧
      (agentWorkload ledger now agent).state.length < 32 ∧
      (agentWorkload ledger now agent).message.length < wtTaskTitleSize := by
  have htexts : (agentWorkload ledger now agent).agent = agent ∧
      (agentWorkload ledger now agent).message =
        ((((agentControls ledger).find? fun row => row.1 = agent).map Prod.snd).map
          AgentControlRow.message).getD [] := by
    unfold agentWorkload
    dsimp only
    split <;> exact ⟨rfl, rfl⟩
  refine ⟨htexts.1, ?_, ?_⟩
  · rw [boardState_eq]
    cases hlast : lastOf (valueFor (agentKey agentControlSchema) projectAgentControl agent)
        ledger with
    | none => decide
    | some control =>
      obtain ⟨line, -, rfl⟩ := lastOf_valueFor_iff.mp hlast
      rw [Option.map_some, Option.getD_some, projectAgentControl]
      dsimp only
      split <;> decide
  · rw [htexts.2]
    cases hfind : (agentControls ledger).find? fun row => row.1 = agent with
    | none => decide
    | some row =>
      have hmem := mem_scan_upserts.mp (List.mem_of_find?_eq_some hfind)
      obtain ⟨line, -, hline⟩ := lastOf_valueFor_iff.mp hmem
      rw [Option.map_some, Option.map_some, Option.getD_some, ← hline]
      exact length_orElse_lt (by decide)

theorem length_workload_le (hagent : agent.length < 16) :
    (fullText (workloadAppends (agentWorkload ledger now agent))).length < 2000 := by
  obtain ⟨hname, hstate, hmessage⟩ := workload_short ledger now agent
  have hagentText := length_stringText_le (agentWorkload ledger now agent).agent
  have hstateText := length_stringText_le (agentWorkload ledger now agent).state
  have hmessageText := length_stringText_le (agentWorkload ledger now agent).message
  rw [hname] at hagentText
  rw [fullText_workload, workloadKeys, hname]
  simp
  grind [length_longText, length_intText]

theorem workload_escapes (hagent : agent.length < 16) :
    ∀ a ∈ workloadAppends (agentWorkload ledger now agent), a.Escapes := by
  obtain ⟨hname, hstate, hmessage⟩ := workload_short ledger now agent
  have hfits : ∀ text : Bytes, text.length < wtTaskTitleSize →
      (Append.string text).Escapes := fun text htext =>
    escapeFits_of_length (by simp only [wtTaskTitleSize, wtTaskBodySize] at *; omega)
  rw [workloadAppends, hname]
  simp only [List.forall_mem_cons, List.not_mem_nil, false_implies, implies_true, and_true]
  exact ⟨trivial, hfits _ (by simp only [wtTaskTitleSize]; omega), trivial,
    hfits _ (by simp only [wtTaskTitleSize]; omega), trivial, hfits _ hmessage, trivial⟩

/-- The page of the agents fits its buffer. -/
theorem agents_fits (ledger : Ledger) (now : Int) {bufferSize : Nat}
    (h : wtTaskLedgerLineSize ≤ bufferSize) : Fits bufferSize (agentsAppends ledger now) := by
  have hclaude : (bytes "claude").length < 16 := by decide
  have hchatgpt : (bytes "chatgpt").length < 16 := by decide
  have hgemini : (bytes "gemini").length < 16 := by decide
  constructor
  · intro a ha
    simp only [agentsAppends, boardAgents, joined, List.map_cons, List.map_nil,
      List.intercalate_cons_cons, List.intercalate_singleton, List.mem_append,
      List.mem_singleton] at ha
    rcases ha with (rfl | (ha | rfl) | (ha | rfl) | ha) | rfl
    · trivial
    · exact workload_escapes hclaude a ha
    · trivial
    · exact workload_escapes hchatgpt a ha
    · trivial
    · exact workload_escapes hgemini a ha
    · trivial
  · have hfirst := @length_workload_le ledger now _ hclaude
    have hsecond := @length_workload_le ledger now _ hchatgpt
    have hthird := @length_workload_le ledger now _ hgemini
    simp only [wtTaskLedgerLineSize] at h
    simp [agentsAppends, boardAgents, fullText_joined, commaSeparated_cons, Append.text]
    omega

end agentsDocument

/-- **A page that fits its buffer is one JSON text, and the page of the agents fits it whatever the
ledger holds.** -/
theorem boards_read_whole (ledger : Ledger) (bufferSize : Nat) :
    (∀ board : Board, Fits bufferSize (board.appends ledger) →
      IsJson (writeAll bufferSize (board.appends ledger))) ∧
    (wtTaskLedgerLineSize ≤ bufferSize → ∀ now,
      IsJson (wtTaskProjectionReadAgentsJson ledger now bufferSize)) := by
  have hfits : ∀ board : Board, Fits bufferSize (board.appends ledger) →
      IsJson (writeAll bufferSize (board.appends ledger)) := by
    intro board h
    rw [writeAll_of_fits h]
    exact board.isJson ledger
  exact ⟨hfits, fun hsize now => hfits (.agents now) (agents_fits ledger now hsize)⟩

end WovenTeam

import Mathlib.Logic.Relation
import WovenTeam.Projection
import WovenTeam.Store.Lease

/-!
# What the ledger says about one task

The four views of a task that are folded from the ledger: its row of `tasks` and its rows of
`task_events` after `wtTaskProjectionRebuild`, its active lease, and whether a cancel is pending.
Each is a fold in which a line of another task, or of a schema none of them knows, changes nothing
(`taskView_filter`), so the views of a task depend on its own records and their order alone.
-/

namespace WovenTeam

open CText QuotedText FirstSeen

/-! ## Task events -/

/-- A row of `task_events`, less its `id`. -/
structure TaskEventRow where
  taskId : Bytes
  schema : Bytes
  eventType : Bytes
  status : Bytes
  assignedAgent : Bytes
  message : Bytes
  createdBy : Bytes
  createdAtMs : Int
  rawJson : Bytes
  deriving DecidableEq, Repr

/-- The task id as the projection reads it. -/
def recordTaskId (line : Bytes) : Bytes := (wtJsonReadString line "taskId" wtTaskIdSize).orElse []

/-- A text with the text of a second key in its place where it is empty. -/
def readEither (line : Bytes) (k k' : String) (size : Nat) : Bytes :=
  let text := (wtJsonReadString line k size).orElse []
  if text = [] then (wtJsonReadString line k' size).orElse [] else text

/-- The row the `INSERT` of `insertEvent` writes. -/
def taskEventRow (line : Bytes) (schema : String) : TaskEventRow where
  taskId := recordTaskId line
  schema := bytes schema
  eventType := (readEventFields line schema).eventType
  status := (readEventFields line schema).status
  assignedAgent := (readEventFields line schema).assignedAgent
  message := readEither line "message" "title" wtTaskBodySize
  createdBy := readEither line "createdBy" "requestedBy" wtTaskAgentSize
  createdAtMs := (readEventFields line schema).createdAtMs
  rawJson := line

/-- The dispatch of `wtTaskProjectionRebuild`, as far as it concerns `task_events`. -/
def insertedEvent (line : Bytes) : Option TaskEventRow :=
  if lineHasSchema line taskPackageSchema then none
  else if lineHasSchema line taskEventSchema then some (taskEventRow line taskEventSchema)
  else if lineHasSchema line taskRequestSchema then some (taskEventRow line taskRequestSchema)
  else none

/-- `task_events` after the rebuild, in the order of the ids. -/
def projectedEvents (ledger : Ledger) : List TaskEventRow :=
  (ledger.map stripLineEnd).filterMap insertedEvent

/-- The rows of a task. -/
def projectedEventsOf (ledger : Ledger) (taskId : Bytes) : List TaskEventRow :=
  (projectedEvents ledger).filter fun row => row.taskId == taskId

/-! ## Cancels -/

def killEventSchema : String := "woventeam.kill_event.v0.1"

/-- One line of the walk of `wtTaskCancelRequested`. -/
def cancelStep (taskId : Bytes) (cancelSeen : Bool) (line : Bytes) : Bool :=
  match wtJsonReadString line "schema" 128, wtJsonReadString line "taskId" wtTaskIdSize with
  | .ok schema, .ok eventTaskId =>
    if eventTaskId ≠ taskId then cancelSeen
    else if schema = bytes killEventSchema then true
    else if schema = bytes taskEventSchema then
      if wtJsonReadString line "eventType" 32 = .ok (bytes "lease") then false else cancelSeen
    else cancelSeen
  | _, _ => cancelSeen

def wtTaskCancelRequested (ledger : Ledger) (taskId : Bytes) : Bool :=
  ledger.foldl (cancelStep taskId) false

/-! ## The views of a task -/

structure TaskView where
  row : Option TaskRow
  events : List TaskEventRow
  lease : LeaseScan
  cancelRequested : Bool
  deriving DecidableEq

def taskView (ledger : Ledger) (taskId : Bytes) : TaskView where
  row := (wtTaskProjectionRebuild ledger).find? fun row => row.taskId == taskId
  events := projectedEventsOf ledger taskId
  lease := wtTaskFindActiveLease ledger taskId
  cancelRequested := wtTaskCancelRequested ledger taskId

/-- The sub-ledger of a task. -/
def taskRecords (taskId : Bytes) (ledger : Ledger) : Ledger :=
  ledger.filter fun line => recordTaskId line == taskId

/-- The schemas `wtTaskProjectionRebuild` knows. -/
def recognisedSchemas : List String :=
  [taskPackageSchema, taskEventSchema, taskRequestSchema, "woventeam.agent_control.v0.1",
    "woventeam.heartbeat.v0.1", "woventeam.milestone.v0.1", killEventSchema,
    "woventeam.deliverable.v0.1", "woventeam.secret_scan.v0.1"]

def isRecognised (line : Bytes) : Bool := recognisedSchemas.any (lineHasSchema line)

/-- A line that says nothing about the task. -/
def Inert (taskId line : Bytes) : Prop := recordTaskId line ≠ taskId ∨ isRecognised line = false

/-! ## Inert lines -/

section inert

variable {taskId line : Bytes}

theorem lineHasSchema_of_not_recognised {schema : String} (h : isRecognised line = false)
    (hs : schema ∈ recognisedSchemas) : lineHasSchema line schema = false :=
  Bool.eq_false_of_not_eq_true (List.any_eq_false.mp h schema hs)

theorem recordTaskId_of_lineTaskId (h : lineTaskId line = some taskId) :
    recordTaskId line = taskId := by
  rw [recordTaskId, StringField.orElse_eq]
  rw [lineTaskId] at h
  rw [h, Option.getD_some]

theorem recordTaskId_stripLineEnd (line : Bytes) :
    recordTaskId (stripLineEnd line) = recordTaskId line :=
  readString_orElse_stripLineEnd (by decide) line wtTaskIdSize []

theorem projectionKey_eq_some (h : projectionKey (stripLineEnd line) = some taskId) :
    recordTaskId line = taskId := by
  rw [← recordTaskId_stripLineEnd]
  unfold projectionKey at h
  dsimp only at h
  split at h
  · exact Option.some.inj h
  · split at h
    · cases h
    · exact Option.some.inj h

/-- A line without a schema of a package, an event or a request leaves every row as it is. -/
theorem projectLine_of_not_recognised (h : isRecognised line = false) (row : TaskRow) :
    projectLine (stripLineEnd line) row = row := by
  simp only [projectLine, lineHasSchema_stripLineEnd]
  rw [lineHasSchema_of_not_recognised h (by decide), lineHasSchema_of_not_recognised h (by decide),
    lineHasSchema_of_not_recognised h (by decide)]
  rfl

theorem row_inert (h : Inert taskId line) (row : Option TaskRow) :
    projectionTable.stateStep taskId row (stripLineEnd line) = row := by
  by_cases hkey : projectionKey (stripLineEnd line) = some taskId
  · have hnot := h.resolve_left fun hne => hne (projectionKey_eq_some hkey)
    cases row with
    | some row =>
      rw [projectionTable.stateStep_some hkey]
      exact congrArg some (projectLine_of_not_recognised hnot row)
    | none =>
      have hcreates : projectionTable.creates (stripLineEnd line) = false :=
        (lineHasSchema_stripLineEnd line _).trans (lineHasSchema_of_not_recognised hnot (by decide))
      rw [projectionTable.stateStep_none hkey, hcreates]
      rfl
  · exact projectionTable.stateStep_of_ne hkey row

theorem events_inert (h : Inert taskId line) :
    (insertedEvent (stripLineEnd line)).filter (fun row => row.taskId == taskId) = none := by
  rcases h with hne | hnot
  · have hid : (recordTaskId (stripLineEnd line) == taskId) = false := by
      rw [recordTaskId_stripLineEnd]
      exact beq_false_of_ne hne
    unfold insertedEvent
    split
    · rfl
    · split
      · exact Option.filter_some_neg (by simpa [taskEventRow] using hid)
      · split
        · exact Option.filter_some_neg (by simpa [taskEventRow] using hid)
        · rfl
  · simp only [insertedEvent, lineHasSchema_stripLineEnd]
    rw [lineHasSchema_of_not_recognised hnot (by decide),
      lineHasSchema_of_not_recognised hnot (by decide),
      lineHasSchema_of_not_recognised hnot (by decide)]
    rfl

theorem lease_inert (h : Inert taskId line) (s : LeaseScan) : s.step taskId line = s := by
  have hmark : leaseMark taskId line = none := by
    rw [← Option.not_isSome_iff_eq_none]
    intro hsome
    obtain ⟨hschema, hid⟩ := isSome_leaseMark hsome
    rcases h with hne | hnot
    · exact hne (recordTaskId_of_lineTaskId hid)
    · rw [lineHasSchema_of_not_recognised hnot (by decide)] at hschema
      cases hschema
  rw [LeaseScan.step, hmark]

theorem cancel_inert (h : Inert taskId line) (cancelSeen : Bool) :
    cancelStep taskId cancelSeen line = cancelSeen := by
  unfold cancelStep
  split
  · rename_i schema eventTaskId hschema hid
    split
    · rfl
    · rename_i heq
      have htask : recordTaskId line = taskId := by
        rw [recordTaskId, hid]
        exact not_not.mp heq
      have hnot := h.resolve_left fun hne => hne htask
      have hother : ∀ s ∈ recognisedSchemas, schema ≠ bytes s := by
        intro s hs heq
        have hline := lineHasSchema_of_not_recognised hnot hs
        rw [lineHasSchema, hschema, heq, beq_self_eq_true] at hline
        cases hline
      rw [if_neg (hother _ (by decide)), if_neg (hother _ (by decide))]
  · rfl

end inert

/-! ## Frame -/

/-- The row with that primary key is the task's row. -/
theorem find?_rebuild (ledger : Ledger) (taskId : Bytes) :
    (wtTaskProjectionRebuild ledger).find? (fun row => row.taskId == taskId) =
      projectedRow ledger taskId := by
  have hfound : ∀ row, (wtTaskProjectionRebuild ledger).find? (fun row => row.taskId == taskId) =
      some row → projectedRow ledger taskId = some row := by
    intro row hfind
    have hid : row.taskId = taskId := by simpa using List.find?_some hfind
    rw [← hid]
    exact mem_rebuild_iff.mp (List.mem_of_find?_eq_some hfind)
  cases hfind : (wtTaskProjectionRebuild ledger).find? fun row => row.taskId == taskId with
  | some row => exact (hfound row hfind).symm
  | none =>
    cases hrow : projectedRow ledger taskId with
    | none => rfl
    | some row =>
      have hid : row.taskId = taskId := projectionTable.idOf_stateOf hrow
      have hmem : row ∈ wtTaskProjectionRebuild ledger := by
        rw [mem_rebuild_iff, hid]
        exact hrow
      exact absurd (by simpa using hid) (List.find?_eq_none.mp hfind row hmem)

/-- **Inert lines may be left out.** -/
theorem taskView_filter {taskId : Bytes} {ledger : Ledger} {p : Bytes → Bool}
    (h : ∀ line ∈ ledger, p line = false → Inert taskId line) :
    taskView (ledger.filter p) taskId = taskView ledger taskId := by
  have hrow : projectedRow (ledger.filter p) taskId = projectedRow ledger taskId := by
    unfold projectedRow Table.stateOf
    rw [List.foldl_map, List.foldl_map]
    exact foldl_filter_of_inert (fun line hline hp => row_inert (h line hline hp)) none
  have hevents : projectedEventsOf (ledger.filter p) taskId = projectedEventsOf ledger taskId := by
    unfold projectedEventsOf projectedEvents
    rw [List.filterMap_map, List.filterMap_map, List.filter_filterMap, List.filter_filterMap,
      List.filterMap_filter]
    refine List.filterMap_congr fun line hline => ?_
    cases hp : p line with
    | true => rfl
    | false => exact (events_inert (h line hline hp)).symm
  have hlease : wtTaskFindActiveLease (ledger.filter p) taskId =
      wtTaskFindActiveLease ledger taskId :=
    foldl_filter_of_inert (fun line hline hp => lease_inert (h line hline hp)) {}
  have hcancel : wtTaskCancelRequested (ledger.filter p) taskId =
      wtTaskCancelRequested ledger taskId :=
    foldl_filter_of_inert (fun line hline hp => cancel_inert (h line hline hp)) false
  simp only [taskView, find?_rebuild, hrow, hevents, hlease, hcancel]

/-- What leaves the records of each task as they are, in their order: two neighbours of different
tasks change places, or a line without a recognised schema comes in. -/
inductive Rearranged : Ledger → Ledger → Prop where
  | swap (front back : Ledger) {line line' : Bytes} (h : recordTaskId line ≠ recordTaskId line') :
    Rearranged (front ++ line :: line' :: back) (front ++ line' :: line :: back)
  | insert (front back : Ledger) {line : Bytes} (h : isRecognised line = false) :
    Rearranged (front ++ back) (front ++ line :: back)

theorem taskView_records (taskId : Bytes) (ledger : Ledger) :
    taskView (taskRecords taskId ledger) taskId = taskView ledger taskId :=
  taskView_filter fun _ _ hp => .inl (by simpa using hp)

theorem taskView_rearranged {ledger ledger' : Ledger} (h : Rearranged ledger ledger')
    (taskId : Bytes) : taskView ledger' taskId = taskView ledger taskId := by
  cases h with
  | swap front back hne =>
    rename_i line line'
    have hrecords : taskRecords taskId (front ++ line' :: line :: back) =
        taskRecords taskId (front ++ line :: line' :: back) := by
      unfold taskRecords
      rw [List.filter_append, List.filter_append]
      congr 1
      by_cases hline : recordTaskId line = taskId
      · have hline' : recordTaskId line' ≠ taskId := fun h' => hne (hline.trans h'.symm)
        simp [hline, hline']
      · simp [List.filter_cons, hline]
    rw [← taskView_records, hrecords, taskView_records]
  | insert front back hnot =>
    have hlast : ∀ ledger : Ledger,
        taskView (ledger.filter isRecognised) taskId = taskView ledger taskId :=
      fun ledger => taskView_filter fun _ _ hp => .inr hp
    rw [← hlast, ← hlast (front ++ back)]
    simp [hnot]

end WovenTeam

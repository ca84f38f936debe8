import WovenTeam.Agent.Wait
import WovenTeam.Appends
import WovenTeam.Autonomy
import WovenTeam.Starvation

/-!
# Adapters

What an agent does with a task it has leased (`handleAssignedTask` from there on): it runs the
vendor's command in a process of its own, by `runCodexAdapter` or `runCliArtifactAdapter`, or, where
no adapter is enabled, settles the task at once. The two functions differ in their texts and in the
arguments of the command and are one definition here.

The records go to the ledger, and so do those of everybody else in the meantime: what others append
before each of the agent's own appends is part of `AdapterWorld`, with the clock and the outcome of
each system call.
-/

namespace WovenTeam

open CText QuotedText FirstSeen

inductive Adapter where
  /-- `runCodexAdapter` -/
  | codex
  /-- `runCliArtifactAdapter` -/
  | cli (name command : Bytes)
  deriving DecidableEq, Repr

def Adapter.name : Adapter → Bytes
  | codex => bytes "codex"
  | cli name _ => name

/-- The adapter's name in messages. -/
def Adapter.title : Adapter → Bytes
  | codex => bytes "Codex"
  | cli name _ => name

def Adapter.commandClass : Adapter → Bytes
  | codex => bytes "codex-cli"
  | cli name _ => snprintf 128 (name ++ bytes "-cli")

def isCodexEligibleTask (config : WtConfig) (agentName : Bytes) (task : WtTaskSummary) : Bool :=
  config.enableCodexAdapter && agentName == bytes "chatgpt" &&
    (task.toolProfile == bytes "repo_branch" || task.toolProfile == bytes "test_local") &&
    (task.modelId == [] || (bytes "openai/").isPrefixOf task.modelId)

def isCliArtifactEligibleTask (config : WtConfig) (agentName : Bytes) (task : WtTaskSummary) :
    Bool :=
  if agentName = bytes "claude" then
    config.enableClaudeAdapter && config.claudeMode.text == bytes "adapter" &&
      (task.modelId == [] || (bytes "anthropic/").isPrefixOf task.modelId)
  else if agentName = bytes "gemini" then
    config.enableGeminiAdapter && config.geminiMode.text == bytes "adapter" &&
      (task.modelId == [] || (bytes "google/").isPrefixOf task.modelId)
  else false

/-- The adapter `handleAssignedTask` runs. -/
def adapterFor (config : WtConfig) (agentName : Bytes) (task : WtTaskSummary) : Option Adapter :=
  if isCodexEligibleTask config agentName task then some .codex
  else if isCliArtifactEligibleTask config agentName task then
    if agentName = bytes "claude" then some (.cli (bytes "claude") config.claudeCommand.text)
    else some (.cli (bytes "gemini") config.geminiCommand.text)
  else none

/-! ## The command -/

def workspaceOf (config : WtConfig) (task : WtTaskSummary) : Bytes :=
  snprintf 512 (config.runtimeRootPath.text ++ bytes "/" ++ task.taskId)

def promptIntroduction (agentName : Bytes) : Adapter → Bytes
  | .codex => bytes "You are a WovenTeam Codex adapter worker running in an isolated " ++
    bytes "per-task workspace."
  | .cli name _ => bytes "You are WovenTeam agent " ++ agentName ++ bytes " running the " ++ name ++
    bytes " artifact adapter."

def promptClosing : Adapter → Bytes
  | .codex => bytes "Write your final result as a concise implementation/report note. " ++
    bytes "Do not modify the WovenTeam repository from this adapter workspace."
  | .cli _ _ => bytes "Produce a concise result artifact. Do not modify the WovenTeam repository."

def adapterPrompt (a : Adapter) (agentName : Bytes) (task : WtTaskSummary) : Bytes :=
  snprintf 4096 (promptIntroduction agentName a ++ bytes "\n\nTask ID: " ++ task.taskId ++
    bytes "\nRole: " ++ task.assignedRole ++ bytes "\nTool policy: " ++ task.toolProfile ++
    bytes "\n\nTask title: " ++ task.title ++ bytes "\n\nTask body:\n" ++ task.body ++
    bytes "\n\n" ++ promptClosing a)

/-- The arguments of `execvp` and `execlp`. -/
def Adapter.arguments (a : Adapter) (config : WtConfig) (agentName : Bytes) (task : WtTaskSummary)
    (elevated : Bool) : List Bytes :=
  let prompt := adapterPrompt a agentName task
  match a with
  | codex =>
    [config.gptCommand.text, bytes "exec", bytes "--ephemeral", bytes "--skip-git-repo-check",
      bytes "--cd", workspaceOf config task] ++
    (if elevated then [bytes "--dangerously-bypass-approvals-and-sandbox"]
      else [bytes "--sandbox", bytes "workspace-write"]) ++
    [bytes "--output-last-message",
      snprintf 768 (workspaceOf config task ++ bytes "/result.md"), prompt]
  | cli name command =>
    if name = bytes "claude" then
      [command] ++ (if elevated then [bytes "--dangerously-skip-permissions"] else []) ++
        [bytes "--bare", bytes "--print", prompt]
    else if name = bytes "gemini" then
      [command, bytes "--skip-trust", bytes "--approval-mode",
        if elevated then bytes "yolo" else bytes "plan", bytes "--output-format", bytes "text",
        bytes "--prompt", prompt]
    else [command, prompt]

/-- The seconds an adapter may run. -/
def adapterTimeout (config : WtConfig) (task : WtTaskSummary) : Int :=
  positiveOr (positiveOr task.timeoutSeconds config.adapterTimeoutSeconds) 1800

/-! ## The outcome -/

/-- What is recorded of a run that has ended. -/
structure Settled where
  exitCode : Fin 256
  timedOut : Bool
  cancelled : Bool
  deriving DecidableEq, Repr

/-- Nothing is recorded where `waitpid` failed. -/
def settle : WaitEnd → Option Settled
  | .done exitCode => some ⟨exitCode.getD 125, false, false⟩
  | .timedOut => some ⟨124, true, false⟩
  | .cancelled => some ⟨130, false, true⟩
  | .lost => none

def Settled.finalStatus (s : Settled) : String :=
  if s.cancelled then "cancelled" else if s.exitCode = 0 then "complete" else "failed"

def Settled.retryCause (s : Settled) : Bytes :=
  if s.cancelled then bytes "operator_cancel"
  else if s.exitCode ≠ 0 then
    if s.timedOut then bytes "timeout"
    else if s.exitCode = 127 then bytes "adapter_unavailable" else bytes "exit_nonzero"
  else []

def Adapter.runningMessage (a : Adapter) (task : WtTaskSummary) : Bytes :=
  snprintf 512 (a.title ++ bytes " adapter started for taskId=" ++ task.taskId)

def Adapter.eventMessage (a : Adapter) (s : Settled) : Bytes :=
  snprintf 1024 (a.title ++ bytes " adapter exitCode=" ++ decimal (s.exitCode : Nat) ++
    bytes " timedOut=" ++ boolText s.timedOut ++ bytes " cancelled=" ++ boolText s.cancelled ++
    bytes "; see task workspace manifest.")

/-! ## A run -/

/-- What happens around an adapter's run: the lines others append before each append of the
agent's own, the clock at each of them, and how the system calls come out. -/
structure AdapterWorld where
  /-- The workspace and the prompt's file are made. -/
  prepared : Bool
  beforeInvocation : Ledger
  checkedAt : Int
  worktreeClean : Bool
  invokedAt : Long
  beforeRunning : Ledger
  runningAt : Long
  forked : Bool
  start : Int
  looks : List Look
  beforeSettled : Ledger
  settledAt : Long
  beforeExit : Ledger
  exitedAt : Long

/-- What others append. -/
def AdapterWorld.others (world : AdapterWorld) : Ledger :=
  world.beforeInvocation ++ world.beforeRunning ++
    world.looks.flatMap (fun l => l.heard ++ l.between) ++ world.beforeSettled ++ world.beforeExit

def actorName (agentName : Bytes) : Bytes := snprintf 128 (bytes "wt-agent@" ++ agentName)

/-- The wait of an adapter's run. -/
def AdapterWorld.waiting (world : AdapterWorld) (config : WtConfig) (agentName : Bytes)
    (task : WtTaskSummary) : AdapterWait where
  config
  agentName
  taskId := task.taskId
  start := world.start
  timeoutSeconds := adapterTimeout config task

/-- The run up to the start of the process: the decision about its permissions, and the ledger. -/
def startAdapter (a : Adapter) (config : WtConfig) (agentName : Bytes) (task : WtTaskSummary)
    (world : AdapterWorld) (ledger : Ledger) : AutonomyDecision × Ledger :=
  let ledger := ledger ++ world.beforeInvocation
  let decision := autonomyGrantActive config agentName ledger task a.name (world.checkedAt * 1000)
    world.worktreeClean
  let action := if decision.active then bytes "adapter_invocation_elevated"
    else bytes "adapter_invocation"
  let ledger := (wtTaskAppendAutonomyEvent ledger task.taskId (actorName agentName) a.name action
    a.commandClass decision.level decision.reason decision.active (-1) world.invokedAt).getD ledger
  let ledger := ledger ++ world.beforeRunning
  (decision, (wtTaskAppendStatusEvent ledger task.taskId (bytes "running") (actorName agentName)
    (a.runningMessage task) world.runningAt).getD ledger)

/-- The records of a run that has ended. -/
def recordSettled (a : Adapter) (agentName : Bytes) (task : WtTaskSummary) (world : AdapterWorld)
    (decision : AutonomyDecision) (ledger : Ledger) (s : Settled) : Ledger :=
  let ledger := ledger ++ world.beforeSettled
  let ledger := (wtTaskAppendStatusEventWithCause ledger task.taskId (bytes s.finalStatus)
    (actorName agentName) (a.eventMessage s) s.retryCause world.settledAt).getD ledger
  let ledger := ledger ++ world.beforeExit
  let action := if decision.active then bytes "adapter_exit_elevated" else bytes "adapter_exit"
  (wtTaskAppendAutonomyEvent ledger task.taskId (actorName agentName) a.name action a.commandClass
    decision.level decision.reason decision.active (s.exitCode : Nat) world.exitedAt).getD ledger

/-- `runCodexAdapter` and `runCliArtifactAdapter`: the ledger, and what was recorded in the end. -/
def runAdapter (a : Adapter) (config : WtConfig) (agentName : Bytes) (task : WtTaskSummary)
    (world : AdapterWorld) (ledger : Ledger) : Ledger × Option Settled :=
  if !world.prepared then (ledger, none)
  else
    let started := startAdapter a config agentName task world ledger
    if !world.forked then (started.2, none)
    else
      let p := world.waiting config agentName task
      match waitForAdapterChild p (p.initial started.2) world.looks with
      | .waits w => (w.ledger, none)
      | .ends w e =>
        match settle e with
        | none => (w.ledger, none)
        | some s => (recordSettled a agentName task world started.1 w.ledger s, some s)

/-! ## The agent's work on a leased task -/

/-- The world of `handleAssignedTask` behind its lease. -/
structure AgentWorld where
  beforeObserved : Ledger
  observedAt : Long
  adapter : AdapterWorld
  beforeStart : Ledger
  startedAt : Long
  /-- The room's log takes the message about the start. -/
  startPosted : Bool
  beforeComplete : Ledger
  completedAt : Long

def AgentWorld.others (world : AgentWorld) : Ledger :=
  world.beforeObserved ++ world.adapter.others ++ world.beforeStart ++ world.beforeComplete

/-- The stub path: no adapter is enabled, the task is settled at once. -/
def runStub (agentName : Bytes) (task : WtTaskSummary) (world : AgentWorld) (ledger : Ledger) :
    Ledger :=
  let ledger := ledger ++ world.beforeStart
  match wtTaskAppendStatusEvent ledger task.taskId (bytes "running") (actorName agentName)
      (bytes "Stub agent accepted assigned task.") world.startedAt with
  | none => ledger
  | some started =>
    if !world.startPosted then started
    else
      let ledger := started ++ world.beforeComplete
      (wtTaskAppendStatusEvent ledger task.taskId (bytes "complete") (actorName agentName)
        (bytes "Stub agent completed the assignment path without harness execution.")
        world.completedAt).getD ledger

/-- The record of a task that is claimed under the autonomous level. -/
def observeGrant (config : WtConfig) (agentName : Bytes) (world : AgentWorld) (task : WtTaskSummary)
    (ledger : Ledger) : Ledger :=
  let level := effectiveAutonomyLevel config agentName task
  let ledger := ledger ++ world.beforeObserved
  if level = bytes "autonomous" then
    (wtTaskAppendAutonomyEvent ledger task.taskId (actorName agentName) agentName
      (bytes "grant_observed") (bytes "task-claim") level
      (bytes "agent claim entered autonomous policy path") true (-1) world.observedAt).getD ledger
  else ledger

/-- `handleAssignedTask` from its lease on. -/
def agentWork (config : WtConfig) (agentName : Bytes) (world : AgentWorld) (task : WtTaskSummary)
    (ledger : Ledger) : Ledger :=
  let ledger := observeGrant config agentName world task ledger
  match adapterFor config agentName task with
  | some a => (runAdapter a config agentName task world.adapter ledger).1
  | none => runStub agentName task world ledger

/-! ## What is appended -/

/-- The ledger has grown by lines that satisfy `P`. -/
def GrowsBy (P : Bytes → Prop) (ledger after : Ledger) : Prop :=
  ∃ lines, after = ledger ++ lines ∧ ∀ line ∈ lines, P line

section growsBy

variable {P : Bytes → Prop} {ledger ledger' after : Ledger}

theorem GrowsBy.refl (P : Bytes → Prop) (ledger : Ledger) : GrowsBy P ledger ledger :=
  ⟨[], (List.append_nil ledger).symm, by simp⟩

theorem GrowsBy.trans (h : GrowsBy P ledger ledger') (h' : GrowsBy P ledger' after) :
    GrowsBy P ledger after := by
  obtain ⟨lines, rfl, hlines⟩ := h
  obtain ⟨lines', rfl, hlines'⟩ := h'
  refine ⟨lines ++ lines', List.append_assoc .., fun line hline => ?_⟩
  rcases List.mem_append.mp hline with hline | hline
  · exact hlines line hline
  · exact hlines' line hline

/-- What others append. -/
theorem GrowsBy.heard {lines : Ledger} (h : GrowsBy P ledger after)
    (hlines : ∀ line ∈ lines, P line) : GrowsBy P ledger (after ++ lines) :=
  h.trans ⟨lines, rfl, hlines⟩

/-- An event that may fail to be recorded. -/
theorem GrowsBy.record (h : GrowsBy P ledger after) (event : StoreEvent)
    (hevent : P (fieldsLine event.fields)) :
    GrowsBy P ledger ((event.append after).getD after) := by
  refine h.trans ?_
  cases happend : event.append after with
  | none => exact .refl P after
  | some recorded =>
    rw [Option.getD_some, event.append_eq happend]
    exact ⟨[_], rfl, by simpa using hevent⟩

theorem GrowsBy.mono {Q : Bytes → Prop} (h : GrowsBy P ledger after)
    (himp : ∀ line, P line → Q line) : GrowsBy Q ledger after := by
  obtain ⟨lines, rfl, hlines⟩ := h
  exact ⟨lines, rfl, fun line hline => himp line (hlines line hline)⟩

end growsBy

/-- The events an agent records while it works on a task. -/
def StoreEvent.IsWorkOn (taskId : Bytes) : StoreEvent → Prop
  | status id _ _ _ _ _ | leaseRenewal id _ _ _ _ | autonomy id _ _ _ _ _ _ _ _ _ => id = taskId
  | _ => False

/-- The lines others append, and those of the work on a task. -/
def WorkLine (others : Ledger) (taskId line : Bytes) : Prop :=
  line ∈ others ∨ ∃ event : StoreEvent, event.IsWorkOn taskId ∧ line = fieldsLine event.fields

theorem StoreEvent.IsWorkOn.workLine {event : StoreEvent} {taskId : Bytes}
    (h : event.IsWorkOn taskId) (others : Ledger) :
    WorkLine others taskId (fieldsLine event.fields) := .inr ⟨event, h, rfl⟩

section grows

variable {config : WtConfig} {agentName taskId : Bytes} {task : WtTaskSummary} {others : Ledger}

/-- The ledger when a wait goes on or ends. -/
def Looked.ledger : Looked → Ledger
  | waits w => w.ledger
  | ends w _ => w.ledger

theorem look_grows {p : AdapterWait} {w : Wait} {l : Look}
    (hothers : ∀ line ∈ l.heard ++ l.between, line ∈ others) :
    GrowsBy (WorkLine others p.taskId) w.ledger (p.look w l).ledger := by
  have hheard : GrowsBy (WorkLine others p.taskId) w.ledger (w.ledger ++ l.heard) :=
    ⟨_, rfl, fun line hline => .inl (hothers line (List.mem_append_left _ hline))⟩
  unfold AdapterWait.look
  dsimp only
  split
  · exact hheard
  · exact hheard
  · split
    · exact hheard
    · split
      · exact hheard
      · split
        · let renewal : StoreEvent := .leaseRenewal p.taskId p.agentName ⟨1, by decide⟩
            ⟨leaseExpiry (l.now * 1000) p.config.leaseDurationSeconds, int64_wrap64 _⟩ l.renewedAt
          have hrenewal : renewal.IsWorkOn p.taskId := rfl
          refine GrowsBy.record (hheard.heard fun line hline => ?_) renewal
            (hrenewal.workLine others)
          exact .inl (hothers line (List.mem_append_right _ hline))
        · exact hheard

theorem wait_grows {p : AdapterWait} {w : Wait} {looks : List Look}
    (hothers : ∀ l ∈ looks, ∀ line ∈ l.heard ++ l.between, line ∈ others) :
    GrowsBy (WorkLine others p.taskId) w.ledger (waitForAdapterChild p w looks).ledger := by
  induction looks generalizing w with
  | nil => exact .refl _ _
  | cons l looks ih =>
    have hlook := look_grows (p := p) (w := w) (hothers l List.mem_cons_self)
    unfold waitForAdapterChild
    cases hnext : p.look w l with
    | waits w' =>
      rw [hnext] at hlook
      exact hlook.trans (ih fun l' hl' => hothers l' (List.mem_cons_of_mem l hl'))
    | ends w' e =>
      rw [hnext] at hlook
      exact hlook

/-- The two records in front of the adapter's process. -/
theorem startAdapter_grows {a : Adapter} {world : AdapterWorld} {ledger : Ledger}
    (hothers : ∀ line ∈ world.beforeInvocation ++ world.beforeRunning, line ∈ others) :
    GrowsBy (WorkLine others task.taskId) ledger
      (startAdapter a config agentName task world ledger).2 := by
  unfold startAdapter
  dsimp only
  generalize autonomyGrantActive config agentName (ledger ++ world.beforeInvocation) task a.name
    (world.checkedAt * 1000) world.worktreeClean = decision
  let invocation : StoreEvent := .autonomy task.taskId (actorName agentName) a.name
    (if decision.active then bytes "adapter_invocation_elevated" else bytes "adapter_invocation")
    a.commandClass decision.level decision.reason decision.active ⟨-1, by decide⟩ world.invokedAt
  let running : StoreEvent := .status task.taskId (bytes "running") (actorName agentName)
    (a.runningMessage task) [] world.runningAt
  have hinvocation : invocation.IsWorkOn task.taskId := rfl
  have hrunning : running.IsWorkOn task.taskId := rfl
  refine GrowsBy.record (GrowsBy.heard (GrowsBy.record (GrowsBy.heard (.refl _ _) ?_) invocation
    (hinvocation.workLine others)) ?_) running (hrunning.workLine others)
  · exact fun line hline => .inl (hothers line (List.mem_append_left _ hline))
  · exact fun line hline => .inl (hothers line (List.mem_append_right _ hline))

theorem exitCode_range (s : Settled) : Int64 (s.exitCode : Nat) := by
  have := s.exitCode.isLt
  unfold Int64
  omega

theorem recordSettled_grows {a : Adapter} {world : AdapterWorld} {decision : AutonomyDecision}
    {ledger : Ledger} {s : Settled}
    (hothers : ∀ line ∈ world.beforeSettled ++ world.beforeExit, line ∈ others) :
    GrowsBy (WorkLine others task.taskId) ledger
      (recordSettled a agentName task world decision ledger s) := by
  unfold recordSettled
  dsimp only
  let settled : StoreEvent := .status task.taskId (bytes s.finalStatus) (actorName agentName)
    (a.eventMessage s) s.retryCause world.settledAt
  let exit : StoreEvent := .autonomy task.taskId (actorName agentName) a.name
    (if decision.active then bytes "adapter_exit_elevated" else bytes "adapter_exit")
    a.commandClass decision.level decision.reason decision.active
    ⟨(s.exitCode : Nat), exitCode_range s⟩ world.exitedAt
  have hsettled : settled.IsWorkOn task.taskId := rfl
  have hexit : exit.IsWorkOn task.taskId := rfl
  refine GrowsBy.record (GrowsBy.heard (GrowsBy.record (GrowsBy.heard (.refl _ _) ?_) settled
    (hsettled.workLine others)) ?_) exit (hexit.workLine others)
  · exact fun line hline => .inl (hothers line (List.mem_append_left _ hline))
  · exact fun line hline => .inl (hothers line (List.mem_append_right _ hline))

theorem runAdapter_grows {a : Adapter} {world : AdapterWorld} {ledger : Ledger}
    (hothers : ∀ line ∈ world.others, line ∈ others) :
    GrowsBy (WorkLine others task.taskId) ledger
      (runAdapter a config agentName task world ledger).1 := by
  have hstart : GrowsBy (WorkLine others task.taskId) ledger
      (startAdapter a config agentName task world ledger).2 :=
    startAdapter_grows fun line hline => hothers line (by
      simp only [AdapterWorld.others, List.mem_append] at hline ⊢
      tauto)
  have hwait : ∀ w, GrowsBy (WorkLine others task.taskId) w.ledger
      (waitForAdapterChild (world.waiting config agentName task) w world.looks).ledger := by
    refine fun w => wait_grows fun l hl line hline => hothers line ?_
    have hmem : line ∈ world.looks.flatMap fun l => l.heard ++ l.between :=
      List.mem_flatMap.mpr ⟨l, hl, hline⟩
    simp only [AdapterWorld.others, List.mem_append]
    tauto
  have hsettled : ∀ decision ledger s, GrowsBy (WorkLine others task.taskId) ledger
      (recordSettled a agentName task world decision ledger s) := by
    refine fun decision ledger s => recordSettled_grows fun line hline => hothers line ?_
    simp only [AdapterWorld.others, List.mem_append] at hline ⊢
    tauto
  unfold runAdapter
  split
  · exact .refl _ _
  · dsimp only
    split
    · exact hstart
    · have hwaited := hstart.trans (hwait ((world.waiting config agentName task).initial
        (startAdapter a config agentName task world ledger).2))
      split
      · rename_i w hlooks
        rw [hlooks] at hwaited
        exact hwaited
      · rename_i w e hlooks
        rw [hlooks] at hwaited
        split
        · exact hwaited
        · exact hwaited.trans (hsettled _ _ _)

theorem runStub_grows {world : AgentWorld} {ledger : Ledger}
    (hothers : ∀ line ∈ world.beforeStart ++ world.beforeComplete, line ∈ others) :
    GrowsBy (WorkLine others task.taskId) ledger (runStub agentName task world ledger) := by
  have hstart : GrowsBy (WorkLine others task.taskId) ledger (ledger ++ world.beforeStart) :=
    ⟨_, rfl, fun line hline => .inl (hothers line (List.mem_append_left _ hline))⟩
  let started : StoreEvent := .status task.taskId (bytes "running") (actorName agentName)
    (bytes "Stub agent accepted assigned task.") [] world.startedAt
  let completed : StoreEvent := .status task.taskId (bytes "complete") (actorName agentName)
    (bytes "Stub agent completed the assignment path without harness execution.") []
    world.completedAt
  have hstarted : started.IsWorkOn task.taskId := rfl
  have hcompleted : completed.IsWorkOn task.taskId := rfl
  unfold runStub
  dsimp only
  split
  · exact hstart
  · rename_i ledger' happend
    have hgrown := hstart.record started (hstarted.workLine others)
    rw [show started.append (ledger ++ world.beforeStart) = some ledger' from happend,
      Option.getD_some] at hgrown
    split
    · exact hgrown
    · refine GrowsBy.record (hgrown.heard fun line hline => ?_) completed
        (hcompleted.workLine others)
      exact .inl (hothers line (List.mem_append_right _ hline))

theorem observeGrant_grows {world : AgentWorld} {ledger : Ledger}
    (hothers : ∀ line ∈ world.beforeObserved, line ∈ others) :
    GrowsBy (WorkLine others task.taskId) ledger
      (observeGrant config agentName world task ledger) := by
  have hheard : GrowsBy (WorkLine others task.taskId) ledger (ledger ++ world.beforeObserved) :=
    ⟨_, rfl, fun line hline => .inl (hothers line hline)⟩
  let observed : StoreEvent := .autonomy task.taskId (actorName agentName) agentName
    (bytes "grant_observed") (bytes "task-claim") (effectiveAutonomyLevel config agentName task)
    (bytes "agent claim entered autonomous policy path") true ⟨-1, by decide⟩ world.observedAt
  have hobserved : observed.IsWorkOn task.taskId := rfl
  unfold observeGrant
  dsimp only
  split
  · exact hheard.record observed (hobserved.workLine others)
  · exact hheard

/-- **What an agent appends for a leased task, between the lines of others, are status events,
renewals and autonomy records of that task.** -/
theorem agentWork_grows (config : WtConfig) (agentName : Bytes) (world : AgentWorld)
    (task : WtTaskSummary) (ledger : Ledger) :
    GrowsBy (WorkLine world.others task.taskId) ledger
      (agentWork config agentName world task ledger) := by
  have hothers : ∀ line ∈ world.beforeObserved ++ world.adapter.others ++ world.beforeStart ++
      world.beforeComplete, line ∈ world.others := fun line hline => hline
  simp only [List.mem_append] at hothers
  have hobserved : GrowsBy (WorkLine world.others task.taskId) ledger
      (observeGrant config agentName world task ledger) :=
    observeGrant_grows fun line hline => hothers line (.inl (.inl (.inl hline)))
  unfold agentWork
  dsimp only
  split
  · exact hobserved.trans (runAdapter_grows fun line hline => hothers line (by tauto))
  · refine hobserved.trans (runStub_grows fun line hline => hothers line ?_)
    rw [List.mem_append] at hline
    tauto

end grows

/-! ## The records of a run -/

section records

variable {taskId line : Bytes} {event : StoreEvent}

/-- An autonomy record is an event of no task. -/
theorem autonomy_bystander {id actor target action commandClass autonomyLevel reason : Bytes}
    {allowed : Bool} {exitCode now : Long} (taskId : Bytes) :
    Bystander taskId (fieldsLine (StoreEvent.autonomy id actor target action commandClass
      autonomyLevel reason allowed exitCode now).fields) := by
  let event : StoreEvent := .autonomy id actor target action commandClass autonomyLevel reason
    allowed exitCode now
  have hschema : wtJsonReadString (fieldsLine event.fields) "schema" 128 =
      .ok (bytes autonomyEventSchema) :=
    (event.readString ⟨by decide, by decide, by decide, by decide⟩ rfl 128).trans (by decide)
  intro _
  constructor
  · rw [lineHasSchema, hschema]
    decide
  · rw [lineHasSchema, hschema]
    decide

/-- An event of a task whose id is read back is none of another task. -/
theorem bystander_of_other {id : Bytes} (hevent : event.field "taskId" = some (.text id))
    (hid : Decodes id) (hne : id ≠ taskId) : Bystander taskId (fieldsLine event.fields) := by
  intro htask
  have hread := StoreEvent.readString ⟨by decide, by decide, by decide, by decide⟩ hevent
    wtTaskIdSize
  rw [lineTaskId, hread, readString_text _ (by decide), reread_eq_self_iff.mpr hid] at htask
  split at htask
  · exact absurd (Option.some.inj htask) hne
  · cases htask

theorem StoreEvent.IsWorkOn.bystander {id : Bytes} (h : event.IsWorkOn id) (hid : Decodes id)
    (hne : id ≠ taskId) : Bystander taskId (fieldsLine event.fields) := by
  refine bystander_of_other ?_ hid hne
  cases event <;> simp only [StoreEvent.IsWorkOn] at h <;> subst h <;>
    simp +decide [StoreEvent.field, fieldNamed, StoreEvent.fields]

/-- A status event is recorded where its texts fit. -/
theorem status_recorded (ledger : Ledger) (now : Long) (hid : Recordable taskId) {status : String}
    {createdBy message retryCause : Bytes}
    (hstatus : (FieldValue.text (bytes status)).readString wtTaskStatusSize = .ok (bytes status))
    (hstatusFits : EscapeFits (bytes status) (wtTaskStatusSize * 2))
    (hby : EscapeFits createdBy (wtTaskAgentSize * 2)) (hmessage : EscapeFits message 1024)
    (hcause : EscapeFits retryCause 64) :
    ∃ line, wtTaskAppendStatusEventWithCause ledger taskId (bytes status) createdBy message
        retryCause now = some (ledger ++ [line]) ∧ EventLine taskId "status" status line := by
  let event : StoreEvent := .status taskId (bytes status) createdBy message retryCause now
  obtain ⟨a, ha⟩ := wtJsonEscape_of_fits hid.fits
  obtain ⟨b, hb⟩ := wtJsonEscape_of_fits hstatusFits
  obtain ⟨c, hc⟩ := wtJsonEscape_of_fits hby
  obtain ⟨d, hd⟩ := wtJsonEscape_of_fits hmessage
  obtain ⟨e, he⟩ := wtJsonEscape_of_fits hcause
  obtain ⟨ledger', happend⟩ : ∃ ledger', event.append ledger = some ledger' := by
    by_cases hnil : retryCause = [] <;>
    simp [event, StoreEvent.append, wtTaskAppendStatusEventWithCause, ha, hb, hc, hd, he, hnil]
  have hfields : EventFieldsAre event taskId "status" status := by
    constructor <;> by_cases hnil : retryCause = [] <;>
      simp +decide [event, StoreEvent.field, fieldNamed, StoreEvent.fields, hnil]
  refine ⟨fieldsLine event.fields, ?_, hfields.reads hid (by decide) hstatus⟩
  rw [← event.append_eq happend]
  exact happend

end records

/-! ## The end of a run -/

section finish

variable {taskId line : Bytes} {ledger after : Ledger}

theorem activeLease_append_bystander (ledger : Ledger) (h : Bystander taskId line) :
    wtTaskFindActiveLease (ledger ++ [line]) taskId = wtTaskFindActiveLease ledger taskId := by
  have hmark : leaseMark taskId line = none := by
    rw [← Option.not_isSome_iff_eq_none]
    intro hsome
    obtain ⟨hschema, hid⟩ := isSome_leaseMark hsome
    rw [(h hid).2] at hschema
    cases hschema
  rw [wtTaskFindActiveLease_append, LeaseScan.step, hmark]

theorem GrowsBy.lastStatus_eq (h : GrowsBy (Bystander taskId) ledger after) :
    lastStatus after taskId = lastStatus ledger taskId := by
  obtain ⟨lines, rfl, hlines⟩ := h
  induction lines using List.reverseRecOn with
  | nil => rw [List.append_nil]
  | append_singleton lines line ih =>
    rw [← List.append_assoc, lastStatus_append_bystander _ (hlines line (by simp))]
    exact ih fun l hl => hlines l (List.mem_append_left _ hl)

theorem GrowsBy.activeLease_eq (h : GrowsBy (Bystander taskId) ledger after) :
    wtTaskFindActiveLease after taskId = wtTaskFindActiveLease ledger taskId := by
  obtain ⟨lines, rfl, hlines⟩ := h
  induction lines using List.reverseRecOn with
  | nil => rw [List.append_nil]
  | append_singleton lines line ih =>
    rw [← List.append_assoc, activeLease_append_bystander _ (hlines line (by simp))]
    exact ih fun l hl => hlines l (List.mem_append_left _ hl)

/-- The task has that status, and no lease is active for it. -/
structure SettledAs (taskId : Bytes) (status : String) (ledger : Ledger) : Prop where
  status : lastStatus ledger taskId = some (bytes status)
  released : (wtTaskFindActiveLease ledger taskId).active = false

theorem SettledAs.grows {status : String} (h : SettledAs taskId status ledger)
    (hgrows : GrowsBy (Bystander taskId) ledger after) : SettledAs taskId status after :=
  ⟨hgrows.lastStatus_eq.trans h.status, hgrows.activeLease_eq ▸ h.released⟩

/-- A status event with a terminal status settles its task. -/
theorem SettledAs.of_event {status : String} (ledger : Ledger)
    (h : EventLine taskId "status" status line) (hterminal : endsLease (bytes status)) :
    SettledAs taskId status (ledger ++ [line]) := by
  refine ⟨lastStatus_append_event ledger h, ?_⟩
  obtain ⟨hschema, hid, -⟩ := isEventOf_iff.mp h.event
  have hgives : givesTerminalStatus taskId line := by
    simp [givesTerminalStatus, hschema, hid, h.status, hterminal]
  rw [wtTaskFindActiveLease_append, LeaseScan.step, leaseMark_status h.event, if_pos hgives]
  rfl

theorem actorName_fits {agentName : Bytes} (hagent : isKnownAgent agentName) :
    EscapeFits (actorName agentName) (wtTaskAgentSize * 2) := by
  simp only [isKnownAgent, Bool.or_eq_true, beq_iff_eq] at hagent
  rcases hagent with (rfl | rfl) | rfl <;> decide

theorem adapterFor_title {config : WtConfig} {agentName : Bytes} {task : WtTaskSummary}
    {a : Adapter} (h : adapterFor config agentName task = some a) : a.title.length ≤ 6 := by
  unfold adapterFor at h
  split at h
  · cases h
    decide
  · split at h
    · split at h
      · cases h
        show (bytes "claude").length ≤ 6
        decide
      · cases h
        show (bytes "gemini").length ≤ 6
        decide
    · cases h

theorem eventMessage_fits {a : Adapter} (ha : a.title.length ≤ 6) (s : Settled) :
    EscapeFits (a.eventMessage s) 1024 := by
  refine escapeFits_snprintf ?_ 1024
  have h1 := length_escape_le a.title
  have h2 : ((bytes " adapter exitCode=").flatMap escapePiece).length = 18 := by decide
  have h3 := length_escape_le (decimal (s.exitCode : Nat))
  have h4 := length_decimal (exitCode_range s)
  have h5 : ((bytes " timedOut=").flatMap escapePiece).length = 10 := by decide
  have h6 : ∀ b, ((boolText b).flatMap escapePiece).length ≤ 5 := by decide
  have h7 : ((bytes " cancelled=").flatMap escapePiece).length = 11 := by decide
  have h8 : ((bytes "; see task workspace manifest.").flatMap escapePiece).length = 30 := by decide
  have h9 := h6 s.timedOut
  have h10 := h6 s.cancelled
  unfold EscapeFits
  simp only [length_escape_append, h2, h5, h7, h8]
  omega

theorem retryCause_fits (s : Settled) : EscapeFits s.retryCause 64 := by
  unfold Settled.retryCause
  split
  · decide
  · split
    · split
      · decide
      · split <;> decide
    · decide

theorem finalStatus_cases (s : Settled) :
    s.finalStatus = "cancelled" ∨ s.finalStatus = "complete" ∨ s.finalStatus = "failed" := by
  unfold Settled.finalStatus
  split
  · exact .inl rfl
  · split
    · exact .inr (.inl rfl)
    · exact .inr (.inr rfl)

theorem finalStatus_reads (s : Settled) :
    (FieldValue.text (bytes s.finalStatus)).readString wtTaskStatusSize =
      .ok (bytes s.finalStatus) := by
  rcases finalStatus_cases s with h | h | h <;> rw [h] <;> decide

theorem finalStatus_fits (s : Settled) :
    EscapeFits (bytes s.finalStatus) (wtTaskStatusSize * 2) := by
  rcases finalStatus_cases s with h | h | h <;> rw [h] <;> decide

theorem finalStatus_endsLease (s : Settled) : endsLease (bytes s.finalStatus) := by
  rcases finalStatus_cases s with h | h | h <;> rw [h] <;> decide

theorem recordSettled_settles {a : Adapter} {agentName : Bytes} {task : WtTaskSummary}
    {world : AdapterWorld} (decision : AutonomyDecision) (ledger : Ledger) (s : Settled)
    (hid : Recordable task.taskId) (hagent : isKnownAgent agentName) (ha : a.title.length ≤ 6)
    (hothers : ∀ line ∈ world.beforeExit, Bystander task.taskId line) :
    SettledAs task.taskId s.finalStatus
      (recordSettled a agentName task world decision ledger s) := by
  obtain ⟨line, hrecorded, hevent⟩ := status_recorded (ledger ++ world.beforeSettled)
    world.settledAt hid (finalStatus_reads s) (finalStatus_fits s) (actorName_fits hagent)
    (eventMessage_fits ha s) (retryCause_fits s)
  have hsettled := SettledAs.of_event (ledger ++ world.beforeSettled) hevent
    (finalStatus_endsLease s)
  unfold recordSettled
  dsimp only
  rw [hrecorded, Option.getD_some]
  exact hsettled.grows ((GrowsBy.heard (.refl _ _) hothers).record (.autonomy task.taskId
    (actorName agentName) a.name _ a.commandClass decision.level decision.reason decision.active
    ⟨(s.exitCode : Nat), exitCode_range s⟩ world.exitedAt) (autonomy_bystander task.taskId))

end finish

end WovenTeam

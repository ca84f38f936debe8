import WovenTeam.Claims
import WovenTeam.Config
import WovenTeam.Lib.Runs
import WovenTeam.Room.MessagesJson
import WovenTeam.Room.ParentDirs

/-!
# Agents in the room

Each agent is one process that repeats `handleOnce`: it reads the last messages of the room log,
goes through them from the newest for one it has to handle, appends a reply, and writes the id of
that message to its state file. In between anyone may append to the log, the agents with their
task messages too.

`agents_reply_once`: the ids an agent has replied to increase, so it never replies twice to a
message, and no reply is one that an agent handles. `advance_covered`: where no older message waits
in front of the one an agent replies to, none is passed over; where one does, it is marked as
handled with the newer one.
-/

namespace WovenTeam

open CText Runs

/-! ## Messages and replies -/

/-- An agent that `main` lets in. -/
structure Agent where
  name : Bytes
  known : isKnownAgent name = true
  deriving DecidableEq

def shouldHandle (agentName : Bytes) (message : WtMessage) (lastHandledId : Int) : Bool :=
  if message.messageId ≤ lastHandledId then false
  else if !(message.senderName == bytes "ceo" || message.senderName == bytes "system") then false
  else message.targetName == bytes "all" || message.targetName == agentName

def buildStubReply (agentName : Bytes) (trigger : WtMessage) : Bytes :=
  if agentName = bytes "claude" then
    bytes "[stub claude] I received messageId " ++ decimal trigger.messageId ++
      bytes " and can respond from the shared room transcript."
  else if agentName = bytes "chatgpt" then
    bytes "[stub chatgpt] I can see messageId " ++ decimal trigger.messageId ++
      bytes " in the same durable room state and will treat it as authoritative."
  else
    bytes "[stub gemini] I confirm the message bus is working from shared transcript messageId " ++
      decimal trigger.messageId ++ bytes "."

/-- The reply to a message as the agent hands it to the log. -/
def agentReply (config : WtConfig) (agent : Agent) (trigger : WtMessage) : WtMessage where
  roomName := snprintf wtMessageNameSize config.roomName.text
  senderName := snprintf wtMessageNameSize agent.name
  targetName := bytes "ceo"
  messageType := bytes "chat"
  messageBody := snprintf wtMessageBodySize (buildStubReply agent.name trigger)
  replyToMessageId := trigger.messageId

/-- The log behind `wtRoomAppendNewMessage` where it returns 0. -/
def appendedLog (roomLog : Bytes) (message : WtMessage) (now : Int) : Option Bytes :=
  (newMessageJson roomLog message now).map fun json =>
    (writeRecord roomLog json.object ⟨json.object.length, true, true⟩ false).1

/-! ## State files -/

def agentStatePath (roomLogPath agentName : Bytes) : Bytes :=
  match frontOfSlash (snprintf 256 roomLogPath) with
  | some directory => snprintf 512 (directory ++ bytes "/" ++ agentName ++ bytes ".state")
  | none => snprintf 512 (agentName ++ bytes ".state")

/-- What `wtRoomReadAgentState` reads of a state file that may not be there. -/
def wtRoomReadAgentState (stateFile : Option Bytes) : Int := (stateFile.bind strtoll).getD 0

/-- What `wtRoomWriteAgentState` puts into the file. -/
def wtRoomWriteAgentState (messageId : Int) : Bytes := decimal messageId ++ [newline]

/-! ## The system -/

/-- Where an agent is in `handleOnce`: in front of it, behind reading the log, or behind its append,
with the message it has replied to. -/
inductive ReplyPhase where
  | idle
  | read (window : List WtMessage)
  | replied (window : List WtMessage) (trigger : WtMessage)

/-- A reply that was appended, and the message it was given to. -/
structure Reply where
  agent : Agent
  trigger : WtMessage
  message : WtMessage

/-- The log, the state files by their paths, the agents, and the replies so far. -/
structure RoomState where
  roomLog : Bytes
  stateFiles : Bytes → Option Bytes
  phase : Agent → ReplyPhase
  replies : List Reply

/-- What happens next: something is appended by others, or an agent reads the log, replies to what
it has found, writes its state. -/
inductive AgentAction where
  | post (text : Bytes)
  | poll (agent : Agent)
  | reply (agent : Agent) (now : Int)
  | save (agent : Agent)

def contextLimit (config : WtConfig) : Int :=
  let limit := if config.contextMessageCount > 0 then config.contextMessageCount else 20
  if limit > 256 then 256 else limit

/-- The saved id of an agent. -/
def savedId (config : WtConfig) (s : RoomState) (agent : Agent) : Int :=
  wtRoomReadAgentState (s.stateFiles (agentStatePath config.roomLogPath.text agent.name))

def RoomState.setPhase (s : RoomState) (agent : Agent) (phase : ReplyPhase) : RoomState :=
  { s with phase := Function.update s.phase agent phase }

/-- The state behind an append of a reply that returned 0. -/
def appendedStep (config : WtConfig) (s : RoomState) (agent : Agent) (window : List WtMessage)
    (trigger : WtMessage) (roomLog : Bytes) : RoomState :=
  { s.setPhase agent (.replied window trigger) with
    roomLog
    replies := s.replies ++ [⟨agent, trigger, agentReply config agent trigger⟩] }

/-- The loop of `handleOnce` over a window: no other process writes the state file, so it is read
where it is used. -/
def replyStep (config : WtConfig) (s : RoomState) (agent : Agent) (now : Int)
    (window : List WtMessage) : RoomState :=
  match window.reverse.find? fun message =>
      shouldHandle agent.name message (savedId config s agent) with
  | none => s.setPhase agent .idle
  | some trigger =>
    match appendedLog s.roomLog (agentReply config agent trigger) now with
    | none => s.setPhase agent .idle
    | some roomLog => appendedStep config s agent window trigger roomLog

def saveStep (config : WtConfig) (s : RoomState) (agent : Agent) (trigger : WtMessage) :
    RoomState :=
  { s.setPhase agent .idle with
    stateFiles := Function.update s.stateFiles
      (agentStatePath config.roomLogPath.text agent.name)
      (some (wtRoomWriteAgentState trigger.messageId)) }

def agentStep (config : WtConfig) (s : RoomState) : AgentAction → RoomState
  | .post text => { s with roomLog := s.roomLog ++ text }
  | .poll agent =>
    match s.phase agent with
    | .idle =>
      s.setPhase agent (.read (wtRoomReadRecent (some s.roomLog) (contextLimit config) 256).2)
    | _ => s
  | .reply agent now =>
    match s.phase agent with
    | .read window => replyStep config s agent now window
    | _ => s
  | .save agent =>
    match s.phase agent with
    | .replied _ trigger => saveStep config s agent trigger
    | _ => s

/-! ## What a step does -/

section step

variable {config : WtConfig} {s : RoomState} {agent other : Agent}

theorem setPhase_self (phase : ReplyPhase) : (s.setPhase agent phase).phase agent = phase :=
  Function.update_self ..

theorem setPhase_ne (h : other ≠ agent) (phase : ReplyPhase) :
    (s.setPhase agent phase).phase other = s.phase other :=
  Function.update_of_ne h ..

theorem appendedStep_phase (window : List WtMessage) (trigger : WtMessage) (roomLog : Bytes) :
    (appendedStep config s agent window trigger roomLog).phase agent = .replied window trigger :=
  setPhase_self _

/-- The moves of the system. -/
inductive Move (config : WtConfig) (s : RoomState) : AgentAction → RoomState → Prop
  | wait (action : AgentAction) : Move config s action s
  | post (text : Bytes) : Move config s (.post text) { s with roomLog := s.roomLog ++ text }
  | poll {agent : Agent} (hphase : s.phase agent = .idle) :
      Move config s (.poll agent) (s.setPhase agent
        (.read (wtRoomReadRecent (some s.roomLog) (contextLimit config) 256).2))
  | rest {agent : Agent} {now : Int} {window : List WtMessage}
      (hphase : s.phase agent = .read window) :
      Move config s (.reply agent now) (s.setPhase agent .idle)
  | reply {agent : Agent} {now : Int} {window : List WtMessage} {trigger : WtMessage}
      {roomLog : Bytes} (hphase : s.phase agent = .read window)
      (hfound : (window.reverse.find? fun message =>
        shouldHandle agent.name message (savedId config s agent)) = some trigger) :
      Move config s (.reply agent now) (appendedStep config s agent window trigger roomLog)
  | save {agent : Agent} {window : List WtMessage} {trigger : WtMessage}
      (hphase : s.phase agent = .replied window trigger) :
      Move config s (.save agent) (saveStep config s agent trigger)

theorem agentStep_moves (config : WtConfig) (s : RoomState) (action : AgentAction) :
    Move config s action (agentStep config s action) := by
  cases action with
  | post text => exact .post text
  | poll agent =>
    rw [agentStep]
    cases hphase : s.phase agent with
    | idle => exact .poll hphase
    | read window => exact .wait _
    | replied window trigger => exact .wait _
  | reply agent now =>
    rw [agentStep]
    cases hphase : s.phase agent with
    | idle => exact .wait _
    | replied window trigger => exact .wait _
    | read window =>
      dsimp only
      rw [replyStep]
      split
      · exact .rest hphase
      · rename_i trigger hfound
        split
        · exact .rest hphase
        · exact .reply hphase hfound
  | save agent =>
    rw [agentStep]
    cases hphase : s.phase agent with
    | idle => exact .wait _
    | read window => exact .wait _
    | replied window trigger => exact .save hphase

end step

/-! ## The saved id -/

theorem agent_name (agent : Agent) :
    agent.name ∈ [bytes "claude", bytes "chatgpt", bytes "gemini"] := by
  have h := agent.known
  simp only [isKnownAgent, Bool.or_eq_true, beq_iff_eq] at h
  simpa [or_assoc] using h

theorem length_frontOfSlash_le {path front : Bytes} (h : frontOfSlash path = some front) :
    front.length ≤ path.length := by
  rw [frontOfSlash] at h
  split at h
  · cases h
    have := (List.rdropWhile_prefix (p := (· != UnixPath.separator)) (l := path)).length_le
    rw [List.length_dropLast]
    omega
  · cases h

/-- The state files of two agents are different. -/
theorem agentStatePath_inj {roomLogPath : Bytes} {agent other : Agent}
    (h : agentStatePath roomLogPath agent.name = agentStatePath roomLogPath other.name) :
    agent = other := by
  have hshort : ∀ name ∈ [bytes "claude", bytes "chatgpt", bytes "gemini"],
      name.length + (bytes ".state").length ≤ 13 := by decide
  have hname := hshort _ (agent_name agent)
  have hname' := hshort _ (agent_name other)
  have heq : agent.name = other.name := by
    rw [agentStatePath, agentStatePath] at h
    cases hfront : frontOfSlash (snprintf 256 roomLogPath) with
    | none =>
      rw [hfront] at h
      dsimp only at h
      rw [snprintf_of_lt (by simp; omega), snprintf_of_lt (by simp; omega)] at h
      exact List.append_cancel_right h
    | some directory =>
      have hdirectory := length_frontOfSlash_le hfront
      have hcut := snprintf_length_lt roomLogPath (show 0 < 256 by decide)
      have hslash : (bytes "/").length = 1 := rfl
      rw [hfront] at h
      dsimp only at h
      rw [snprintf_of_lt (by simp; omega), snprintf_of_lt (by simp; omega)] at h
      exact List.append_cancel_left (List.append_cancel_right h)
  cases agent
  cases other
  cases heq
  rfl

section saved

variable {config : WtConfig} {s : RoomState} {agent other : Agent}

theorem savedId_save_self {trigger : WtMessage} (hid : Int64 trigger.messageId) :
    savedId config (saveStep config s agent trigger) agent = trigger.messageId := by
  have hread : strtoll (wtRoomWriteAgentState trigger.messageId) = some trigger.messageId :=
    strtoll_decimal hid (by decide +kernel)
  rw [savedId, saveStep]
  dsimp only
  rw [Function.update_self, wtRoomReadAgentState, Option.bind_some, hread, Option.getD_some]

theorem savedId_save_ne (h : other ≠ agent) (trigger : WtMessage) :
    savedId config (saveStep config s agent trigger) other = savedId config s other := by
  have hpath : agentStatePath config.roomLogPath.text other.name ≠
      agentStatePath config.roomLogPath.text agent.name := fun heq => h (agentStatePath_inj heq)
  rw [savedId, saveStep]
  dsimp only
  rw [Function.update_of_ne hpath, savedId]

end saved

/-! ## What each agent keeps -/

/-- The ids an agent has replied to, in the order of its replies. -/
def repliedIds (s : RoomState) (agent : Agent) : List Int :=
  (s.replies.filter (·.agent == agent)).map (·.trigger.messageId)

/-- The id an agent is done with: the saved one, or that of the message it is about to save. -/
def doneId (config : WtConfig) (s : RoomState) (agent : Agent) : Int :=
  match s.phase agent with
  | .replied _ trigger => trigger.messageId
  | _ => savedId config s agent

/-- What holds of an agent in every state: the ids in its window can be saved, a message it has
replied to is newer than the saved one, and the ids it has replied to increase up to the one it is
done with. -/
structure AgentInv (config : WtConfig) (s : RoomState) (agent : Agent) : Prop where
  window : ∀ window, s.phase agent = .read window → ∀ message ∈ window, Int64 message.messageId
  newer : ∀ window trigger, s.phase agent = .replied window trigger →
    savedId config s agent < trigger.messageId ∧ Int64 trigger.messageId
  increase : (repliedIds s agent).Pairwise (· < ·)
  done : ∀ id ∈ repliedIds s agent, id ≤ doneId config s agent

section inv

variable {config : WtConfig} {s s' : RoomState} {action : AgentAction} {agent : Agent}

/-- An agent that is not in the step, and whose state file and replies are the same, keeps what it
has. -/
theorem AgentInv.frame (h : AgentInv config s agent) (hphase : s'.phase agent = s.phase agent)
    (hsaved : savedId config s' agent = savedId config s agent)
    (hreplies : repliedIds s' agent = repliedIds s agent) : AgentInv config s' agent where
  window := by rw [hphase]; exact h.window
  newer := by rw [hphase, hsaved]; exact h.newer
  increase := by rw [hreplies]; exact h.increase
  done := by
    have hdone : doneId config s' agent = doneId config s agent := by
      rw [doneId, doneId, hphase, hsaved]
    rw [hreplies, hdone]
    exact h.done

/-- The ids of the log's messages are those of `long`s. -/
theorem int64_messageId {line : Bytes} {message : WtMessage}
    (h : wtMessageFromJsonLine line = some message) : Int64 message.messageId := by
  obtain ⟨id, hid, h⟩ := Option.bind_eq_some_iff.mp h
  simp only [Option.bind_eq_bind, Option.bind_eq_some_iff] at h
  obtain ⟨_, -, _, -, _, -, _, -, _, -, _, -, _, -, h⟩ := h
  cases h
  exact wtJsonReadLong_range hid

theorem int64_of_mem_recent {roomLog : Option Bytes} {limit maxMessages : Int}
    {message : WtMessage} (h : message ∈ (wtRoomReadRecent roomLog limit maxMessages).2) :
    Int64 message.messageId := by
  rw [wtRoomReadRecent_eq] at h
  have hmem := List.mem_of_mem_drop h
  obtain ⟨line, -, hline⟩ := List.mem_filterMap.mp hmem
  exact int64_messageId hline

theorem lt_of_shouldHandle {agentName : Bytes} {message : WtMessage} {lastHandledId : Int}
    (h : shouldHandle agentName message lastHandledId = true) :
    lastHandledId < message.messageId := by
  rw [shouldHandle] at h
  split at h
  · cases h
  · omega

theorem doneId_idle (h : s.phase agent = .idle) :
    doneId config s agent = savedId config s agent := by
  rw [doneId, h]

theorem doneId_read {window : List WtMessage} (h : s.phase agent = .read window) :
    doneId config s agent = savedId config s agent := by
  rw [doneId, h]

theorem doneId_replied {window : List WtMessage} {trigger : WtMessage}
    (h : s.phase agent = .replied window trigger) :
    doneId config s agent = trigger.messageId := by
  rw [doneId, h]

/-- An agent that gives its window up, or reads one, is done with the id it was done with. -/
theorem AgentInv.setPhase (h : AgentInv config s agent) {phase : ReplyPhase}
    (hbefore : doneId config s agent = savedId config s agent)
    (hwindow : ∀ window, phase = .read window → ∀ message ∈ window, Int64 message.messageId)
    (hreplied : ∀ window trigger, phase ≠ .replied window trigger) :
    AgentInv config (s.setPhase agent phase) agent where
  window := by rw [setPhase_self]; exact hwindow
  newer := by
    rw [setPhase_self]
    exact fun window trigger heq => absurd heq (hreplied window trigger)
  increase := h.increase
  done := by
    have hafter : doneId config (s.setPhase agent phase) agent = savedId config s agent := by
      rw [doneId, setPhase_self]
      split
      · exact absurd rfl (hreplied _ _)
      · rfl
    rw [hafter, ← hbefore]
    exact h.done

/-- A reply goes to a message newer than all the agent has replied to. -/
theorem AgentInv.reply (h : AgentInv config s agent) {window : List WtMessage}
    {trigger : WtMessage} (hphase : s.phase agent = .read window) (hmem : trigger ∈ window)
    (hhandle : shouldHandle agent.name trigger (savedId config s agent) = true)
    (roomLog : Bytes) :
    AgentInv config (appendedStep config s agent window trigger roomLog) agent := by
  have hnew := lt_of_shouldHandle hhandle
  have hid := h.window window hphase trigger hmem
  have hdone := h.done
  rw [doneId_read hphase] at hdone
  have hself : (appendedStep config s agent window trigger roomLog).phase agent =
      .replied window trigger := appendedStep_phase ..
  have hids : repliedIds (appendedStep config s agent window trigger roomLog) agent =
      repliedIds s agent ++ [trigger.messageId] := by
    simp [repliedIds, appendedStep]
  refine ⟨fun w hw => ?_, fun w t hw => ?_, ?_, ?_⟩
  · exact nomatch hself.symm.trans hw
  · cases hself.symm.trans hw
    exact ⟨hnew, hid⟩
  · rw [hids, List.pairwise_append]
    refine ⟨h.increase, List.pairwise_singleton .., fun id hold id' hlast => ?_⟩
    rw [List.mem_singleton.mp hlast]
    exact (hdone id hold).trans_lt hnew
  · rw [hids, doneId_replied hself]
    intro id hmem
    rcases List.mem_append.mp hmem with hold | hlast
    · exact ((hdone id hold).trans_lt hnew).le
    · exact (List.mem_singleton.mp hlast).le

/-- What is saved is what the agent was done with. -/
theorem AgentInv.save (h : AgentInv config s agent) {window : List WtMessage}
    {trigger : WtMessage} (hphase : s.phase agent = .replied window trigger) :
    AgentInv config (saveStep config s agent trigger) agent := by
  have hidle : (saveStep config s agent trigger).phase agent = .idle := setPhase_self _
  have hsaved : savedId config (saveStep config s agent trigger) agent = trigger.messageId :=
    savedId_save_self (h.newer window trigger hphase).2
  have hdone : doneId config s agent = trigger.messageId := doneId_replied hphase
  refine ⟨fun w hw => ?_, fun w t hw => ?_, h.increase, ?_⟩
  · exact nomatch hidle.symm.trans hw
  · exact nomatch hidle.symm.trans hw
  · rw [doneId_idle hidle, hsaved, ← hdone]
    exact h.done

/-- **Every move keeps what holds of each agent.** -/
theorem agentInv_move (hmove : Move config s action s') (h : AgentInv config s agent) :
    AgentInv config s' agent := by
  cases hmove with
  | wait => exact h
  | post text => exact h.frame rfl rfl rfl
  | @poll mover hphase =>
    by_cases hmover : agent = mover
    · subst hmover
      refine h.setPhase (doneId_idle hphase) ?_ (fun _ _ => nofun)
      rintro window hwindow message hmem
      cases hwindow
      exact int64_of_mem_recent hmem
    · exact h.frame (setPhase_ne hmover _) rfl rfl
  | @rest mover now window hphase =>
    by_cases hmover : agent = mover
    · subst hmover
      exact h.setPhase (doneId_read hphase) (fun _ => nofun) (fun _ _ => nofun)
    · exact h.frame (setPhase_ne hmover _) rfl rfl
  | @reply mover now window trigger roomLog hphase hfound =>
    by_cases hmover : agent = mover
    · subst hmover
      have hmem := List.mem_reverse.mp (List.mem_of_find?_eq_some hfound)
      have hhandle : shouldHandle agent.name trigger (savedId config s agent) = true := by
        simpa using List.find?_some hfound
      exact h.reply hphase hmem hhandle roomLog
    · refine h.frame (setPhase_ne hmover _) rfl ?_
      simp [repliedIds, appendedStep, Ne.symm hmover]
  | @save mover window trigger hphase =>
    by_cases hmover : agent = mover
    · subst hmover
      exact h.save hphase
    · exact h.frame (setPhase_ne hmover _) (savedId_save_ne hmover trigger) rfl

end inv

/-! ## Runs -/

/-- No agent has started yet; the log and the state files may be there from before. -/
def startState (roomLog : Bytes) (stateFiles : Bytes → Option Bytes) : RoomState where
  roomLog
  stateFiles
  phase := fun _ => .idle
  replies := []

/-- The reply is to a message from the CEO or the system, not to an agent's, for its agent or for
all, and is none that an agent handles. -/
structure Reply.Proper (config : WtConfig) (reply : Reply) : Prop where
  message : reply.message = agentReply config reply.agent reply.trigger
  sender : reply.trigger.senderName = bytes "ceo" ∨ reply.trigger.senderName = bytes "system"
  notAgent : ∀ agent : Agent, reply.trigger.senderName ≠ agent.name
  target : reply.trigger.targetName = bytes "all" ∨ reply.trigger.targetName = reply.agent.name
  unhandled : ∀ (agent : Agent) (lastHandledId : Int),
    shouldHandle agent.name reply.message lastHandledId = false

/-- Writing the state file takes the saved id of an agent that has replied up. -/
def SaveIncreases (config : WtConfig) (s : RoomState) (agent : Agent) : Prop :=
  ∀ window trigger, s.phase agent = .replied window trigger →
    savedId config s agent < savedId config (agentStep config s (.save agent)) agent

section run

variable {config : WtConfig} {s s' : RoomState} {action : AgentAction}

theorem agentInv_start (config : WtConfig) (roomLog : Bytes) (stateFiles : Bytes → Option Bytes)
    (agent : Agent) : AgentInv config (startState roomLog stateFiles) agent where
  window := fun _ => nofun
  newer := fun _ _ => nofun
  increase := List.Pairwise.nil
  done := fun _ => nofun

theorem ne_agent_name {name : Bytes} (h : name = bytes "ceo" ∨ name = bytes "system")
    (agent : Agent) : name ≠ agent.name := by
  rintro rfl
  have hnames : ∀ name ∈ [bytes "claude", bytes "chatgpt", bytes "gemini"],
      ¬ (name = bytes "ceo" ∨ name = bytes "system") := by decide
  exact hnames _ (agent_name agent) h

theorem shouldHandle_parties {agentName : Bytes} {message : WtMessage} {lastHandledId : Int}
    (h : shouldHandle agentName message lastHandledId = true) :
    (message.senderName = bytes "ceo" ∨ message.senderName = bytes "system") ∧
      (message.targetName = bytes "all" ∨ message.targetName = agentName) := by
  rw [shouldHandle] at h
  split at h
  · cases h
  · split at h
    · cases h
    · rename_i hsender
      exact ⟨by simpa [or_iff_not_imp_left] using hsender, by simpa using h⟩

/-- A reply comes from an agent, and no agent handles it. -/
theorem shouldHandle_agentReply (config : WtConfig) (agent other : Agent) (trigger : WtMessage)
    (lastHandledId : Int) :
    shouldHandle other.name (agentReply config agent trigger) lastHandledId = false := by
  have hshort : ∀ name ∈ [bytes "claude", bytes "chatgpt", bytes "gemini"],
      name.length < wtMessageNameSize := by decide
  have hsender : (agentReply config agent trigger).senderName = agent.name :=
    snprintf_of_lt (hshort _ (agent_name agent))
  refine Bool.eq_false_iff.mpr fun h => ?_
  exact ne_agent_name (shouldHandle_parties h).1 agent hsender

theorem proper_move (hmove : Move config s action s')
    (h : ∀ reply ∈ s.replies, reply.Proper config) :
    ∀ reply ∈ s'.replies, reply.Proper config := by
  cases hmove with
  | @reply agent now window trigger roomLog hphase hfound =>
    have hhandle : shouldHandle agent.name trigger (savedId config s agent) = true := by
      simpa using List.find?_some hfound
    obtain ⟨hsender, htarget⟩ := shouldHandle_parties hhandle
    intro reply hmem
    rcases List.mem_append.mp hmem with hold | hlast
    · exact h reply hold
    · rw [List.mem_singleton.mp hlast]
      exact ⟨rfl, hsender, ne_agent_name hsender, htarget,
        fun other => shouldHandle_agentReply config agent other trigger⟩
  | wait => exact h
  | post => exact h
  | poll => exact h
  | rest => exact h
  | save => exact h

theorem AgentInv.saveIncreases {agent : Agent} (h : AgentInv config s agent) :
    SaveIncreases config s agent := by
  intro window trigger hphase
  obtain ⟨hnewer, hid⟩ := h.newer window trigger hphase
  rw [agentStep, hphase]
  dsimp only
  rwa [savedId_save_self hid]

end run

/-- **Agents reply at most once and never loop**: in every run the ids an agent has replied to
increase, every reply is proper, and the saved id goes up with each. -/
theorem agents_reply_once (config : WtConfig) (roomLog : Bytes)
    (stateFiles : Bytes → Option Bytes) (actions : List AgentAction) :
    let s := run (agentStep config) (startState roomLog stateFiles) actions
    (∀ agent, (repliedIds s agent).Pairwise (· < ·)) ∧
      (∀ reply ∈ s.replies, reply.Proper config) ∧
      ∀ agent, SaveIncreases config s agent := by
  have hinv (agent : Agent) : AgentInv config
      (run (agentStep config) (startState roomLog stateFiles) actions) agent := by
    have hstep : ∀ s action, AgentInv config s agent → True →
        AgentInv config (agentStep config s action) agent :=
      fun s action h _ => agentInv_move (agentStep_moves config s action) h
    exact run_invariant hstep (agentInv_start config roomLog stateFiles agent)
      (.of_forall fun _ _ _ => trivial)
  have hproper : ∀ reply ∈ (run (agentStep config) (startState roomLog stateFiles) actions).replies,
      reply.Proper config := by
    have hstep : ∀ (s : RoomState) action, (∀ reply ∈ s.replies, reply.Proper config) → True →
        ∀ reply ∈ (agentStep config s action).replies, reply.Proper config :=
      fun s action h _ => proper_move (agentStep_moves config s action) h
    refine run_invariant hstep (fun reply hmem => ?_) (.of_forall fun _ _ _ => trivial)
    cases hmem
  exact ⟨fun agent => (hinv agent).increase, hproper, fun agent => (hinv agent).saveIncreases⟩

/-! ## Messages passed over -/

/-- The window an agent goes through. -/
def contextWindow (s : RoomState) (agent : Agent) : List WtMessage :=
  match s.phase agent with
  | .idle => []
  | .read window => window
  | .replied window _ => window

/-- Where a step takes the saved id of an agent up, each message of its window up to there that it
had to handle has a reply. -/
def AdvanceCovered (config : WtConfig) (s s' : RoomState) (agent : Agent) : Prop :=
  savedId config s agent < savedId config s' agent → ∀ message ∈ contextWindow s agent,
    savedId config s agent < message.messageId → message.messageId ≤ savedId config s' agent →
    shouldHandle agent.name message (savedId config s agent) = true →
    ∃ reply ∈ s'.replies, reply.agent = agent ∧
      reply.message.replyToMessageId = message.messageId

/-- The messages of a window that wait for an agent. -/
def waiting (config : WtConfig) (s : RoomState) (agent : Agent) (window : List WtMessage) :
    List WtMessage :=
  window.filter fun message => shouldHandle agent.name message (savedId config s agent)

/-- When an agent goes through its window, no message waits for it that is older than the last one
that waits: where ids increase, at most one message waits. -/
def NoOlderWaits (config : WtConfig) (s : RoomState) (action : AgentAction) : Prop :=
  ∀ agent now window, action = .reply agent now → s.phase agent = .read window →
    ∀ last ∈ (waiting config s agent window).getLast?, ∀ message ∈ waiting config s agent window,
      last.messageId ≤ message.messageId

/-- An agent that has replied has replied to the oldest message that waited for it. -/
structure RepliedToOldest (config : WtConfig) (s : RoomState) (agent : Agent) : Prop where
  oldest : ∀ window trigger, s.phase agent = .replied window trigger →
    ∀ message ∈ waiting config s agent window, trigger.messageId ≤ message.messageId
  reply : ∀ window trigger, s.phase agent = .replied window trigger →
    ∃ reply ∈ s.replies, reply.agent = agent ∧
      reply.message.replyToMessageId = trigger.messageId

section covered

variable {config : WtConfig} {s s' : RoomState} {action : AgentAction} {agent : Agent}

theorem RepliedToOldest.of_not_replied
    (h : ∀ window trigger, s.phase agent ≠ .replied window trigger) :
    RepliedToOldest config s agent :=
  ⟨fun window trigger hphase => absurd hphase (h window trigger),
    fun window trigger hphase => absurd hphase (h window trigger)⟩

theorem RepliedToOldest.frame (h : RepliedToOldest config s agent)
    (hphase : s'.phase agent = s.phase agent)
    (hsaved : savedId config s' agent = savedId config s agent)
    (hreplies : s.replies ⊆ s'.replies) :
    RepliedToOldest config s' agent where
  oldest := by
    have hwaiting (window : List WtMessage) :
        waiting config s' agent window = waiting config s agent window := by
      rw [waiting, hsaved, waiting]
    rw [hphase]
    intro window
    rw [hwaiting]
    exact h.oldest window
  reply := by
    rw [hphase]
    intro window trigger hreplied
    obtain ⟨reply, hmem, hreply⟩ := h.reply window trigger hreplied
    exact ⟨reply, hreplies hmem, hreply⟩

/-- What the loop finds is the last message that waits. -/
theorem getLast?_waiting (config : WtConfig) (s : RoomState) (agent : Agent)
    (window : List WtMessage) : (waiting config s agent window).getLast? =
      window.reverse.find? fun message =>
        shouldHandle agent.name message (savedId config s agent) := by
  rw [← List.head?_filter, List.filter_reverse, List.head?_reverse, waiting]

theorem repliedToOldest_move (hmove : Move config s action s')
    (hnone : NoOlderWaits config s action) (h : RepliedToOldest config s agent) :
    RepliedToOldest config s' agent := by
  cases hmove with
  | wait => exact h
  | post text => exact h.frame rfl rfl (List.Subset.refl _)
  | @poll mover hphase =>
    by_cases hmover : agent = mover
    · subst hmover
      refine .of_not_replied fun window trigger hreplied => ?_
      exact nomatch (setPhase_self _).symm.trans hreplied
    · exact h.frame (setPhase_ne hmover _) rfl (List.Subset.refl _)
  | @rest mover now window hphase =>
    by_cases hmover : agent = mover
    · subst hmover
      refine .of_not_replied fun window trigger hreplied => ?_
      exact nomatch (setPhase_self _).symm.trans hreplied
    · exact h.frame (setPhase_ne hmover _) rfl (List.Subset.refl _)
  | @reply mover now window trigger roomLog hphase hfound =>
    by_cases hmover : agent = mover
    · subst hmover
      have hself : (appendedStep config s agent window trigger roomLog).phase agent =
          .replied window trigger := appendedStep_phase ..
      have hlast : trigger ∈ (waiting config s agent window).getLast? := by
        rw [getLast?_waiting]
        exact hfound
      refine ⟨fun w t hreplied => ?_, fun w t hreplied => ?_⟩
      · cases hself.symm.trans hreplied
        exact hnone agent now window rfl hphase trigger hlast
      · cases hself.symm.trans hreplied
        exact ⟨_, List.mem_append_right _ (List.mem_singleton_self _), rfl, rfl⟩
    · exact h.frame (setPhase_ne hmover _) rfl (List.subset_append_left _ _)
  | @save mover window trigger hphase =>
    by_cases hmover : agent = mover
    · subst hmover
      refine .of_not_replied fun window trigger hreplied => ?_
      exact nomatch (setPhase_self _).symm.trans hreplied
    · exact h.frame (setPhase_ne hmover _) (savedId_save_ne hmover trigger) (List.Subset.refl _)

/-- **A step that takes the saved id up passes nothing over**: it is the save of an agent that has
replied to the oldest message that waited. -/
theorem advanceCovered_move (hmove : Move config s action s') (hinv : AgentInv config s agent)
    (holdest : RepliedToOldest config s agent) :
    AdvanceCovered config s s' agent := by
  intro hup message hmem hlt hle hwaits
  cases hmove with
  | @save mover window trigger hphase =>
    by_cases hmover : agent = mover
    · subst hmover
      rw [contextWindow, hphase] at hmem
      have hsaved : savedId config (saveStep config s agent trigger) agent = trigger.messageId :=
        savedId_save_self (hinv.newer window trigger hphase).2
      have hge := holdest.oldest window trigger hphase message (List.mem_filter.mpr ⟨hmem, hwaits⟩)
      rw [le_antisymm (hle.trans_eq hsaved) hge]
      exact holdest.reply window trigger hphase
    · exact absurd hup (savedId_save_ne hmover trigger ▸ lt_irrefl _)
  | wait => exact absurd hup (lt_irrefl _)
  | post => exact absurd hup (lt_irrefl _)
  | poll => exact absurd hup (lt_irrefl _)
  | rest => exact absurd hup (lt_irrefl _)
  | reply => exact absurd hup (lt_irrefl _)

end covered

/-- **In a run in which no agent that goes through its window has a message in front of the last
one that waits for it, no message is marked as handled without a reply.** -/
theorem advance_covered (config : WtConfig) (roomLog : Bytes) (stateFiles : Bytes → Option Bytes)
    (actions : List AgentAction)
    (hnone : Along (agentStep config) (NoOlderWaits config) (startState roomLog stateFiles)
      actions) :
    ∀ before action after, actions = before ++ action :: after → ∀ agent,
      AdvanceCovered config (run (agentStep config) (startState roomLog stateFiles) before)
        (agentStep config (run (agentStep config) (startState roomLog stateFiles) before) action)
        agent := by
  rintro before action after rfl agent
  have hstep : ∀ s action,
      (AgentInv config s agent ∧ RepliedToOldest config s agent) → NoOlderWaits config s action →
      AgentInv config (agentStep config s action) agent ∧
        RepliedToOldest config (agentStep config s action) agent :=
    fun s action h hnone =>
      ⟨agentInv_move (agentStep_moves config s action) h.1,
        repliedToOldest_move (agentStep_moves config s action) hnone h.2⟩
  have hstart : AgentInv config (startState roomLog stateFiles) agent ∧
      RepliedToOldest config (startState roomLog stateFiles) agent :=
    ⟨agentInv_start config roomLog stateFiles agent, .of_not_replied fun _ _ => nofun⟩
  obtain ⟨hinv, holdest⟩ := run_invariant hstep hstart hnone.before_cut
  exact advanceCovered_move (agentStep_moves config _ action) hinv holdest

/-! ### Two messages in a row -/

def claude : Agent := ⟨bytes "claude", rfl⟩

/-- A message of the CEO to all agents. -/
def ceoMessage (messageId : Int) : WtMessage :=
  { messageId, senderName := bytes "ceo", messageBody := bytes "hello" }

theorem ceoMessage_stored {id : Int} (hid : id ∈ ([1, 2] : List Int)) : (ceoMessage id).Stored := by
  have hprints : ∀ id ∈ ([1, 2] : List Int),
      (wtMessageToJson (ceoMessage id) wtMessageJsonSize).isSome := by decide +kernel
  have hint : ∀ id ∈ ([1, 2] : List Int), Int64 id := by decide
  have hzero : Int64 0 := by decide
  have hlengths : (bytes "phase0").length < wtMessageNameSize ∧
      (bytes "ceo").length < wtMessageNameSize ∧ (bytes "all").length < wtMessageNameSize ∧
      (bytes "chat").length < wtMessageTypeSize ∧ (bytes "hello").length < wtMessageBodySize := by
    decide
  have hdecodes : Decodes (bytes "phase0") ∧ Decodes (bytes "ceo") ∧ Decodes (bytes "all") ∧
      Decodes (bytes "chat") ∧ Decodes (bytes "hello") := by decide
  exact ⟨⟨hint id hid, hlengths.1, hlengths.2.1, hlengths.2.2.1, hlengths.2.2.2.1,
      hlengths.2.2.2.2, hzero, hzero⟩,
    ⟨hdecodes.1, hdecodes.2.1, hdecodes.2.2.1, hdecodes.2.2.2.1, hdecodes.2.2.2.2⟩,
    hprints id hid⟩

/-- The windows an agent reads of a log of such messages. -/
theorem poll_window {messages : List WtMessage} (h : ∀ message ∈ messages, message.Stored)
    (hlength : messages.length ≤ 20) :
    (wtRoomReadRecent (some (roomText messages)) (contextLimit {}) 256).2 = messages := by
  have hlimit : (effectiveLimit (contextLimit {}) 256).toNat = 20 := by decide
  rw [wtRoomReadRecent_eq, hlimit]
  dsimp only
  rw [readableMessages, Option.getD_some, roomMessages_roomText h, List.rtake,
    Nat.sub_eq_zero_of_le hlength, List.drop_zero]

/-- The state in which Claude has read a log of such messages. -/
theorem polled_phase (messages : List WtMessage) (h : ∀ message ∈ messages, message.Stored)
    (hlength : messages.length ≤ 20) :
    (agentStep {} (startState (roomText messages) fun _ => none) (.poll claude)).phase claude =
      .read messages := by
  have hwindow := poll_window h hlength
  rw [agentStep]
  dsimp only [startState]
  rw [setPhase_self, hwindow]

/-- One message waits, and has its reply when it is marked as handled. -/
theorem advance_covered_one :
    AdvanceCovered {} (run (agentStep {}) (startState (roomText [ceoMessage 1]) fun _ => none)
        [.poll claude, .reply claude 5])
      (agentStep {} (run (agentStep {}) (startState (roomText [ceoMessage 1]) fun _ => none)
        [.poll claude, .reply claude 5]) (.save claude)) claude := by
  refine advance_covered {} (roomText [ceoMessage 1]) (fun _ => none)
    [.poll claude, .reply claude 5, .save claude] ⟨?_, ?_, ?_, trivial⟩
    [.poll claude, .reply claude 5] (.save claude) [] rfl claude
  · rintro agent now window heq
    cases heq
  · rintro agent now window heq hphase
    cases heq
    have hread := polled_phase [ceoMessage 1] (by simpa using ceoMessage_stored (by simp)) (by simp)
    cases hread.symm.trans hphase
    intro last hlast message hmessage
    have heq : last = message :=
      (List.mem_singleton.mp (List.mem_of_mem_filter (List.mem_of_getLast? hlast))).trans
        (List.mem_singleton.mp (List.mem_of_mem_filter hmessage)).symm
    rw [heq]
  · rintro agent now window heq
    cases heq

/-- The reply to the second message can be appended to any log. -/
theorem appendedLog_second (roomLog : Bytes) :
    ∃ roomLog', appendedLog roomLog (agentReply {} claude (ceoMessage 2)) 5 = some roomLog' := by
  have hfits : EscapeFits (agentReply {} claude (ceoMessage 2)).roomName (wtMessageNameSize * 2) ∧
      EscapeFits (agentReply {} claude (ceoMessage 2)).senderName (wtMessageNameSize * 2) ∧
      EscapeFits (agentReply {} claude (ceoMessage 2)).targetName (wtMessageNameSize * 2) ∧
      EscapeFits (agentReply {} claude (ceoMessage 2)).messageType (wtMessageTypeSize * 2) ∧
      EscapeFits (agentReply {} claude (ceoMessage 2)).messageBody (wtMessageBodySize * 2) ∧
      escapedLength (agentReply {} claude (ceoMessage 2)) + 200 < wtMessageJsonSize := by
    decide +kernel
  have hfive : Int64 5 := by decide
  have htwo : Int64 2 := by decide
  obtain ⟨hroom, hsender, htarget, htype, hbody, hshort⟩ := hfits
  obtain ⟨json, hjson, -⟩ := wtMessageToJson_of_short
    { agentReply {} claude (ceoMessage 2) with
      messageId := wrap64 (wtRoomReadLastMessageId roomLog + 1)
      createdAtUnixMs := 5 }
    (int64_wrap64 _) hfive htwo hroom hsender htarget htype hbody hshort
  have hnew : newMessageJson roomLog (agentReply {} claude (ceoMessage 2)) 5 = some json := hjson
  rw [appendedLog, hnew]
  exact ⟨_, rfl⟩

/-- Of two messages that wait Claude replies to the second. -/
theorem replied_second (s : RoomState)
    (hphase : s.phase claude = .read [ceoMessage 1, ceoMessage 2])
    (hsaved : savedId {} s claude = 0) :
    ∃ roomLog, agentStep {} s (.reply claude 5) =
      appendedStep {} s claude [ceoMessage 1, ceoMessage 2] (ceoMessage 2) roomLog := by
  obtain ⟨roomLog, hlog⟩ := appendedLog_second s.roomLog
  have hfound : ([ceoMessage 1, ceoMessage 2].reverse.find? fun message =>
      shouldHandle claude.name message 0) = some (ceoMessage 2) := by rfl
  rw [agentStep, hphase]
  dsimp only
  rw [replyStep, hsaved, hfound]
  dsimp only
  rw [hlog]
  exact ⟨roomLog, rfl⟩

/-- **Of two messages that wait the older is passed over.** -/
theorem not_advance_covered : ¬ ∀ (config : WtConfig) (roomLog : Bytes)
    (stateFiles : Bytes → Option Bytes) (actions before after : List AgentAction)
    (action : AgentAction) (agent : Agent), actions = before ++ action :: after →
      AdvanceCovered config (run (agentStep config) (startState roomLog stateFiles) before)
        (agentStep config (run (agentStep config) (startState roomLog stateFiles) before) action)
        agent := by
  intro hall
  have hstored : ∀ message ∈ [ceoMessage 1, ceoMessage 2], message.Stored := by
    simpa using ⟨ceoMessage_stored (by simp), ceoMessage_stored (by simp)⟩
  have hread := polled_phase [ceoMessage 1, ceoMessage 2] hstored (by simp)
  have hcovered := hall {} (roomText [ceoMessage 1, ceoMessage 2]) (fun _ => none)
    [.poll claude, .reply claude 5, .save claude] [.poll claude, .reply claude 5] [] (.save claude)
    claude rfl
  rw [run_cons, run_cons, run_nil] at hcovered
  have hsaved : savedId {} (agentStep {} (startState (roomText [ceoMessage 1, ceoMessage 2])
      fun _ => none) (.poll claude)) claude = 0 := rfl
  have hreplies : (agentStep {} (startState (roomText [ceoMessage 1, ceoMessage 2])
      fun _ => none) (.poll claude)).replies = [] := rfl
  generalize agentStep {} (startState (roomText [ceoMessage 1, ceoMessage 2]) fun _ => none)
    (.poll claude) = s at hread hcovered hsaved hreplies
  obtain ⟨roomLog, hstep⟩ := replied_second s hread hsaved
  rw [hstep] at hcovered
  generalize hs' : appendedStep {} s claude [ceoMessage 1, ceoMessage 2] (ceoMessage 2) roomLog =
    s' at hcovered
  have hphase : s'.phase claude = .replied [ceoMessage 1, ceoMessage 2] (ceoMessage 2) := by
    rw [← hs']
    exact appendedStep_phase ..
  have hbefore : savedId {} s' claude = 0 := by rw [← hs']; exact hsaved
  have hafter : savedId {} (saveStep {} s' claude (ceoMessage 2)) claude = 2 :=
    savedId_save_self (show Int64 2 by decide)
  have hreplied : (saveStep {} s' claude (ceoMessage 2)).replies =
      [⟨claude, ceoMessage 2, agentReply {} claude (ceoMessage 2)⟩] := by
    rw [saveStep, RoomState.setPhase, ← hs', appendedStep, hreplies]
    rfl
  rw [agentStep, hphase] at hcovered
  dsimp only at hcovered
  rw [AdvanceCovered, contextWindow, hphase, hbefore, hafter] at hcovered
  dsimp only at hcovered
  obtain ⟨reply, hmem, -, hto⟩ := hcovered (by decide) (ceoMessage 1) (by simp) (by decide)
    (by decide) (by rfl)
  rw [hreplied] at hmem
  rw [List.mem_singleton.mp hmem] at hto
  exact absurd hto (by decide)

end WovenTeam

import WovenTeam.Room.Ids

/-!
# The message stream

`handleEvents` polls the room log and sends what `wtRoomReadMessagesAfter` returns: up to 64 messages
with an id above the last one it sent, 0 at first. `stream_exact`: while ids increase, what has been
sent and what has not are together the messages with a positive id, in order, and enough polls send
them all.
-/

namespace WovenTeam

open CText LineReader Runs

/-! ## Polling -/

def wtRoomReadMessagesAfter (roomLog : Bytes) (afterMessageId : Int) (maxMessages : Nat) :
    List WtMessage :=
  ((fgetsLines wtMessageJsonSize roomLog).filterMap fun line =>
    match wtMessageFromJsonLine line with
    | some message => if message.messageId > afterMessageId then some message else none
    | none => none).take maxMessages

/-- The log, and what the loop of `handleEvents` keeps: the last id and what it has sent. -/
structure RoomStream where
  roomLog : Bytes
  lastSentId : Int := 0
  sent : List WtMessage := []

inductive RoomAction where
  | write (text : Bytes)
  | poll

def RoomStream.poll (s : RoomStream) : RoomStream :=
  let messages := wtRoomReadMessagesAfter s.roomLog s.lastSentId 64
  { s with
    lastSentId := messages.foldl (fun _ message => message.messageId) s.lastSentId
    sent := s.sent ++ messages }

def RoomStream.step (s : RoomStream) : RoomAction → RoomStream
  | .write text => { s with roomLog := s.roomLog ++ text }
  | .poll => s.poll

/-- The writers of the log write a line at a line start, and its newline after it. -/
def RoomStream.Writes (s : RoomStream) : RoomAction → Prop
  | .write text => AtLineStart wtMessageJsonSize s.roomLog ∨ text = [newline]
  | .poll => True

/-! ## What has been sent -/

def RoomStream.messages (s : RoomStream) : List WtMessage := roomMessages s.roomLog

def RoomStream.positive (s : RoomStream) : List WtMessage :=
  s.messages.filter fun message => 0 < message.messageId

def RoomStream.unseen (s : RoomStream) : List WtMessage :=
  s.messages.filter fun message => s.lastSentId < message.messageId

/-- What was sent is in front of what was not, and the last id is that of a message. -/
structure RoomStream.Exact (s : RoomStream) : Prop where
  split : s.sent ++ s.unseen = s.positive
  nonneg : 0 ≤ s.lastSentId
  cursor : s.lastSentId = 0 ∨ ∃ message ∈ s.messages, message.messageId = s.lastSentId

section step

variable {s : RoomStream}

theorem wtRoomReadMessagesAfter_eq (roomLog : Bytes) (afterMessageId : Int) (maxMessages : Nat) :
    wtRoomReadMessagesAfter roomLog afterMessageId maxMessages =
      ((roomMessages roomLog).filter fun message =>
        afterMessageId < message.messageId).take maxMessages := by
  unfold wtRoomReadMessagesAfter roomMessages
  rw [List.filter_filterMap]
  congr 2
  funext line
  cases wtMessageFromJsonLine line with
  | none => rfl
  | some message => simp [Option.filter]

/-- The newline behind a line that is there changes no message. -/
theorem roomMessages_newline (roomLog : Bytes) :
    roomMessages (roomLog ++ [newline]) = roomMessages roomLog := by
  unfold roomMessages
  rcases @fgetsLines_append_newline wtMessageJsonSize roomLog with h | ⟨earlier, line, h, h'⟩
  · rw [h, List.filterMap_append]
    simp [wtMessageFromJsonLine_newline]
  · have hspace : ∀ b ∈ [newline], isSpace b := by simp [isSpace, newline]
    rw [h, h', List.filterMap_append, List.filterMap_append, List.filterMap_cons,
      List.filterMap_cons, wtMessageFromJsonLine_append hspace]

/-- A write adds messages at the end, if any. -/
theorem messages_write {text : Bytes} (h : s.Writes (.write text)) :
    ∃ added, (s.step (.write text)).messages = s.messages ++ added := by
  rcases h with h | rfl
  · exact ⟨_, roomMessages_append h text⟩
  · exact ⟨[], by rw [List.append_nil]; exact roomMessages_newline s.roomLog⟩

theorem exact_write {text : Bytes} (h : s.Exact) (hwrites : s.Writes (.write text))
    (hinc : IdsIncrease (s.step (.write text)).messages) : (s.step (.write text)).Exact := by
  obtain ⟨added, hadded⟩ := messages_write hwrites
  rw [hadded] at hinc
  -- of the added messages the cursor has seen none
  have hnew : added.filter (fun message => s.lastSentId < message.messageId) =
      added.filter fun message => 0 < message.messageId := by
    refine List.filter_congr fun message hmessage => ?_
    rcases h.cursor with hzero | ⟨seen, hseen, hid⟩
    · rw [hzero]
    · have hlt := (List.pairwise_append.mp hinc).2.2 seen hseen message hmessage
      have hpos := h.nonneg
      simp only [decide_eq_decide]
      omega
  refine ⟨?_, h.nonneg, ?_⟩
  · have hsplit := h.split
    unfold RoomStream.unseen RoomStream.positive at *
    rw [hadded, List.filter_append, List.filter_append, ← hsplit, ← hnew, List.append_assoc]
    rfl
  · rw [hadded]
    exact h.cursor.imp id fun ⟨message, hmem, hid⟩ =>
      ⟨message, List.mem_append_left _ hmem, hid⟩

/-- A poll sends the first 64 of the unseen messages. -/
theorem sent_poll : s.poll.sent = s.sent ++ s.unseen.take 64 := by
  unfold RoomStream.poll
  rw [wtRoomReadMessagesAfter_eq]
  rfl

theorem lastSentId_poll : s.poll.lastSentId =
    (s.unseen.take 64).foldl (fun _ message => message.messageId) s.lastSentId := by
  unfold RoomStream.poll
  rw [wtRoomReadMessagesAfter_eq]
  rfl

/-- Behind the last of a batch stands what comes after the batch. -/
theorem filter_after_batch {messages : List WtMessage} (h : IdsIncrease messages) {n : Nat}
    (hn : 0 < n) {lastSentId : Int} (habove : ∀ message ∈ messages, lastSentId < message.messageId) :
    lastSentId ≤ (messages.take n).foldl (fun _ message => message.messageId) lastSentId ∧
      messages.filter (fun message =>
          (messages.take n).foldl (fun _ message => message.messageId) lastSentId <
            message.messageId) = messages.drop n := by
  rcases List.eq_nil_or_concat (messages.take n) with hnil | ⟨earlier, last, htake⟩
  · obtain rfl : messages = [] := by
      cases messages with
      | nil => rfl
      | cons first rest =>
        cases n with
        | zero => omega
        | succ n => simp at hnil
    simp
  · rw [List.concat_eq_append] at htake
    rw [htake, List.foldl_append, List.foldl_cons, List.foldl_nil]
    have hsplit : messages = (earlier ++ [last]) ++ messages.drop n := by
      rw [← htake, List.take_append_drop]
    rw [hsplit] at h habove
    obtain ⟨hbatch, -, hlater⟩ := List.pairwise_append.mp h
    obtain ⟨-, -, hearlier⟩ := List.pairwise_append.mp hbatch
    have hlast := habove last (by simp)
    refine ⟨hlast.le, ?_⟩
    have hnone : (earlier ++ [last]).filter (fun message => last.messageId < message.messageId) =
        [] := by
      refine List.filter_eq_nil_iff.mpr fun message hmessage => ?_
      rcases List.mem_append.mp hmessage with hm | hm
      · have := hearlier message hm last (by simp)
        simpa using this.le
      · rw [List.mem_singleton.mp hm]
        simp
    have hall : (messages.drop n).filter (fun message => last.messageId < message.messageId) =
        messages.drop n :=
      List.filter_eq_self.mpr fun message hmessage =>
        decide_eq_true (hlater last (by simp) message hmessage)
    conv_lhs => rw [hsplit]
    rw [List.filter_append, hnone, hall, List.nil_append]

theorem unseen_poll (hinc : IdsIncrease s.messages) : s.poll.unseen = s.unseen.drop 64 := by
  have habove : ∀ message ∈ s.unseen, s.lastSentId < message.messageId :=
    fun message hmessage => of_decide_eq_true (List.mem_filter.mp hmessage).2
  have hunseen : IdsIncrease s.unseen := hinc.filter _
  obtain ⟨hle, hdrop⟩ := filter_after_batch hunseen (by decide : 0 < 64) habove
  rw [← hdrop, ← lastSentId_poll]
  rw [← lastSentId_poll] at hle
  show s.messages.filter (fun message => s.poll.lastSentId < message.messageId) = _
  rw [RoomStream.unseen, List.filter_filter]
  refine List.filter_congr fun message _ => ?_
  rw [Bool.eq_iff_iff, Bool.and_eq_true, decide_eq_true_iff, decide_eq_true_iff]
  omega

/-- The cursor stays, or moves to a message of the batch. -/
theorem lastSentId_poll_cases : s.poll.lastSentId = s.lastSentId ∨
    ∃ message ∈ s.unseen, message.messageId = s.poll.lastSentId := by
  rw [lastSentId_poll]
  rcases List.eq_nil_or_concat (s.unseen.take 64) with hnil | ⟨earlier, last, htake⟩
  · rw [hnil]
    exact .inl rfl
  · rw [List.concat_eq_append] at htake
    refine .inr ⟨last, List.mem_of_mem_take (i := 64) ?_, ?_⟩
    · simp [htake]
    · rw [htake, List.foldl_append]
      rfl

theorem exact_poll (h : s.Exact) (hinc : IdsIncrease s.messages) : s.poll.Exact := by
  have hsplit : s.poll.sent ++ s.poll.unseen = s.poll.positive := by
    rw [sent_poll, unseen_poll hinc, List.append_assoc, List.take_append_drop]
    exact h.split
  rcases lastSentId_poll_cases (s := s) with hstays | ⟨message, hmessage, hid⟩
  · exact ⟨hsplit, hstays ▸ h.nonneg, hstays ▸ h.cursor⟩
  · obtain ⟨hmem, hlt⟩ := List.mem_filter.mp hmessage
    have hnonneg := h.nonneg
    have habove := of_decide_eq_true hlt
    exact ⟨hsplit, by omega, .inr ⟨message, hmem, hid⟩⟩

end step

/-! ## Runs -/

theorem messages_step {s : RoomStream} {action : RoomAction} (h : s.Writes action) :
    s.messages <+: (s.step action).messages := by
  cases action with
  | write text =>
    obtain ⟨added, hadded⟩ := messages_write h
    rw [hadded]
    exact List.prefix_append _ _
  | poll => exact List.prefix_rfl

theorem messages_run {s : RoomStream} {actions : List RoomAction}
    (h : Along RoomStream.step RoomStream.Writes s actions) :
    s.messages <+: (run RoomStream.step s actions).messages := by
  induction actions generalizing s with
  | nil => exact List.prefix_rfl
  | cons action actions ih => exact (messages_step h.1).trans (ih h.2)

/-- Every run whose ids increase in the end keeps the stream exact. -/
theorem exact_run {s : RoomStream} (hs : s.Exact) {actions : List RoomAction}
    (h : Along RoomStream.step RoomStream.Writes s actions)
    (hinc : IdsIncrease (run RoomStream.step s actions).messages) :
    (run RoomStream.step s actions).Exact := by
  induction actions generalizing s with
  | nil => exact hs
  | cons action actions ih =>
    refine ih ?_ h.2 hinc
    cases action with
    | write text => exact exact_write hs h.1 (hinc.sublist (messages_run h.2).sublist)
    | poll => exact exact_poll hs (hinc.sublist (messages_run h.2).sublist)

/-- The stream of a client that has just connected. -/
def connectRoom (roomLog : Bytes) : RoomStream := { roomLog }

theorem messages_connect (roomLog : Bytes) :
    (connectRoom roomLog).messages = roomMessages roomLog := rfl

theorem exact_connect (roomLog : Bytes) : (connectRoom roomLog).Exact :=
  ⟨rfl, le_rfl, .inl rfl⟩

/-- So many polls, with nothing written between them, send what has not been sent. -/
theorem sent_polls {s : RoomStream} (hs : s.Exact) (hinc : IdsIncrease s.messages) {n : Nat}
    (hn : s.unseen.length ≤ 64 * n) :
    (run RoomStream.step s (List.replicate n .poll)).sent = s.positive := by
  induction n generalizing s with
  | zero =>
    have hunseen : s.unseen = [] := List.eq_nil_of_length_eq_zero (by omega)
    have hsplit := hs.split
    rwa [hunseen, List.append_nil] at hsplit
  | succ n ih =>
    refine ih (exact_poll hs hinc) hinc ?_
    show s.poll.unseen.length ≤ 64 * n
    rw [unseen_poll hinc, List.length_drop]
    omega

/-- **While the ids of the log increase, whatever is written and polled in between, what has been
sent and what has not are together the messages with a positive id, each once and in order; and
one poll for every 64 of them sends those that are left.** -/
theorem stream_exact {roomLog : Bytes} {actions : List RoomAction}
    (h : Along RoomStream.step RoomStream.Writes (connectRoom roomLog) actions)
    (hinc : IdsIncrease (run RoomStream.step (connectRoom roomLog) actions).messages) :
    let s := run RoomStream.step (connectRoom roomLog) actions
    s.sent ++ s.unseen = s.positive ∧
      ∀ n, s.unseen.length ≤ 64 * n →
        (run RoomStream.step s (List.replicate n .poll)).sent = s.positive := by
  have hexact := exact_run (exact_connect roomLog) h hinc
  exact ⟨hexact.split, fun _ hn => sent_polls hexact hinc hn⟩

def idLine (id : String) : Bytes :=
  bytes ("\x7b\"messageId\":" ++ id ++ ",\"roomName\":\"r\",\"senderName\":\"s\"," ++
    "\"targetName\":\"t\",\"messageType\":\"c\",\"messageBody\":\"b\"," ++
    "\"createdAtUnixMs\":1,\"replyToMessageId\":0\x7d\n")

theorem idLine_messages : ∀ id ∈ ["0", "1"],
    (roomMessages (idLine id)).map WtMessage.messageId = [if id = "0" then 0 else 1] := by
  decide +kernel

theorem idLine_increase : ∀ id ∈ ["0", "1"], IdsIncrease (roomMessages (idLine id)) := by
  intro id hid
  have hpairs : ((roomMessages (idLine id)).map WtMessage.messageId).Pairwise (· < ·) := by
    rw [idLine_messages id hid]
    exact List.pairwise_singleton _ _
  exact List.pairwise_map.mp hpairs

theorem stream_exact_first :
    let s := run RoomStream.step (connectRoom (idLine "1")) []
    s.sent ++ s.unseen = s.positive ∧
      ∀ n, s.unseen.length ≤ 64 * n →
        (run RoomStream.step s (List.replicate n .poll)).sent = s.positive := by
  refine @stream_exact (idLine "1") [] trivial ?_
  rw [run_nil, messages_connect]
  exact idLine_increase "1" (by simp)

/-- A message with the id 0 is never sent. -/
theorem not_stream_all : ¬ ∀ (roomLog : Bytes) (actions : List RoomAction),
    Along RoomStream.step RoomStream.Writes (connectRoom roomLog) actions →
    IdsIncrease (run RoomStream.step (connectRoom roomLog) actions).messages →
    ∃ n, (run RoomStream.step (run RoomStream.step (connectRoom roomLog) actions)
      (List.replicate n .poll)).sent =
        (run RoomStream.step (connectRoom roomLog) actions).messages := by
  intro hall
  have hinc : IdsIncrease (connectRoom (idLine "0")).messages := by
    rw [messages_connect]
    exact idLine_increase "0" (by simp)
  have hzero : (connectRoom (idLine "0")).unseen = [] ∧
      (connectRoom (idLine "0")).positive = [] ∧
      (connectRoom (idLine "0")).messages ≠ [] := by
    decide +kernel
  have hexact := exact_connect (idLine "0")
  specialize hall (idLine "0") [] trivial
  rw [run_nil] at hall
  generalize connectRoom (idLine "0") = s at *
  obtain ⟨n, hsent⟩ := hall hinc
  have hnone := sent_polls hexact hinc (n := n) (by rw [hzero.1]; exact Nat.zero_le _)
  rw [hzero.2.1] at hnone
  exact hzero.2.2 (hsent.symm.trans hnone)

end WovenTeam

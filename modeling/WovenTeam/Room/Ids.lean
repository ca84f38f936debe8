import WovenTeam.Lib.Runs
import WovenTeam.Room.Codec
import WovenTeam.Store.Append

/-!
# Message ids

`wtRoomAppendNewMessage` reads back every line of the room log, takes the id after the largest one
it found, prints the message with it and writes the line, all under the log's lock. Whether the
ids are unique rests on every line being readable. `no_message_lost`: in a run whose accepted
messages fit their buffers when they are read back, each of them is a message of the log with the
id it was given, and the ids increase.
-/

namespace WovenTeam

open CText QuotedText LineReader Runs

/-! ## The log as messages -/

/-- The messages that can be read from the log, in file order. -/
def roomMessages (roomLog : Bytes) : List WtMessage :=
  (fgetsLines wtMessageJsonSize roomLog).filterMap wtMessageFromJsonLine

def IdsIncrease (messages : List WtMessage) : Prop :=
  messages.Pairwise fun earlier later => earlier.messageId < later.messageId

section log

variable {roomLog : Bytes}

/-- What is appended at a line start adds its own messages. -/
theorem roomMessages_append (h : AtLineStart wtMessageJsonSize roomLog) (text : Bytes) :
    roomMessages (roomLog ++ text) = roomMessages roomLog ++ roomMessages text := by
  unfold roomMessages
  rw [fgetsLines_append h, List.filterMap_append]

theorem wtMessageFromJsonLine_newline : wtMessageFromJsonLine [newline] = none := by decide

/-- A printed message with its newline is one message, or none where it cannot be read back. -/
theorem roomMessages_record {message : WtMessage} {json : Members} (hid : Int64 message.messageId)
    (htime : Int64 message.createdAtUnixMs) (hreply : Int64 message.replyToMessageId)
    (h : wtMessageToJson message wtMessageJsonSize = some json) :
    roomMessages (json.object ++ [newline]) = message.readBack.toList := by
  have hread : ∀ {tail : Bytes}, quote ∉ tail →
      wtMessageFromJsonLine (json.object ++ tail) = message.readBack :=
    fun ht => wtMessageFromJsonLine_toJson hid htime hreply h ht
  have hlen := wtMessageToJson_fits h
  have hnl := json.newline_notMem_object
  unfold roomMessages
  by_cases hfull : json.object.length + 1 = wtMessageJsonSize
  · -- the line fills the buffer, and its newline is a line of its own
    have hone : wtMessageFromJsonLine json.object = message.readBack := by
      have := hread (List.not_mem_nil : quote ∉ [])
      rwa [List.append_nil] at this
    have hlines : fgetsLines wtMessageJsonSize [newline] = [[newline]] := by decide
    rw [fgetsLines_full_record hnl hfull (by decide) [], hlines]
    cases hback : message.readBack with
    | none => simp [hone, hback, wtMessageFromJsonLine_newline]
    | some m => simp [hone, hback, wtMessageFromJsonLine_newline]
  · have hnil : fgetsLines wtMessageJsonSize [] = [] := by decide
    rw [fgetsLines_record hnl (by omega) [], hnil]
    have hone := hread quote_notMem_newline
    cases hback : message.readBack with
    | none => simp [hone, hback]
    | some m => simp [hone, hback]

theorem wtRoomReadLastMessageId_eq (roomLog : Bytes) :
    wtRoomReadLastMessageId roomLog =
      ((roomMessages roomLog).map WtMessage.messageId).foldl max 0 := by
  unfold wtRoomReadLastMessageId roomMessages
  rw [List.foldl_map, List.foldl_filterMap]
  congr 1
  funext lastId line
  cases wtMessageFromJsonLine line with
  | none => rfl
  | some message =>
    show (if message.messageId > lastId then message.messageId else lastId) =
      max lastId message.messageId
    split <;> omega

theorem le_foldl_max {start n : Int} {ids : List Int} (h : n ≤ start ∨ n ∈ ids) :
    n ≤ ids.foldl max start := by
  induction ids generalizing start with
  | nil => simpa using h
  | cons id ids ih =>
    refine ih ?_
    rcases h with h | h
    · exact .inl (h.trans (le_max_left start id))
    · rcases List.mem_cons.mp h with rfl | h
      · exact .inl (le_max_right start n)
      · exact .inr h

theorem lastMessageId_nonneg (roomLog : Bytes) : 0 ≤ wtRoomReadLastMessageId roomLog := by
  rw [wtRoomReadLastMessageId_eq]
  exact le_foldl_max (.inl le_rfl)

theorem le_lastMessageId {message : WtMessage} (h : message ∈ roomMessages roomLog) :
    message.messageId ≤ wtRoomReadLastMessageId roomLog := by
  rw [wtRoomReadLastMessageId_eq]
  exact le_foldl_max (.inr (List.mem_map_of_mem h))

end log

/-! ## Appending -/

/-- A call: a message as C holds it, the time, whether to sync. -/
structure NewMessage where
  message : WtMessage
  valid : message.Valid
  now : Int
  int64 : Int64 now
  fsyncEachMessage : Bool := false

/-- The message with the id and the time it is given. -/
def NewMessage.stamped (call : NewMessage) (roomLog : Bytes) : WtMessage :=
  { call.message with
    messageId := wrap64 (wtRoomReadLastMessageId roomLog + 1)
    createdAtUnixMs :=
      if call.message.createdAtUnixMs = 0 then call.now else call.message.createdAtUnixMs }

/-- The message as the caller gets it back and the log behind the call, where it returns 0. -/
def wtRoomAppendNewMessage (roomLog : Bytes) (call : NewMessage) : Option (WtMessage × Bytes) := do
  let json ← newMessageJson roomLog call.message call.now
  let writes : Writes := ⟨json.object.length, true, true⟩
  return (call.stamped roomLog, (writeRecord roomLog json.object writes call.fsyncEachMessage).1)

def roomStep (roomLog : Bytes) (call : NewMessage) : Bytes :=
  ((wtRoomAppendNewMessage roomLog call).map Prod.snd).getD roomLog

/-- Every field of the message fits its buffer when it is read back: five bytes for each control byte
but the newline, the return and the tab. -/
structure WtMessage.Readable (message : WtMessage) : Prop where
  roomName : (reread message.roomName).length < wtMessageNameSize
  senderName : (reread message.senderName).length < wtMessageNameSize
  targetName : (reread message.targetName).length < wtMessageNameSize
  messageType : (reread message.messageType).length < wtMessageTypeSize
  messageBody : (reread message.messageBody).length < wtMessageBodySize

/-- An accepted message is readable, and there is an id for it. -/
def StaysReadable (roomLog : Bytes) (call : NewMessage) : Prop :=
  (wtRoomAppendNewMessage roomLog call).isSome → call.message.Readable ∧
    wtRoomReadLastMessageId roomLog + 1 < 2 ^ 63

/-- What the log keeps of a call that returned 0: behind the messages it found, one with the id it
gave. -/
def NewMessage.Kept (call : NewMessage) (found final : Bytes) : Prop :=
  ∀ stamped written, wtRoomAppendNewMessage found call = some (stamped, written) →
    ∃ message later, roomMessages final = roomMessages found ++ message :: later ∧
      message.messageId = stamped.messageId

section step

variable {roomLog : Bytes} {call : NewMessage}

theorem readBack_of_readable {message : WtMessage} (h : message.Readable) :
    ∃ message', message.readBack = some message' ∧ message'.messageId = message.messageId := by
  unfold WtMessage.readBack fitting
  rw [if_pos h.roomName, if_pos h.senderName, if_pos h.targetName, if_pos h.messageType,
    if_pos h.messageBody]
  exact ⟨_, rfl, rfl⟩

/-- A call that returns 0 has printed the stamped message and written it with its newline. -/
theorem append_eq_some {stamped : WtMessage} {written : Bytes}
    (h : wtRoomAppendNewMessage roomLog call = some (stamped, written)) :
    ∃ json, wtMessageToJson (call.stamped roomLog) wtMessageJsonSize = some json ∧
      stamped = call.stamped roomLog ∧ written = roomLog ++ (json.object ++ [newline]) := by
  obtain ⟨json, hjson, h⟩ := Option.bind_eq_some_iff.mp h
  cases h
  refine ⟨json, hjson, rfl, ?_⟩
  simp [writeRecord]

/-- **A call that returns 0 adds its message, as it can be read back, behind the others.** -/
theorem roomMessages_append_new {stamped : WtMessage} {written : Bytes}
    (hstart : AtLineStart wtMessageJsonSize roomLog)
    (h : wtRoomAppendNewMessage roomLog call = some (stamped, written)) :
    AtLineStart wtMessageJsonSize written ∧
      roomMessages written = roomMessages roomLog ++ (call.stamped roomLog).readBack.toList := by
  obtain ⟨json, hjson, -, rfl⟩ := append_eq_some h
  have htime : Int64 (call.stamped roomLog).createdAtUnixMs := by
    unfold NewMessage.stamped
    dsimp only
    split
    · exact call.int64
    · exact call.valid.createdAtUnixMs
  refine ⟨?_, ?_⟩
  · rw [← List.append_assoc]
    exact atLineStart_newline _
  · rw [roomMessages_append hstart,
      roomMessages_record (int64_wrap64 _) htime call.valid.replyToMessageId hjson]

/-- The log is at a line start and its ids increase. -/
structure RoomOrdered (roomLog : Bytes) : Prop where
  atLineStart : AtLineStart wtMessageJsonSize roomLog
  increase : IdsIncrease (roomMessages roomLog)

theorem stamped_readBack (hreadable : call.message.Readable)
    (hid : wtRoomReadLastMessageId roomLog + 1 < 2 ^ 63) :
    ∃ message, (call.stamped roomLog).readBack = some message ∧
      message.messageId = wtRoomReadLastMessageId roomLog + 1 ∧
      message.messageId = (call.stamped roomLog).messageId := by
  have hlast := lastMessageId_nonneg roomLog
  have hwrap : (call.stamped roomLog).messageId = wtRoomReadLastMessageId roomLog + 1 :=
    wrap64_of_range (by omega)
  have hfields : (call.stamped roomLog).Readable :=
    ⟨hreadable.roomName, hreadable.senderName, hreadable.targetName, hreadable.messageType,
      hreadable.messageBody⟩
  obtain ⟨message, hback, hmessage⟩ := readBack_of_readable hfields
  exact ⟨message, hback, hmessage.trans hwrap, hmessage⟩

/-- Every call adds to the messages of the log, and keeps it ordered where its message is readable. -/
theorem roomOrdered_step (h : RoomOrdered roomLog) (hcall : StaysReadable roomLog call) :
    RoomOrdered (roomStep roomLog call) ∧ call.Kept roomLog (roomStep roomLog call) ∧
      roomMessages roomLog <+: roomMessages (roomStep roomLog call) := by
  unfold roomStep NewMessage.Kept
  cases happend : wtRoomAppendNewMessage roomLog call with
  | none =>
    refine ⟨h, ?_, List.prefix_rfl⟩
    intro stamped written hsome
    cases hsome
  | some result =>
    obtain ⟨stamped, written⟩ := result
    obtain ⟨hreadable, hid⟩ := hcall (by rw [happend]; rfl)
    obtain ⟨hstart, hmessages⟩ := roomMessages_append_new h.atLineStart happend
    obtain ⟨json, -, rfl, -⟩ := append_eq_some happend
    obtain ⟨message, hback, hnew, hgiven⟩ := stamped_readBack hreadable hid
    rw [hback, Option.toList_some] at hmessages
    have hincrease : IdsIncrease (roomMessages written) := by
      rw [hmessages]
      refine List.pairwise_append.mpr ⟨h.increase, List.pairwise_singleton _ _, ?_⟩
      intro earlier hearlier later hlater
      rw [List.mem_singleton.mp hlater, hnew]
      have := le_lastMessageId hearlier
      omega
    simp only [Option.map_some, Option.getD_some]
    refine ⟨⟨hstart, hincrease⟩, ?_, ?_⟩
    · rintro stamped' written' hsome
      cases hsome
      exact ⟨message, [], hmessages, hgiven⟩
    · rw [hmessages]
      exact List.prefix_append _ _

end step

/-! ## Runs -/

/-- The log only gains messages, and stays ordered. -/
theorem roomOrdered_run {roomLog : Bytes} {calls : List NewMessage} (h : RoomOrdered roomLog)
    (hcalls : Along roomStep StaysReadable roomLog calls) :
    RoomOrdered (run roomStep roomLog calls) ∧
      roomMessages roomLog <+: roomMessages (run roomStep roomLog calls) := by
  induction calls generalizing roomLog with
  | nil => exact ⟨h, List.prefix_rfl⟩
  | cons call calls ih =>
    obtain ⟨hordered, -, hgrows⟩ := roomOrdered_step h hcalls.1
    obtain ⟨hfinal, hrest⟩ := ih hordered hcalls.2
    exact ⟨hfinal, hgrows.trans hrest⟩

/-- **In a run of calls whose accepted messages are readable, from an ordered log such as an empty
one, the ids increase in file order, and each accepted message is in the log with the id it was
given.** -/
theorem no_message_lost {roomLog : Bytes} (h : RoomOrdered roomLog) {calls : List NewMessage}
    (hcalls : Along roomStep StaysReadable roomLog calls) :
    IdsIncrease (roomMessages (run roomStep roomLog calls)) ∧
      ∀ before call after, calls = before ++ call :: after →
        call.Kept (run roomStep roomLog before) (run roomStep roomLog calls) := by
  refine ⟨(roomOrdered_run h hcalls).1.increase, ?_⟩
  rintro before call after rfl
  have hfound := (roomOrdered_run h hcalls.before_cut).1
  obtain ⟨hordered, hkept, -⟩ := roomOrdered_step hfound hcalls.at_cut
  have hafter : Along roomStep StaysReadable (roomStep (run roomStep roomLog before) call) after :=
    hcalls.after_cut
  obtain ⟨more, hmore⟩ := (roomOrdered_run hordered hafter).2
  intro stamped written happend
  obtain ⟨message, later, hmessages, hid⟩ := hkept stamped written happend
  refine ⟨message, later ++ more, ?_, hid⟩
  rw [run_append, run_cons, ← hmore, hmessages, List.append_assoc, List.cons_append]

theorem roomOrdered_nil : RoomOrdered [] := ⟨atLineStart_nil, List.Pairwise.nil⟩

/-- A chat message, as the daemon appends one. -/
def chatCall (messageBody : Bytes) (h : messageBody.length < wtMessageBodySize) : NewMessage where
  message := chatMessage messageBody
  valid := chatMessage_valid h
  now := 1
  int64 := by decide

theorem chatCall_staysReadable {h : [1].length < wtMessageBodySize} :
    Along roomStep StaysReadable [] [chatCall [1] h] := by
  have hnames : (reread (bytes "phase0")).length < wtMessageNameSize ∧
      (reread (bytes "system")).length < wtMessageNameSize ∧
      (reread (bytes "all")).length < wtMessageNameSize ∧
      (reread (bytes "chat")).length < wtMessageTypeSize ∧
      (reread [1]).length < wtMessageBodySize := by decide
  exact ⟨fun _ => ⟨⟨hnames.1, hnames.2.1, hnames.2.2.1, hnames.2.2.2.1, hnames.2.2.2.2⟩,
    by decide⟩, trivial⟩

theorem no_message_lost_first :
    (chatCall [1] (by decide)).Kept [] (run roomStep [] [chatCall [1] (by decide)]) :=
  (no_message_lost roomOrdered_nil chatCall_staysReadable).2 [] _ [] rfl

def controlBytes : Bytes := List.replicate 820 1

theorem length_controlBytes : controlBytes.length < wtMessageBodySize := by
  rw [controlBytes, List.length_replicate]
  decide

def controlCall : NewMessage := chatCall controlBytes length_controlBytes

/-- A body of 820 bytes 1 is printed and cannot be read back: its id is given again. -/
theorem not_no_message_lost : ¬ ∀ (calls before after : List NewMessage) (call : NewMessage),
    calls = before ++ call :: after →
      call.Kept (run roomStep [] before) (run roomStep [] calls) := by
  intro hall
  have hcall : (wtRoomAppendNewMessage [] controlCall).isSome ∧
      (controlCall.stamped []).readBack = none := by
    decide +kernel
  obtain ⟨⟨stamped, written⟩, happend⟩ := Option.isSome_iff_exists.mp hcall.1
  obtain ⟨message, later, hmessages, -⟩ :=
    hall [controlCall] [] [] _ rfl stamped written happend
  have hlog : run roomStep [] [controlCall] = written := by
    rw [run_cons, roomStep, happend]
    rfl
  rw [hlog, (roomMessages_append_new atLineStart_nil happend).2, hcall.2] at hmessages
  cases hmessages

end WovenTeam

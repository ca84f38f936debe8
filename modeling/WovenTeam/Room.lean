import WovenTeam.Store.Records

/-!
# Room messages

`wt_message.c` and the reading side of `wt_room_store.c`: a message is one printed record in the
room log, and a line of the log is a message where every field can be read back.
-/

namespace WovenTeam

open CText QuotedText LineReader

abbrev wtMessageBodySize : Nat := 4096
abbrev wtMessageJsonSize : Nat := 8192
abbrev wtMessageNameSize : Nat := 64
abbrev wtMessageTypeSize : Nat := 48

structure WtMessage where
  messageId : Int := 0
  roomName : Bytes := bytes "phase0"
  senderName : Bytes := bytes "system"
  targetName : Bytes := bytes "all"
  messageType : Bytes := bytes "chat"
  messageBody : Bytes := []
  createdAtUnixMs : Int := 0
  replyToMessageId : Int := 0
  deriving DecidableEq, Repr

def messageRecord (message : WtMessage) (roomName senderName targetName messageType
    messageBody : Literal) : Members :=
  num "messageId" message.messageId ++ str "roomName" roomName ++
  str "senderName" senderName ++
  str "targetName" targetName ++ str "messageType" messageType ++
  str "messageBody" messageBody ++
  num "createdAtUnixMs" message.createdAtUnixMs ++
  num "replyToMessageId" message.replyToMessageId "\x7d"

/-- The message as a record, or nothing where a field or the whole does not fit its buffer. -/
def wtMessageToJson (message : WtMessage) (bufferSize : Nat) : Option Members := do
  let roomName ← wtJsonEscape message.roomName (wtMessageNameSize * 2)
  let senderName ← wtJsonEscape message.senderName (wtMessageNameSize * 2)
  let targetName ← wtJsonEscape message.targetName (wtMessageNameSize * 2)
  let messageType ← wtJsonEscape message.messageType (wtMessageTypeSize * 2)
  let messageBody ← wtJsonEscape message.messageBody (wtMessageBodySize * 2)
  let json := messageRecord message roomName senderName targetName messageType messageBody
  if json.object.length < bufferSize then some json else none

theorem wtMessageToJson_fits {message : WtMessage} {bufferSize : Nat} {json : Members}
    (h : wtMessageToJson message bufferSize = some json) : json.object.length < bufferSize := by
  simp only [wtMessageToJson, Option.bind_eq_bind, Option.bind_eq_some_iff] at h
  obtain ⟨_, -, _, -, _, -, _, -, _, -, h⟩ := h
  split at h
  · cases h
    assumption
  · cases h

def wtMessageFromJsonLine (line : Bytes) : Option WtMessage := do
  let messageId ← wtJsonReadLong line "messageId"
  let roomName ← (wtJsonReadString line "roomName" wtMessageNameSize).toOption
  let senderName ← (wtJsonReadString line "senderName" wtMessageNameSize).toOption
  let targetName ← (wtJsonReadString line "targetName" wtMessageNameSize).toOption
  let messageType ← (wtJsonReadString line "messageType" wtMessageTypeSize).toOption
  let messageBody ← (wtJsonReadString line "messageBody" wtMessageBodySize).toOption
  let createdAtUnixMs ← wtJsonReadLongLong line "createdAtUnixMs"
  let replyToMessageId ← wtJsonReadLong line "replyToMessageId"
  return { messageId, roomName, senderName, targetName, messageType, messageBody,
           createdAtUnixMs, replyToMessageId }

/-- The largest id of the log's messages, 0 where there is none. -/
def wtRoomReadLastMessageId (roomLog : Bytes) : Int :=
  (fgetsLines wtMessageJsonSize roomLog).foldl (fun lastId line =>
    match wtMessageFromJsonLine line with
    | some message => if message.messageId > lastId then message.messageId else lastId
    | none => lastId) 0

end WovenTeam

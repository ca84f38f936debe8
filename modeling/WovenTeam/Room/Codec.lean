import WovenTeam.Room

/-!
# The message codec

`wtMessageToJson` and `wtMessageFromJsonLine`. No text of a field can pass for another field: a
printed message is read back field by field (`wtMessageFromJsonLine_toJson`). What comes back of a
field is not always what was printed, for the escape `\u00XX` of a control byte is read as the
letter `u` and its digits. `roundTrip_iff`: a message is read back as it was printed exactly where
its fields have no control bytes other than the newline, the return and the tab.
-/

namespace WovenTeam

open CText QuotedText

/-! ## Reading a printed message -/

/-- Text that fits a buffer with its terminator. -/
def fitting (size : Nat) (text : Bytes) : Option Bytes :=
  if text.length < size then some text else none

/-- What is read of a message that was printed, where it can be read. -/
def WtMessage.readBack (message : WtMessage) : Option WtMessage := do
  let roomName ← fitting wtMessageNameSize (reread message.roomName)
  let senderName ← fitting wtMessageNameSize (reread message.senderName)
  let targetName ← fitting wtMessageNameSize (reread message.targetName)
  let messageType ← fitting wtMessageTypeSize (reread message.messageType)
  let messageBody ← fitting wtMessageBodySize (reread message.messageBody)
  return { message with roomName, senderName, targetName, messageType, messageBody }

/-- A message as C holds one: strings terminated within their buffers, numbers of 64 bits. -/
structure WtMessage.Valid (message : WtMessage) : Prop where
  messageId : Int64 message.messageId
  roomName : message.roomName.length < wtMessageNameSize
  senderName : message.senderName.length < wtMessageNameSize
  targetName : message.targetName.length < wtMessageNameSize
  messageType : message.messageType.length < wtMessageTypeSize
  messageBody : message.messageBody.length < wtMessageBodySize
  createdAtUnixMs : Int64 message.createdAtUnixMs
  replyToMessageId : Int64 message.replyToMessageId

section read

variable {message : WtMessage} {a b c d e : Literal} {tail : Bytes}

/-- One string of a printed message. -/
theorem toOption_field {key : String} (hkey : FieldKey key) (ht : quote ∉ tail) {v : Literal}
    {text f : Bytes} {js : List Item} {size : Nat} (hsize : 0 < size)
    (hl : lookup (bytes key) (messageRecord message a b c d e).items =
      some (render (⟨v.text, f⟩ :: js))) (hv : unescape v.text = reread text) :
    (wtJsonReadString ((messageRecord message a b c d e).object ++ tail) key size).toOption =
      fitting size (reread text) := by
  rw [toOption_object hkey ht hl hsize, hv]
  rfl

/-- **A printed message is read back field by field, whatever its texts are.** -/
theorem wtMessageFromJsonLine_toJson {bufferSize : Nat} {json : Members}
    (hid : Int64 message.messageId) (htime : Int64 message.createdAtUnixMs)
    (hreply : Int64 message.replyToMessageId)
    (h : wtMessageToJson message bufferSize = some json) (ht : quote ∉ tail) :
    wtMessageFromJsonLine (json.object ++ tail) = message.readBack := by
  simp only [wtMessageToJson, Option.bind_eq_bind, Option.bind_eq_some_iff] at h
  obtain ⟨a, ha, b, hb, c, hc, d, hd, e, he, h⟩ := h
  split at h
  swap
  · cases h
  cases h
  unfold wtMessageFromJsonLine
  have hcomma : ([comma] : Bytes).head?.map isDigit = some false := rfl
  have hbrace : ([125] : Bytes).head?.map isDigit = some false := rfl
  rw [wtJsonReadLong_object (.of_check rfl) ht hid (by rfl) hcomma,
    toOption_field (.of_check rfl) ht (by decide) (v := a) rfl (wtJsonEscape_eq ha).1,
    toOption_field (.of_check rfl) ht (by decide) (v := b) rfl (wtJsonEscape_eq hb).1,
    toOption_field (.of_check rfl) ht (by decide) (v := c) rfl (wtJsonEscape_eq hc).1,
    toOption_field (.of_check rfl) ht (by decide) (v := d) rfl (wtJsonEscape_eq hd).1,
    toOption_field (.of_check rfl) ht (by decide) (v := e) rfl (wtJsonEscape_eq he).1,
    wtJsonReadLongLong,
    wtJsonReadLong_object (.of_check rfl) ht htime (by rfl) hcomma,
    wtJsonReadLong_object (.of_check rfl) ht hreply (by rfl) hbrace]
  rfl

end read

/-- White space at the end of a line changes nothing. -/
theorem wtMessageFromJsonLine_append {line tail : Bytes} (ht : ∀ b ∈ tail, isSpace b) :
    wtMessageFromJsonLine (line ++ tail) = wtMessageFromJsonLine line := by
  have hlong : ∀ key, KeyFits key →
      wtJsonReadLong (line ++ tail) key = wtJsonReadLong line key :=
    fun _ hkey => wtJsonReadLong_append hkey ht
  have hstring : ∀ key size, KeyFits key →
      (wtJsonReadString (line ++ tail) key size).toOption =
        (wtJsonReadString line key size).toOption :=
    fun _ size hkey => wtJsonReadString_append hkey ht size
  unfold wtMessageFromJsonLine
  simp only [wtJsonReadLongLong]
  rw [hlong _ (by decide), hstring _ _ (by decide), hstring _ _ (by decide),
    hstring _ _ (by decide), hstring _ _ (by decide), hstring _ _ (by decide),
    hlong _ (by decide), hlong _ (by decide)]

/-! ## The round trip -/

/-- No field has a control byte but the newline, the return and the tab. -/
structure WtMessage.Decodes (message : WtMessage) : Prop where
  roomName : WovenTeam.Decodes message.roomName
  senderName : WovenTeam.Decodes message.senderName
  targetName : WovenTeam.Decodes message.targetName
  messageType : WovenTeam.Decodes message.messageType
  messageBody : WovenTeam.Decodes message.messageBody

theorem fitting_eq_some {size : Nat} {text value : Bytes} :
    fitting size text = some value ↔ text.length < size ∧ text = value := by
  simp [fitting]

theorem readBack_eq_some {message message' : WtMessage} (h : message.readBack = some message') :
    message' = { message with
      roomName := reread message.roomName
      senderName := reread message.senderName
      targetName := reread message.targetName
      messageType := reread message.messageType
      messageBody := reread message.messageBody } := by
  simp only [WtMessage.readBack, Option.bind_eq_bind, Option.bind_eq_some_iff,
    fitting_eq_some] at h
  obtain ⟨_, ⟨-, rfl⟩, _, ⟨-, rfl⟩, _, ⟨-, rfl⟩, _, ⟨-, rfl⟩, _, ⟨-, rfl⟩, h⟩ := h
  exact (Option.some.inj h).symm

theorem readBack_eq_self_iff {message : WtMessage} (hvalid : message.Valid) :
    message.readBack = some message ↔ message.Decodes := by
  constructor
  · intro h
    have hback := readBack_eq_some h
    exact ⟨reread_eq_self_iff.mp (congrArg WtMessage.roomName hback).symm,
      reread_eq_self_iff.mp (congrArg WtMessage.senderName hback).symm,
      reread_eq_self_iff.mp (congrArg WtMessage.targetName hback).symm,
      reread_eq_self_iff.mp (congrArg WtMessage.messageType hback).symm,
      reread_eq_self_iff.mp (congrArg WtMessage.messageBody hback).symm⟩
  · intro h
    have hfit : ∀ {size : Nat} {text : Bytes}, WovenTeam.Decodes text → text.length < size →
        fitting size (reread text) = some text := fun hd hlt =>
      fitting_eq_some.mpr (by rw [reread_eq_self_iff.mpr hd]; exact ⟨hlt, rfl⟩)
    unfold WtMessage.readBack
    rw [hfit h.roomName hvalid.roomName, hfit h.senderName hvalid.senderName,
      hfit h.targetName hvalid.targetName, hfit h.messageType hvalid.messageType,
      hfit h.messageBody hvalid.messageBody]
    rfl

/-- **A message that is printed is read back as it was exactly where none of its fields has another
control byte than the newline, the return and the tab.** -/
theorem roundTrip_iff {message : WtMessage} (hvalid : message.Valid) {bufferSize : Nat}
    {json : Members} (h : wtMessageToJson message bufferSize = some json) :
    wtMessageFromJsonLine json.object = some message ↔ message.Decodes := by
  have hread := wtMessageFromJsonLine_toJson hvalid.messageId hvalid.createdAtUnixMs
    hvalid.replyToMessageId h (List.not_mem_nil : quote ∉ [])
  rw [List.append_nil] at hread
  rw [hread, readBack_eq_self_iff hvalid]

/-- A message with the names `wtMessageInit` sets. -/
def chatMessage (messageBody : Bytes) : WtMessage := { messageBody }

theorem chatMessage_valid {messageBody : Bytes} (h : messageBody.length < wtMessageBodySize) :
    (chatMessage messageBody).Valid := by
  have hzero : Int64 0 := by decide
  have hname : (bytes "phase0").length < wtMessageNameSize ∧
      (bytes "system").length < wtMessageNameSize ∧ (bytes "all").length < wtMessageNameSize ∧
      (bytes "chat").length < wtMessageTypeSize := by decide
  exact ⟨hzero, hname.1, hname.2.1, hname.2.2.1, hname.2.2.2, h, hzero, hzero⟩

theorem chatMessage_prints : ∀ b ∈ [1, quote],
    ∃ json, wtMessageToJson (chatMessage [b]) wtMessageJsonSize = some json := by
  have hprints : ∀ b ∈ [1, quote],
      (wtMessageToJson (chatMessage [b]) wtMessageJsonSize).isSome := by
    decide +kernel
  exact fun b hb => Option.isSome_iff_exists.mp (hprints b hb)

theorem roundTrip_quote :
    ∃ json, wtMessageToJson (chatMessage [quote]) wtMessageJsonSize = some json ∧
      wtMessageFromJsonLine json.object = some (chatMessage [quote]) := by
  obtain ⟨json, h⟩ := chatMessage_prints quote (by simp)
  exact ⟨json, h, (roundTrip_iff (chatMessage_valid (by decide)) h).mpr
    ⟨by decide +kernel, by decide +kernel, by decide +kernel, by decide +kernel,
      by decide +kernel⟩⟩

/-- The byte 1 comes back as `u0001`. -/
theorem not_roundTrip : ¬ ∀ (message : WtMessage) (bufferSize : Nat) (json : Members),
    message.Valid → wtMessageToJson message bufferSize = some json →
      wtMessageFromJsonLine json.object = some message := by
  intro hall
  obtain ⟨json, h⟩ := chatMessage_prints 1 (by simp)
  have hvalid : (chatMessage [1]).Valid := chatMessage_valid (by decide)
  have hback := hall (chatMessage [1]) _ json hvalid h
  have hread := wtMessageFromJsonLine_toJson hvalid.messageId hvalid.createdAtUnixMs
    hvalid.replyToMessageId h (List.not_mem_nil : quote ∉ [])
  rw [List.append_nil, hback] at hread
  exact absurd hread (by decide)

end WovenTeam

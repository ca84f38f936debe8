import WovenTeam.Lib.JsonText
import WovenTeam.Room.Recent

/-!
# The messages of the room as JSON

`sendMessagesJson` reads the last messages of the log and writes them into a buffer from the oldest
on, until one does not fit. `sendsTheLast_iff`: what it sends are the last messages of the log
where each of those it read can be printed and all fit the buffer; what does not fit is left out at
the wrong end.
-/

namespace WovenTeam

open CText QuotedText JsonText

/-! ## The handler -/

abbrev messagesBodySize : Nat := wtMessageJsonSize * 4

/-- The record of a message, whatever its length, where every field can be escaped. -/
def escapedRecord (message : WtMessage) : Option Members := do
  let roomName ← wtJsonEscape message.roomName (wtMessageNameSize * 2)
  let senderName ← wtJsonEscape message.senderName (wtMessageNameSize * 2)
  let targetName ← wtJsonEscape message.targetName (wtMessageNameSize * 2)
  let messageType ← wtJsonEscape message.messageType (wtMessageTypeSize * 2)
  let messageBody ← wtJsonEscape message.messageBody (wtMessageBodySize * 2)
  return messageRecord message roomName senderName targetName messageType messageBody

/-- What stands in the buffer `json` when `wtMessageToJson` has returned: the record, cut where it
is too long, or what stood there before where a field cannot be escaped. -/
def messageText (stale : Bytes) (message : WtMessage) : Bytes :=
  snprintf wtMessageJsonSize (((escapedRecord message).map Members.object).getD stale)

/-- The loop from a message on: the text then, and the index it stops at. -/
def sendLoop (stale : Nat → Bytes) : Nat → Bytes → List WtMessage → Bytes × Nat
  | index, body, [] => (body, index)
  | index, body, message :: messages =>
    let json := messageText (stale index) message
    if body.length + json.length + 3 ≥ messagesBodySize then (body, index)
    else
      let body := if index > 0 then body ++ [comma] else body
      sendLoop stale (index + 1) (body ++ json) messages

/-- The body of the response, and how many messages are in it. `stale index` is what the buffer of
one message holds before message number `index` is printed into it. -/
def sendMessagesJson (stale : Nat → Bytes) (roomLog : Option Bytes) (limit : Int) : Bytes × Nat :=
  let messages := (wtRoomReadRecent roomLog limit 256).2
  let (body, sent) := sendLoop stale 0 [91] messages
  (body ++ [93], sent)

/-! ## The loop -/

/-- The texts of messages from an index on. -/
def messageTexts (stale : Nat → Bytes) : Nat → List WtMessage → List Bytes
  | _, [] => []
  | index, message :: messages =>
    messageText (stale index) message :: messageTexts stale (index + 1) messages

section loop

variable {stale : Nat → Bytes}

theorem length_messageTexts (index : Nat) (messages : List WtMessage) :
    (messageTexts stale index messages).length = messages.length := by
  induction messages generalizing index with
  | nil => rfl
  | cons message messages ih => rw [messageTexts, List.length_cons, List.length_cons, ih]

theorem length_messageText_lt (text : Bytes) (message : WtMessage) :
    (messageText text message).length < wtMessageJsonSize :=
  snprintf_length_lt _ (by decide)

theorem le_sendLoop (index : Nat) (body : Bytes) (messages : List WtMessage) :
    index ≤ (sendLoop stale index body messages).2 := by
  induction messages generalizing index body with
  | nil => exact le_rfl
  | cons message messages ih =>
    rw [sendLoop]
    split
    · exact le_rfl
    · exact (Nat.le_succ index).trans (ih ..)

/-- Behind the first message the loop sends all that fit. -/
theorem sendLoop_of_fits {index : Nat} (hindex : 0 < index) {body : Bytes}
    {messages : List WtMessage}
    (hfits : (body ++ (messageTexts stale index messages).flatMap (comma :: ·)).length + 2 <
      messagesBodySize) :
    sendLoop stale index body messages =
      (body ++ (messageTexts stale index messages).flatMap (comma :: ·),
        index + messages.length) := by
  induction messages generalizing index body with
  | nil => simp [sendLoop, messageTexts]
  | cons message messages ih =>
    rw [messageTexts, List.flatMap_cons] at hfits ⊢
    have hroom : ¬ body.length + (messageText (stale index) message).length + 3 ≥
        messagesBodySize := by
      simp only [List.length_append, List.length_cons] at hfits
      omega
    have hrest : body ++ ((comma :: messageText (stale index) message) ++
          (messageTexts stale (index + 1) messages).flatMap (comma :: ·)) =
        body ++ [comma] ++ messageText (stale index) message ++
          (messageTexts stale (index + 1) messages).flatMap (comma :: ·) := by
      simp
    rw [hrest] at hfits ⊢
    rw [sendLoop, if_neg hroom, if_pos hindex, ih (Nat.succ_pos index) hfits, List.length_cons]
    congr 1
    omega

/-- Where it sends all, they fit. -/
theorem fits_of_sendLoop {index : Nat} (hindex : 0 < index) {body : Bytes}
    {messages : List WtMessage} (hne : messages ≠ [])
    (hall : (sendLoop stale index body messages).2 = index + messages.length) :
    (body ++ (messageTexts stale index messages).flatMap (comma :: ·)).length + 2 <
      messagesBodySize := by
  induction messages generalizing index body with
  | nil => exact absurd rfl hne
  | cons message messages ih =>
    rw [sendLoop] at hall
    rw [messageTexts, List.flatMap_cons]
    split at hall
    · simp at hall
    · rename_i hroom
      have hrest : body ++ ((comma :: messageText (stale index) message) ++
            (messageTexts stale (index + 1) messages).flatMap (comma :: ·)) =
          body ++ [comma] ++ messageText (stale index) message ++
            (messageTexts stale (index + 1) messages).flatMap (comma :: ·) := by
        simp
      rw [hrest]
      by_cases hlast : messages = []
      · subst hlast
        simp [messageTexts]
        omega
      · refine ih (Nat.succ_pos index) hlast ?_
        rw [hall, List.length_cons]
        omega

/-- The first message always fits. -/
theorem sendLoop_first (message : WtMessage) (messages : List WtMessage) :
    sendLoop stale 0 [91] (message :: messages) =
      sendLoop stale 1 (91 :: messageText (stale 0) message) messages := by
  have hlen := length_messageText_lt (stale 0) message
  have hjson : wtMessageJsonSize = 8192 := rfl
  have hsize : messagesBodySize = 4 * wtMessageJsonSize := rfl
  have hroom : ¬ ([91] : Bytes).length + (messageText (stale 0) message).length + 3 ≥
      messagesBodySize := by
    rw [hsize, List.length_singleton]
    omega
  rw [sendLoop, if_neg hroom]
  rfl

theorem arrayText_cons (text : Bytes) (texts : List Bytes) :
    arrayText (text :: texts) = 91 :: text ++ texts.flatMap (comma :: ·) ++ [93] := by
  rw [arrayText, commaSeparated_cons]
  simp

/-- The loop sends all messages exactly where the array and a byte more than its terminator fit the
buffer. -/
theorem sendLoop_all_iff (messages : List WtMessage) :
    (sendLoop stale 0 [91] messages).2 = messages.length ↔
      (arrayText (messageTexts stale 0 messages)).length + 1 < messagesBodySize := by
  rcases messages with _ | ⟨message, messages⟩
  · have hempty : (arrayText []).length + 1 < messagesBodySize := by decide
    exact iff_of_true rfl hempty
  · rw [sendLoop_first, messageTexts, arrayText_cons, List.length_append, List.length_singleton,
      List.length_cons, Nat.add_comm messages.length 1]
    constructor
    · intro hall
      by_cases hone : messages = []
      · have hlen := length_messageText_lt (stale 0) message
        have hsize : messagesBodySize = 4 * wtMessageJsonSize := rfl
        subst hone
        rw [messageTexts, List.flatMap_nil, List.append_nil, List.length_cons, hsize]
        omega
      · exact fits_of_sendLoop Nat.one_pos hone hall
    · intro hfits
      rw [sendLoop_of_fits Nat.one_pos hfits]

theorem sendLoop_all {messages : List WtMessage}
    (hfits : (arrayText (messageTexts stale 0 messages)).length + 1 < messagesBodySize) :
    (sendLoop stale 0 [91] messages).1 ++ [93] = arrayText (messageTexts stale 0 messages) := by
  rcases messages with _ | ⟨message, messages⟩
  · rfl
  · rw [messageTexts, arrayText_cons, List.length_append, List.length_singleton] at hfits
    rw [sendLoop_first, messageTexts, arrayText_cons, sendLoop_of_fits Nat.one_pos hfits]

theorem sendLoop_pos (stale : Nat → Bytes) {messages : List WtMessage} (hne : messages ≠ []) :
    0 < (sendLoop stale 0 [91] messages).2 := by
  rcases messages with _ | ⟨message, messages⟩
  · exact absurd rfl hne
  · rw [sendLoop_first]
    exact le_sendLoop 1 _ messages

end loop

/-! ## What is sent -/

/-- The messages as the log has them printed. -/
def Printed (messages : List WtMessage) (jsons : List Members) : Prop :=
  messages.map (wtMessageToJson · wtMessageJsonSize) = jsons.map some

/-- The messages the handler reads, the last of the log up to the limit. -/
def windowMessages (roomLog : Option Bytes) (limit : Int) : List WtMessage :=
  (readableMessages roomLog).rtake (effectiveLimit limit 256).toNat

/-- Each of the messages read can be printed, and their array with its terminator leaves a byte of
the buffer. -/
def WindowFits (roomLog : Option Bytes) (limit : Int) : Prop :=
  ∃ jsons, Printed (windowMessages roomLog limit) jsons ∧
    (arrayText (jsons.map Members.object)).length + 1 < messagesBodySize

/-- The places in the log of the messages that are sent. -/
def sentPositions (stale : Nat → Bytes) (roomLog : Option Bytes) (limit : Int) : List Nat :=
  List.range' ((readableMessages roomLog).length - (windowMessages roomLog limit).length)
    (sendMessagesJson stale roomLog limit).2

/-- The response is the array of the last messages of the log, and has all that the limit lets
through where they fit. -/
def SendsTheLast (stale : Nat → Bytes) (roomLog : Option Bytes) (limit : Int) : Prop :=
  ∃ k ≤ (readableMessages roomLog).length, ∃ jsons,
    Printed ((readableMessages roomLog).rtake k) jsons ∧
    (sendMessagesJson stale roomLog limit).1 = arrayText (jsons.map Members.object) ∧
    sentPositions stale roomLog limit =
      List.range' ((readableMessages roomLog).length - k) k ∧
    (WindowFits roomLog limit →
      k = min (effectiveLimit limit 256).toNat (readableMessages roomLog).length)

section window

variable {stale : Nat → Bytes} {roomLog : Option Bytes} {limit : Int}

theorem length_windowMessages (roomLog : Option Bytes) (limit : Int) :
    (windowMessages roomLog limit).length =
    min (effectiveLimit limit 256).toNat (readableMessages roomLog).length := by
  rw [windowMessages, List.rtake, List.length_drop]
  omega

theorem sendMessagesJson_eq : sendMessagesJson stale roomLog limit =
    ((sendLoop stale 0 [91] (windowMessages roomLog limit)).1 ++ [93],
      (sendLoop stale 0 [91] (windowMessages roomLog limit)).2) := by
  rw [sendMessagesJson, wtRoomReadRecent_eq, windowMessages]

/-- A message that can be printed leaves its record in the buffer. -/
theorem messageText_of_json {message : WtMessage} {json : Members}
    (h : wtMessageToJson message wtMessageJsonSize = some json) (text : Bytes) :
    messageText text message = json.object := by
  have hrecord : escapedRecord message = some json := by
    simp only [wtMessageToJson, Option.bind_eq_bind, Option.bind_eq_some_iff] at h
    obtain ⟨a, ha, b, hb, c, hc, d, hd, e, he, h⟩ := h
    split at h
    · simp only [escapedRecord, ha, hb, hc, hd, he]
      exact h
    · cases h
  rw [messageText, hrecord]
  exact snprintf_of_lt (wtMessageToJson_fits h)

theorem messageTexts_of_printed {messages : List WtMessage} {jsons : List Members}
    (h : Printed messages jsons) (index : Nat) :
    messageTexts stale index messages = jsons.map Members.object := by
  rw [Printed] at h
  induction messages generalizing jsons index with
  | nil =>
    obtain rfl : jsons = [] := by simpa using h.symm
    rfl
  | cons message messages ih =>
    rcases jsons with _ | ⟨json, jsons⟩
    · simp at h
    · rw [List.map_cons, List.map_cons, List.cons.injEq] at h
      rw [messageTexts, messageText_of_json h.1, ih h.2, List.map_cons]

theorem rtake_length_window :
    (readableMessages roomLog).rtake (windowMessages roomLog limit).length =
      windowMessages roomLog limit := by
  rw [length_windowMessages, windowMessages, List.rtake, List.rtake]
  congr 1
  omega

/-- What is sent from the start of the window ends at the end of the log where all of it is sent. -/
theorem all_sent_of_positions {k : Nat} (hne : windowMessages roomLog limit ≠ [])
    (hk : k ≤ (readableMessages roomLog).length)
    (h : sentPositions stale roomLog limit =
      List.range' ((readableMessages roomLog).length - k) k) :
    k = (windowMessages roomLog limit).length ∧
      (sendLoop stale 0 [91] (windowMessages roomLog limit)).2 = k := by
  have hpos := sendLoop_pos stale hne
  have hlength := length_windowMessages roomLog limit
  rw [sentPositions, sendMessagesJson_eq, List.range'_inj] at h
  dsimp only at h
  omega

/-- Messages sent that are the last of the log are all that were read, and fit. -/
theorem windowFits_of_positions {k : Nat} (hk : k ≤ (readableMessages roomLog).length)
    {jsons : List Members} (hprinted : Printed ((readableMessages roomLog).rtake k) jsons)
    (hpositions : sentPositions stale roomLog limit =
      List.range' ((readableMessages roomLog).length - k) k) : WindowFits roomLog limit := by
  by_cases hne : windowMessages roomLog limit = []
  · have hempty : (arrayText []).length + 1 < messagesBodySize := by decide
    exact ⟨[], by rw [hne]; rfl, hempty⟩
  · obtain ⟨rfl, hsent⟩ := all_sent_of_positions hne hk hpositions
    rw [rtake_length_window] at hprinted
    have hfits := (sendLoop_all_iff _).mp hsent
    rw [messageTexts_of_printed hprinted] at hfits
    exact ⟨jsons, hprinted, hfits⟩

end window

/-- **The response has the last messages of the log exactly where all that were read are printed and
fit.** -/
theorem sendsTheLast_iff (stale : Nat → Bytes) (roomLog : Option Bytes) (limit : Int) :
    SendsTheLast stale roomLog limit ↔ WindowFits roomLog limit := by
  have hlength := length_windowMessages roomLog limit
  constructor
  · rintro ⟨k, hk, jsons, hprinted, -, hpositions, -⟩
    exact windowFits_of_positions hk hprinted hpositions
  · rintro ⟨jsons, hprinted, hfits⟩
    have htexts : messageTexts stale 0 (windowMessages roomLog limit) =
        jsons.map Members.object := messageTexts_of_printed hprinted 0
    rw [← htexts] at hfits
    refine ⟨(windowMessages roomLog limit).length, by omega, jsons, ?_, ?_, ?_, fun _ => hlength⟩
    · rwa [rtake_length_window]
    · rw [sendMessagesJson_eq, sendLoop_all hfits, htexts]
    · rw [sentPositions, sendMessagesJson_eq, (sendLoop_all_iff _).mpr hfits]

/-! ## Five long messages -/

/-- Nearly four thousand newlines, each of which is printed as two bytes. -/
def longBody : Bytes := List.replicate 3900 newline

def longMessages : List WtMessage := [1, 2, 3, 4, 5].map (numberedMessage · longBody)

theorem length_longBody : (longBody.flatMap escapePiece).length = 7800 := by
  have hpiece : (escapePiece newline).length = 2 := by decide
  rw [longBody, List.flatMap_replicate, List.length_flatten, List.map_replicate, hpiece,
    List.sum_replicate]
  rfl

theorem wtJsonEscape_eq_some {text : Bytes} {size : Nat} (h : EscapeFits text size) :
    wtJsonEscape text size = some ⟨text.flatMap escapePiece, escaped_escape text⟩ :=
  if_neg (by rw [EscapeFits] at h; omega)

/-- The bytes of a message whose texts are escaped. -/
theorem length_messageRecord {message : WtMessage} (hid : Int64 message.messageId)
    (htime : Int64 message.createdAtUnixMs) (hreply : Int64 message.replyToMessageId)
    (a b c d e : Literal) :
    e.text.length ≤ (messageRecord message a b c d e).object.length ∧
      (messageRecord message a b c d e).object.length ≤ a.text.length + b.text.length +
        c.text.length + d.text.length + e.text.length + 200 := by
  have := length_decimal hid
  have := length_decimal htime
  have := length_decimal hreply
  unfold messageRecord str num
  simp [Members.length_object, render, Item.render]
  omega

/-- How many bytes the texts of the message have when they are escaped. -/
def escapedLength (message : WtMessage) : Nat :=
  (message.roomName.flatMap escapePiece).length + (message.senderName.flatMap escapePiece).length +
    (message.targetName.flatMap escapePiece).length +
    (message.messageType.flatMap escapePiece).length +
    (message.messageBody.flatMap escapePiece).length

/-- A message whose texts are short enough is printed, and is longer than its body. -/
theorem wtMessageToJson_of_short (message : WtMessage) (hid : Int64 message.messageId)
    (htime : Int64 message.createdAtUnixMs) (hreply : Int64 message.replyToMessageId)
    (hroom : EscapeFits message.roomName (wtMessageNameSize * 2))
    (hsender : EscapeFits message.senderName (wtMessageNameSize * 2))
    (htarget : EscapeFits message.targetName (wtMessageNameSize * 2))
    (htype : EscapeFits message.messageType (wtMessageTypeSize * 2))
    (hbody : EscapeFits message.messageBody (wtMessageBodySize * 2))
    (hshort : escapedLength message + 200 < wtMessageJsonSize) :
    ∃ json, wtMessageToJson message wtMessageJsonSize = some json ∧
      (message.messageBody.flatMap escapePiece).length ≤ json.object.length := by
  have hlength := length_messageRecord hid htime hreply
    ⟨message.roomName.flatMap escapePiece, escaped_escape _⟩
    ⟨message.senderName.flatMap escapePiece, escaped_escape _⟩
    ⟨message.targetName.flatMap escapePiece, escaped_escape _⟩
    ⟨message.messageType.flatMap escapePiece, escaped_escape _⟩
    ⟨message.messageBody.flatMap escapePiece, escaped_escape _⟩
  rw [escapedLength] at hshort
  simp only [wtMessageToJson, wtJsonEscape_eq_some hroom, wtJsonEscape_eq_some hsender,
    wtJsonEscape_eq_some htarget, wtJsonEscape_eq_some htype, wtJsonEscape_eq_some hbody,
    Option.bind_eq_bind, Option.bind_some]
  rw [if_pos (hlength.2.trans_lt hshort)]
  exact ⟨_, rfl, hlength.1⟩

theorem longMessage_printed {id : Int} (hid : Int64 id) :
    ∃ json, wtMessageToJson (numberedMessage id longBody) wtMessageJsonSize = some json ∧
      7800 ≤ json.object.length := by
  have hnames : EscapeFits (bytes "phase0") (wtMessageNameSize * 2) ∧
      EscapeFits (bytes "system") (wtMessageNameSize * 2) ∧
      EscapeFits (bytes "all") (wtMessageNameSize * 2) ∧
      EscapeFits (bytes "chat") (wtMessageTypeSize * 2) := by decide
  have hbody : EscapeFits longBody (wtMessageBodySize * 2) := by
    rw [EscapeFits, length_longBody]
    decide
  have hshort : escapedLength (numberedMessage id longBody) + 200 < wtMessageJsonSize := by
    have hrest : escapedLength (numberedMessage id longBody) =
        escapedLength (chatMessage []) + (longBody.flatMap escapePiece).length := rfl
    rw [hrest, length_longBody]
    decide
  have hzero : Int64 0 := by decide
  obtain ⟨json, hjson, hle⟩ := wtMessageToJson_of_short (numberedMessage id longBody) hid hzero
    hzero hnames.1 hnames.2.1 hnames.2.2.1 hnames.2.2.2 hbody hshort
  have hlong : ((numberedMessage id longBody).messageBody.flatMap escapePiece).length = 7800 :=
    length_longBody
  exact ⟨json, hjson, hlong ▸ hle⟩

theorem longMessages_stored : ∀ message ∈ longMessages, message.Stored := by
  intro message hmem
  obtain ⟨id, hid, rfl⟩ := List.mem_map.mp hmem
  have hint : ∀ id ∈ ([1, 2, 3, 4, 5] : List Int), Int64 id := by decide
  obtain ⟨json, hjson, -⟩ := longMessage_printed (hint id hid)
  refine numberedMessage_stored (hint id hid) ?_ ?_ (by rw [hjson]; rfl)
  · rw [longBody, List.length_replicate]
    decide
  · intro b hb
    rw [List.eq_of_mem_replicate hb]
    exact .inr (.inl rfl)

theorem le_length_arrayText {texts : List Bytes} {n : Nat} (h : ∀ text ∈ texts, n ≤ text.length) :
    texts.length * n ≤ (arrayText texts).length := by
  have hrest : ∀ texts : List Bytes, (∀ text ∈ texts, n ≤ text.length) →
      texts.length * n ≤ (texts.flatMap (comma :: ·)).length := by
    intro texts h
    induction texts with
    | nil => simp
    | cons text texts ih =>
      rw [List.forall_mem_cons] at h
      have := ih h.2
      rw [List.length_cons, Nat.succ_mul, List.flatMap_cons, List.length_append, List.length_cons]
      omega
  rcases texts with _ | ⟨text, texts⟩
  · simp
  · rw [List.forall_mem_cons] at h
    have := hrest texts h.2
    rw [arrayText_cons, List.length_cons, Nat.succ_mul]
    simp only [List.length_append, List.length_cons]
    omega

/-- Their array is longer than the buffer. -/
theorem not_windowFits : ¬ WindowFits (some (roomText longMessages)) 5 := by
  rintro ⟨jsons, hprinted, hfits⟩
  have hmessages : readableMessages (some (roomText longMessages)) = longMessages := by
    rw [readableMessages, Option.getD_some, roomMessages_roomText longMessages_stored]
  have hwindow : windowMessages (some (roomText longMessages)) 5 = longMessages := by
    have hlimit : (effectiveLimit 5 256).toNat = 5 := by decide
    have hlength : longMessages.length = 5 := by simp [longMessages]
    rw [windowMessages, hmessages, hlimit, List.rtake, hlength]
    rfl
  rw [hwindow] at hprinted
  have hfive : jsons.length = 5 := by
    have := congrArg List.length hprinted
    simpa [longMessages] using this.symm
  have hlong : ∀ text ∈ jsons.map Members.object, 7800 ≤ text.length := by
    intro text htext
    obtain ⟨json, hjson, rfl⟩ := List.mem_map.mp htext
    have hmem : some json ∈ longMessages.map (wtMessageToJson · wtMessageJsonSize) := by
      rw [hprinted]
      exact List.mem_map_of_mem hjson
    obtain ⟨message, hmessage, heq⟩ := List.mem_map.mp hmem
    obtain ⟨id, hid, rfl⟩ := List.mem_map.mp hmessage
    have hint : ∀ id ∈ ([1, 2, 3, 4, 5] : List Int), Int64 id := by decide
    obtain ⟨json', hjson', hle⟩ := longMessage_printed (hint id hid)
    rw [heq] at hjson'
    cases hjson'
    exact hle
  have hsum := le_length_arrayText hlong
  have hsize : messagesBodySize = 32768 := rfl
  rw [List.length_map, hfive] at hsum
  omega

/-- **Of five long messages the newest is left out.** -/
theorem not_sendsTheLast : ¬ ∀ (stale : Nat → Bytes) (roomLog : Option Bytes) (limit : Int),
    SendsTheLast stale roomLog limit := by
  intro hall
  obtain ⟨k, hk, jsons, hprinted, -, hpositions, -⟩ :=
    hall (fun _ => []) (some (roomText longMessages)) 5
  exact not_windowFits (windowFits_of_positions hk hprinted hpositions)

end WovenTeam

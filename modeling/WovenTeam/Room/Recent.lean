import WovenTeam.Lib.RingBuffer
import WovenTeam.Room.Ids

/-!
# Recent messages

`wtRoomReadRecent` walks the whole log through a ring of as many slots as it may return and
unrolls the ring at the end. `wtRoomReadRecent_eq`: it returns the last readable messages of the
log, in their order.
-/

namespace WovenTeam

open CText LineReader

/-! ## Reading -/

/-- The limit the call works with. -/
def effectiveLimit (limit maxMessages : Int) : Int :=
  if limit ≤ 0 ∨ limit > maxMessages then maxMessages else limit

/-- A slot as `calloc` leaves it. -/
def WtMessage.zero : WtMessage where
  roomName := []
  senderName := []
  targetName := []
  messageType := []

/-- One line of the walk. -/
def recentStep {limit : Nat} (ring : RingBuffer WtMessage limit) (line : Bytes) :
    RingBuffer WtMessage limit :=
  match wtMessageFromJsonLine line with
  | some message => ring.push message
  | none => ring

/-- What the call returns, and the messages it fills in; a log that is not there has none. -/
def wtRoomReadRecent (roomLog : Option Bytes) (limit maxMessages : Int) : Int × List WtMessage :=
  match roomLog with
  | none => (0, [])
  | some text =>
    let ring := (fgetsLines wtMessageJsonSize text).foldl recentStep
      (.init (effectiveLimit limit maxMessages).toNat .zero)
    (ring.count, ring.unroll)

/-- The messages of a log that may not be there. -/
def readableMessages (roomLog : Option Bytes) : List WtMessage := roomMessages (roomLog.getD [])

/-! ## The tail of the log -/

/-- Lines that are not messages leave the ring as it is. -/
theorem foldl_recentStep {limit : Nat} (ring : RingBuffer WtMessage limit) (lines : List Bytes) :
    lines.foldl recentStep ring = ring.pushAll (lines.filterMap wtMessageFromJsonLine) := by
  induction lines generalizing ring with
  | nil => rfl
  | cons line lines ih =>
    rw [List.foldl_cons, ih, List.filterMap_cons, recentStep]
    cases wtMessageFromJsonLine line <;> rfl

theorem effectiveLimit_pos {maxMessages : Int} (h : 0 < maxMessages) (limit : Int) :
    0 < effectiveLimit limit maxMessages := by
  rw [effectiveLimit]
  split <;> omega

theorem effectiveLimit_le (limit maxMessages : Int) :
    effectiveLimit limit maxMessages ≤ maxMessages := by
  rw [effectiveLimit]
  split <;> omega

theorem fgetsLines_nil : fgetsLines wtMessageJsonSize [] = [] := by decide

theorem wtRoomReadRecent_eq (roomLog : Option Bytes) (limit maxMessages : Int) :
    wtRoomReadRecent roomLog limit maxMessages =
      (↑((readableMessages roomLog).rtake (effectiveLimit limit maxMessages).toNat).length,
        (readableMessages roomLog).rtake (effectiveLimit limit maxMessages).toNat) := by
  cases roomLog with
  | none => simp [wtRoomReadRecent, readableMessages, roomMessages, fgetsLines_nil]
  | some text =>
    simp only [wtRoomReadRecent, foldl_recentStep, RingBuffer.unroll_pushAll,
      RingBuffer.count_pushAll, readableMessages, Option.getD_some]
    rw [roomMessages, List.rtake, List.length_drop]
    congr 2
    omega

/-- **What is returned is the tail of the log**: as many messages as are readable and the limit
lets through, the last of them in log order. -/
theorem readRecent_returns_tail (roomLog : Option Bytes) (limit maxMessages : Int)
    (hmax : 0 < maxMessages) :
    (wtRoomReadRecent roomLog limit maxMessages).1 =
        min (effectiveLimit limit maxMessages) (readableMessages roomLog).length ∧
      (wtRoomReadRecent roomLog limit maxMessages).2 =
        (readableMessages roomLog).rtake (wtRoomReadRecent roomLog limit maxMessages).1.toNat := by
  have hpos := effectiveLimit_pos hmax limit
  rw [wtRoomReadRecent_eq]
  dsimp only
  rw [List.rtake, List.length_drop]
  refine ⟨by omega, ?_⟩
  rw [List.rtake]
  congr 1
  omega

/-! ## A log of printed messages -/

/-- A line for each of the messages that can be printed. -/
def roomText (messages : List WtMessage) : Bytes :=
  (messages.filterMap (wtMessageToJson · wtMessageJsonSize)).flatMap fun json =>
    json.object ++ [newline]

/-- The message is printed, and read back as it was. -/
structure WtMessage.Stored (message : WtMessage) : Prop where
  valid : message.Valid
  decodes : message.Decodes
  prints : (wtMessageToJson message wtMessageJsonSize).isSome

theorem roomMessages_roomText {messages : List WtMessage}
    (h : ∀ message ∈ messages, message.Stored) : roomMessages (roomText messages) = messages := by
  induction messages with
  | nil => rfl
  | cons message messages ih =>
    have hstored := h message List.mem_cons_self
    obtain ⟨json, hjson⟩ := Option.isSome_iff_exists.mp hstored.prints
    have htext : roomText (message :: messages) =
        (json.object ++ [newline]) ++ roomText messages := by
      simp [roomText, hjson]
    rw [htext, roomMessages_append (atLineStart_newline _),
      roomMessages_record hstored.valid.messageId hstored.valid.createdAtUnixMs
        hstored.valid.replyToMessageId hjson,
      (readBack_eq_self_iff hstored.valid).mpr hstored.decodes,
      ih fun message hmem => h message (List.mem_cons_of_mem _ hmem)]
    rfl

/-- A chat message with an id. -/
def numberedMessage (messageId : Int) (messageBody : Bytes) : WtMessage :=
  { chatMessage messageBody with messageId }

theorem numberedMessage_stored {messageId : Int} (hid : Int64 messageId) {messageBody : Bytes}
    (hbody : messageBody.length < wtMessageBodySize) (hdecodes : Decodes messageBody)
    (hprints : (wtMessageToJson (numberedMessage messageId messageBody)
      wtMessageJsonSize).isSome) : (numberedMessage messageId messageBody).Stored where
  valid :=
    let valid := chatMessage_valid hbody
    ⟨hid, valid.roomName, valid.senderName, valid.targetName, valid.messageType,
      valid.messageBody, valid.createdAtUnixMs, valid.replyToMessageId⟩
  decodes :=
    have hnames : Decodes (bytes "phase0") ∧ Decodes (bytes "system") ∧ Decodes (bytes "all") ∧
        Decodes (bytes "chat") := by decide
    ⟨hnames.1, hnames.2.1, hnames.2.2.1, hnames.2.2.2, hdecodes⟩
  prints := hprints

def threeMessages : List WtMessage := [1, 2, 3].map (numberedMessage · [65])

theorem threeMessages_stored : ∀ message ∈ threeMessages, message.Stored := by
  have hprints : ∀ id ∈ [1, 2, 3],
      (wtMessageToJson (numberedMessage id [65]) wtMessageJsonSize).isSome := by decide +kernel
  have hint : ∀ id ∈ ([1, 2, 3] : List Int), Int64 id := by decide
  intro message hmem
  obtain ⟨id, hid, rfl⟩ := List.mem_map.mp hmem
  exact numberedMessage_stored (hint id hid) (by decide) (by decide) (hprints id hid)

/-- Of three messages the last two are returned. -/
theorem readRecent_two_of_three :
    (wtRoomReadRecent (some (roomText threeMessages)) 2 256).2 = threeMessages.tail := by
  obtain ⟨hcount, hread⟩ := readRecent_returns_tail (some (roomText threeMessages)) 2 256 (by decide)
  have hmessages : readableMessages (some (roomText threeMessages)) = threeMessages := by
    rw [readableMessages, Option.getD_some, roomMessages_roomText threeMessages_stored]
  rw [hread, hcount, hmessages]
  rfl

end WovenTeam

import WovenTeam.Room.MessagesJson
import WovenTeam.Room.Stream
import WovenTeam.Roomd.LedgerStream
import WovenTeam.Lib.EventSource

/-!
# The event feed of a client

`handleEvents` serves one client: in each tick it polls the room log, tails the ledger, and sends a
comment where neither has anything new. Writers of both files go on in between. `feed_exact`: the
events a client reads are the messages of the room log and the records of the ledger, each once and
in order, and nothing else.
-/

namespace WovenTeam

open CText QuotedText LineReader Runs EventSource

/-! ## The handler -/

/-- `stale` is what stands in the buffer of the message before it is printed. -/
def sendSseEvent (stale : Bytes) (message : WtMessage) : Bytes :=
  snprintf (wtMessageJsonSize + 64)
    (bytes "event: message\ndata: " ++ messageText stale message ++ bytes "\n\n")

def heartbeatComment : Bytes := bytes ": heartbeat\n\n"

/-- Where the handler is in its tick: in front of the room log, in front of the ledger with the
number of messages it sent, or in the loop over the ledger with the number of records as well. -/
inductive FeedPhase where
  | poll
  | seek (count : Nat)
  | tail (count ledgerSent : Nat)

structure EventFeed where
  room : RoomStream
  ledger : LedgerStream
  phase : FeedPhase := .poll
  body : Bytes := []

inductive FeedAction where
  | write (text : Bytes)
  | record (record : LedgerRecord)
  | newline
  | next (stale : Nat → Bytes)

/-- The next step of `handleEvents`. -/
def EventFeed.next (s : EventFeed) (stale : Nat → Bytes) : EventFeed :=
  match s.phase with
  | .poll =>
    let messages := wtRoomReadMessagesAfter s.room.roomLog s.room.lastSentId 64
    { s with
      room := s.room.poll
      phase := .seek messages.length
      body := s.body ++ messages.zipIdx.flatMap fun m => sendSseEvent (stale m.2) m.1 }
  | .seek count => { s with ledger := s.ledger.step .tick, phase := .tail count 0 }
  | .tail count ledgerSent =>
    if s.ledger.reading = none then
      { s with
        phase := .poll
        body := s.body ++ if count = 0 ∧ ledgerSent = 0 then heartbeatComment else [] }
    else
      let ledger := s.ledger.step .readLine
      let frames := ledger.frames.drop s.ledger.frames.length
      { s with
        ledger
        phase := .tail count (ledgerSent + frames.length)
        body := s.body ++ frames.flatten }

def EventFeed.step (s : EventFeed) : FeedAction → EventFeed
  | .write text => { s with room := s.room.step (.write text) }
  | .record record => { s with ledger := s.ledger.step (.record record) }
  | .newline => { s with ledger := s.ledger.step .newline }
  | .next stale => s.next stale

/-- A client that connects, behind the header of the response. -/
def connectFeed (roomLog : Bytes) (file : LedgerFile) : EventFeed where
  room := connectRoom roomLog
  ledger := connectLedger file

/-! ## The client -/

/-- The events that are read from what has been sent. -/
def EventFeed.received (s : EventFeed) : List Event := (run Reader.step {} s.body).events

def dataOf (type : String) (events : List Event) : List Bytes :=
  (events.filter fun e => e.type = bytes type).map Event.data

/-- The data of a ledger line: none for a blank line, and a return at the end is dropped. -/
def ledgerData (line : Bytes) : List Bytes :=
  if line = [] then [] else [if line.getLast? = some carriageReturn then line.dropLast else line]

def LedgerRecord.ReturnFree (record : LedgerRecord) : Prop :=
  ∀ data ∈ ledgerData record.text, carriageReturn ∉ data

/-- The message fits the buffers it is printed with. -/
def WtMessage.Prints (message : WtMessage) : Prop :=
  ∃ json, wtMessageToJson message wtMessageJsonSize = some json

/-- What the writers and the handler are given: the room log is written line by line, the records
have no return inside, and the messages in the log can be printed when the handler goes on. -/
def EventFeed.Given (s : EventFeed) : FeedAction → Prop
  | .write text => s.room.Writes (.write text)
  | .record record => record.ReturnFree
  | .newline => True
  | .next _ => ∀ message ∈ s.room.messages, message.Prints

/-! ## Frames -/

section frames

variable {message : WtMessage} {json : Members} {size : Nat}

theorem return_notMem_escape (text : Bytes) : carriageReturn ∉ text.flatMap escapePiece := by
  have hpiece : ∀ n < 256, carriageReturn ∉ escapePiece (UInt8.ofNat n) := by decide +kernel
  simp only [List.mem_flatMap, not_exists, not_and]
  intro b _
  have hb := hpiece b.toNat b.toNat_lt
  rwa [UInt8.ofNat_toNat] at hb

theorem return_notMem_decimal (n : Int) : carriageReturn ∉ decimal n := fun h =>
  absurd (mem_decimal h).1 (by decide)

theorem return_notMem_literal {text : Bytes} {escaped : Literal}
    (h : wtJsonEscape text size = some escaped) : carriageReturn ∉ escaped.text := by
  unfold wtJsonEscape at h
  split at h
  · cases h
  · obtain rfl := Option.some.inj h
    exact return_notMem_escape text

theorem return_notMem_json (h : wtMessageToJson message size = some json) :
    carriageReturn ∉ json.object := by
  simp only [wtMessageToJson, Option.bind_eq_bind, Option.bind_eq_some_iff] at h
  obtain ⟨a, ha, b, hb, c, hc, d, hd, e, he, h⟩ := h
  split at h
  · obtain rfl := Option.some.inj h
    simp +decide [Members.object, messageRecord, num, str, render, Item.render,
      return_notMem_decimal, return_notMem_literal ha, return_notMem_literal hb,
      return_notMem_literal hc, return_notMem_literal hd, return_notMem_literal he]
  · cases h

theorem unbroken_json (h : wtMessageToJson message size = some json) : Unbroken json.object :=
  ⟨json.newline_notMem_object, return_notMem_json h⟩

/-- A message that can be printed is sent in one frame. -/
theorem sendSseEvent_eq (h : wtMessageToJson message wtMessageJsonSize = some json)
    (stale : Bytes) :
    sendSseEvent stale message = frame (bytes "message") (messageText [] message) := by
  have hfits := wtMessageToJson_fits h
  have hkey : bytes "event: message\ndata: " =
      bytes "event: " ++ bytes "message" ++ bytes "\ndata: " := by decide
  have hlength : (bytes "event: message\ndata: ").length + (bytes "\n\n").length < 64 := by decide
  rw [sendSseEvent, messageText_of_json h, messageText_of_json h, snprintf_of_lt, frame, hkey]
  simp only [List.length_append] at hlength ⊢
  omega

theorem ledgerFrames_eq (line : Bytes) :
    ledgerFrames line = (ledgerData line).map (frame (bytes "ledger")) := by
  have hkey : bytes "event: ledger\ndata: " =
      bytes "event: " ++ bytes "ledger" ++ bytes "\ndata: " := by decide
  unfold ledgerFrames ledgerData
  split
  · rfl
  · simp only [List.map_cons, List.map_nil, frame, hkey]
    rfl

theorem frame_injective (type : Bytes) : Function.Injective (frame type) := by
  intro a b h
  simp only [frame] at h
  exact List.append_cancel_left (List.append_cancel_right h)

end frames

/-! ## Logs that can be sent -/

section prints

variable {message message' : WtMessage} {roomLog : Bytes} {call : NewMessage}

theorem length_reread_le (text : Bytes) :
    ((reread text).flatMap escapePiece).length ≤ (text.flatMap escapePiece).length := by
  have hbyte : ∀ n < 256, ((rereadByte (UInt8.ofNat n)).flatMap escapePiece).length ≤
      (escapePiece (UInt8.ofNat n)).length := by decide +kernel
  induction text with
  | nil => exact le_rfl
  | cons b text ih =>
    have hb := hbyte b.toNat b.toNat_lt
    rw [UInt8.ofNat_toNat] at hb
    have hcons : reread (b :: text) = rereadByte b ++ reread text := rfl
    rw [hcons, List.flatMap_append, List.flatMap_cons, List.length_append, List.length_append]
    omega

/-- A text that is read back is escaped in no more room. -/
theorem escape_reread {text : Bytes} {size : Nat} {escaped : Literal}
    (h : wtJsonEscape text size = some escaped) :
    ∃ escaped', wtJsonEscape (reread text) size = some escaped' ∧
      escaped'.text.length ≤ escaped.text.length := by
  have hle := length_reread_le text
  have hfits : EscapeFits (reread text) size := lt_of_le_of_lt hle (escapeFits_of_escape h)
  obtain ⟨escaped', h'⟩ := wtJsonEscape_of_fits hfits
  refine ⟨escaped', h', ?_⟩
  unfold wtJsonEscape at h h'
  split at h
  · cases h
  split at h'
  · cases h'
  obtain rfl := Option.some.inj h
  obtain rfl := Option.some.inj h'
  exact hle

/-- What is read back of a printed message can be printed again. -/
theorem prints_readBack (h : message.Prints) (hback : message.readBack = some message') :
    message'.Prints := by
  obtain ⟨json, h⟩ := h
  simp only [wtMessageToJson, Option.bind_eq_bind, Option.bind_eq_some_iff] at h
  obtain ⟨a, ha, b, hb, c, hc, d, hd, e, he, h⟩ := h
  obtain ⟨a', ha', hale⟩ := escape_reread ha
  obtain ⟨b', hb', hble⟩ := escape_reread hb
  obtain ⟨c', hc', hcle⟩ := escape_reread hc
  obtain ⟨d', hd', hdle⟩ := escape_reread hd
  obtain ⟨e', he', hele⟩ := escape_reread he
  split at h
  · rename_i hfits
    obtain rfl := readBack_eq_some hback
    have hlength : (messageRecord { message with
        roomName := reread message.roomName
        senderName := reread message.senderName
        targetName := reread message.targetName
        messageType := reread message.messageType
        messageBody := reread message.messageBody } a' b' c' d' e').object.length ≤
        (messageRecord message a b c d e).object.length := by
      simp only [Members.length_object, messageRecord, num, str, Members.items_append, render,
        List.cons_append, List.nil_append, List.flatMap_cons, List.flatMap_nil, Item.render,
        List.length_append, List.length_cons, List.length_nil]
      omega
    refine Option.isSome_iff_exists.mp ?_
    simp only [wtMessageToJson, ha', hb', hc', hd', he', Option.bind_eq_bind, Option.bind_some]
    rw [if_pos (lt_of_le_of_lt hlength hfits)]
    rfl
  · cases h

/-- **Every message of a log that `wtRoomAppendNewMessage` has written can be sent.** -/
theorem prints_run (calls : List NewMessage) (hstart : AtLineStart wtMessageJsonSize roomLog)
    (h : ∀ message ∈ roomMessages roomLog, message.Prints) :
    ∀ message ∈ roomMessages (run roomStep roomLog calls), message.Prints := by
  induction calls generalizing roomLog with
  | nil => exact h
  | cons call calls ih =>
    rw [run_cons]
    cases happend : wtRoomAppendNewMessage roomLog call with
    | none =>
      have hstep : roomStep roomLog call = roomLog := by rw [roomStep, happend]; rfl
      rw [hstep]
      exact ih hstart h
    | some result =>
      obtain ⟨stamped, written⟩ := result
      have hstep : roomStep roomLog call = written := by rw [roomStep, happend]; rfl
      obtain ⟨hnext, hmessages⟩ := roomMessages_append_new hstart happend
      obtain ⟨json, hjson, -, -⟩ := append_eq_some happend
      rw [hstep]
      refine ih hnext fun message hmessage => ?_
      rw [hmessages] at hmessage
      rcases List.mem_append.mp hmessage with hmessage | hmessage
      · exact h message hmessage
      · exact prints_readBack ⟨json, hjson⟩ (Option.mem_toList.mp hmessage)

end prints

/-! ## What has been received -/

/-- The reader is between two events, the messages and the frames sent are what it has read, and the
records that are still to be sent have no return inside. -/
structure EventFeed.Reads (start : Nat) (s : EventFeed) : Prop where
  sent : ∃ k, SentUpTo start k s.ledger
  between : run Reader.step {} s.body = { events := s.received }
  messages : dataOf "message" s.received = s.room.sent.map (messageText [])
  records : (dataOf "ledger" s.received).map (frame (bytes "ledger")) = s.ledger.frames
  others : ∀ e ∈ s.received, e.type = bytes "message" ∨ e.type = bytes "ledger"
  complete : ∀ record ∈ s.ledger.file.complete.drop start, record.ReturnFree
  pending : ∀ record ∈ s.ledger.file.pending, record.ReturnFree

section reads

variable {start : Nat} {s : EventFeed} {roomLog : Bytes} {file : LedgerFile}

/-- What comes behind what has been read. -/
theorem received_append {body more : Bytes} {events new : List Event}
    (hbody : run Reader.step {} body = { events })
    (hmore : run Reader.step { events } more = { events := events ++ new }) :
    run Reader.step {} (body ++ more) = { events := events ++ new } := by
  rw [run_append, hbody, hmore]

theorem dataOf_append (type : String) (events new : List Event) :
    dataOf type (events ++ new) = dataOf type events ++ dataOf type new := by
  simp [dataOf]

theorem dataOf_events {type : String} {texts : List Bytes} (type' : String) :
    dataOf type (texts.map fun text => ⟨bytes type', text⟩) =
      if bytes type' = bytes type then texts else [] := by
  unfold dataOf
  split
  · rename_i htype
    simp [htype, List.filter_map, Function.comp_def]
  · rename_i htype
    simp [htype]

/-- The events of the frames of a type. -/
theorem run_texts {type : String} {texts : List Bytes} {events : List Event}
    (htype : Unbroken (bytes type)) (hne : bytes type ≠ []) (h : ∀ text ∈ texts, Unbroken text) :
    run Reader.step { events } (texts.flatMap (frame (bytes type))) =
      { events := events ++ texts.map fun text => ⟨bytes type, text⟩ } := by
  have hevents := @run_frames events (texts.map fun text => ⟨bytes type, text⟩) (by
    simpa using fun text htext => ⟨htype, hne, h text htext⟩)
  rwa [List.flatMap_map] at hevents

theorem reads_connect (hfile : file.AtBoundary)
    (hpending : ∀ record ∈ file.pending, record.ReturnFree) :
    (connectFeed roomLog file).Reads file.complete.length := by
  refine ⟨⟨_, sentUpTo_connect hfile⟩, rfl, rfl, rfl, ?_, ?_, hpending⟩
  · intro e he
    cases he
  · intro record hrecord
    have hnone : (file.complete.drop file.complete.length) = [] := List.drop_length
    rw [show (connectFeed roomLog file).ledger.file.complete = file.complete from rfl, hnone]
      at hrecord
    cases hrecord

theorem reads_write (h : s.Reads start) (text : Bytes) : (s.step (.write text)).Reads start :=
  ⟨h.sent, h.between, h.messages, h.records, h.others, h.complete, h.pending⟩

theorem reads_record (h : s.Reads start) {record : LedgerRecord} (hrecord : record.ReturnFree) :
    (s.step (.record record)).Reads start := by
  obtain ⟨k, hk⟩ := h.sent
  refine ⟨sentUpTo_step hk (.record record), h.between, h.messages, h.records, h.others, ?_, ?_⟩
  · show ∀ r ∈ (s.ledger.file.record record).complete.drop start, r.ReturnFree
    rw [complete_record]
    exact h.complete
  · show ∀ r ∈ (s.ledger.file.record record).pending, r.ReturnFree
    unfold LedgerFile.record
    cases hpending : s.ledger.file.pending with
    | none =>
      intro r hr
      obtain rfl := Option.some.inj hr
      exact hrecord
    | some old =>
      dsimp only
      rw [hpending]
      intro r hr
      exact h.pending r (hpending ▸ hr)

theorem reads_newline (h : s.Reads start) : (s.step .newline).Reads start := by
  obtain ⟨k, hk⟩ := h.sent
  refine ⟨sentUpTo_step hk .newline, h.between, h.messages, h.records, h.others, ?_, ?_⟩
  · show ∀ r ∈ s.ledger.file.newline.complete.drop start, r.ReturnFree
    unfold LedgerFile.newline
    cases hpending : s.ledger.file.pending with
    | none => exact h.complete
    | some record =>
      intro r hr
      dsimp only at hr
      rw [List.drop_append] at hr
      rcases List.mem_append.mp hr with hr | hr
      · exact h.complete r hr
      · rw [List.mem_singleton.mp (List.mem_of_mem_drop hr)]
        exact h.pending record hpending
  · show ∀ r ∈ s.ledger.file.newline.pending, r.ReturnFree
    unfold LedgerFile.newline
    cases hpending : s.ledger.file.pending with
    | none =>
      dsimp only
      rw [hpending]
      intro r hr
      cases hr
    | some record =>
      intro r hr
      cases hr

/-- The frames of a batch. -/
theorem batch_frames (stale : Nat → Bytes) {messages : List WtMessage}
    (hprints : ∀ message ∈ messages, message.Prints) (n : Nat) :
    (messages.zipIdx n).flatMap (fun m => sendSseEvent (stale m.2) m.1) =
      (messages.map (messageText [])).flatMap (frame (bytes "message")) := by
  induction messages generalizing n with
  | nil => rfl
  | cons message messages ih =>
    rw [List.forall_mem_cons] at hprints
    obtain ⟨json, hjson⟩ := hprints.1
    rw [List.zipIdx_cons, List.flatMap_cons, List.map_cons, List.flatMap_cons,
      sendSseEvent_eq hjson, ih hprints.2]

theorem unbroken_messageText {message : WtMessage} (h : message.Prints) :
    Unbroken (messageText [] message) := by
  obtain ⟨json, hjson⟩ := h
  rw [messageText_of_json hjson]
  exact unbroken_json hjson

theorem unbroken_message : Unbroken (bytes "message") := ⟨by decide, by decide⟩

theorem unbroken_ledger : Unbroken (bytes "ledger") := ⟨by decide, by decide⟩

theorem message_ne_ledger : bytes "message" ≠ bytes "ledger" := by decide

/-- What the handler sends keeps what is read: its events come behind those read before. -/
theorem reads_more (h : s.Reads start) {s' : EventFeed} {new : List Event}
    (hledger : ∃ k, SentUpTo start k s'.ledger) (hfile : s'.ledger.file = s.ledger.file)
    (hread : run Reader.step {} s'.body = { events := s.received ++ new })
    (hmessages : s'.room.sent.map (messageText []) =
      s.room.sent.map (messageText []) ++ dataOf "message" new)
    (hrecords : s'.ledger.frames =
      s.ledger.frames ++ (dataOf "ledger" new).map (frame (bytes "ledger")))
    (hothers : ∀ e ∈ new, e.type = bytes "message" ∨ e.type = bytes "ledger") :
    s'.Reads start := by
  have hreceived : s'.received = s.received ++ new := by rw [EventFeed.received, hread]
  refine ⟨hledger, ?_, ?_, ?_, ?_, hfile ▸ h.complete, hfile ▸ h.pending⟩
  · rw [hread, hreceived]
  · rw [hreceived, dataOf_append, h.messages, hmessages]
  · rw [hreceived, dataOf_append, List.map_append, h.records, hrecords]
  · rw [hreceived]
    intro e he
    rcases List.mem_append.mp he with he | he
    · exact h.others e he
    · exact hothers e he

theorem type_events {type : String} {texts : List Bytes} :
    ∀ e ∈ texts.map fun text => (⟨bytes type, text⟩ : Event), e.type = bytes type := by
  intro e he
  obtain ⟨text, -, rfl⟩ := List.mem_map.mp he
  rfl

/-- A batch of messages. -/
theorem reads_poll (h : s.Reads start) (stale : Nat → Bytes) (hphase : s.phase = .poll)
    (hprints : ∀ message ∈ s.room.messages, message.Prints) :
    (s.next stale).Reads start := by
  have hbatch : ∀ message ∈ wtRoomReadMessagesAfter s.room.roomLog s.room.lastSentId 64,
      message.Prints := by
    intro message hmessage
    rw [wtRoomReadMessagesAfter_eq] at hmessage
    exact hprints message (List.mem_filter.mp (List.mem_of_mem_take hmessage)).1
  let texts := (wtRoomReadMessagesAfter s.room.roomLog s.room.lastSentId 64).map (messageText [])
  have hread := received_append h.between (@run_texts "message" texts s.received unbroken_message
    (by decide) (by simpa [texts] using fun message hm => unbroken_messageText (hbatch message hm)))
  rw [← batch_frames stale hbatch 0] at hread
  unfold EventFeed.next
  rw [hphase]
  refine reads_more h h.sent rfl hread ?_ ?_ fun e he => .inl (type_events e he)
  · rw [dataOf_events, if_pos rfl, ← List.map_append]
    rfl
  · rw [dataOf_events, if_neg message_ne_ledger, List.map_nil, List.append_nil]

/-- A tick that begins sends nothing yet. -/
theorem step_tick (ledger : LedgerStream) :
    (ledger.step .tick).frames = ledger.frames ∧ (ledger.step .tick).file = ledger.file := by
  unfold LedgerStream.step LedgerStream.tick
  dsimp only
  split_ifs <;> exact ⟨rfl, rfl⟩

theorem reads_seek (h : s.Reads start) (stale : Nat → Bytes) {count : Nat}
    (hphase : s.phase = .seek count) : (s.next stale).Reads start := by
  obtain ⟨k, hk⟩ := h.sent
  obtain ⟨hframes, hfile⟩ := step_tick s.ledger
  unfold EventFeed.next
  rw [hphase]
  refine ⟨sentUpTo_step hk .tick, h.between, h.messages, ?_, h.others, ?_, ?_⟩
  · exact h.records.trans hframes.symm
  · dsimp only
    rw [hfile]
    exact h.complete
  · dsimp only
    rw [hfile]
    exact h.pending

/-- At the end of a tick there is a comment, or nothing. -/
theorem reads_rest (h : s.Reads start) (stale : Nat → Bytes) {count ledgerSent : Nat}
    (hphase : s.phase = .tail count ledgerSent) (hreading : s.ledger.reading = none) :
    (s.next stale).Reads start := by
  have hrest : run Reader.step {}
      (s.body ++ if count = 0 ∧ ledgerSent = 0 then heartbeatComment else []) =
      { events := s.received } := by
    split
    · have hcomment : heartbeatComment = colon :: bytes " heartbeat" ++ bytes "\n\n" := by decide
      rw [run_append, h.between, hcomment]
      exact run_comment ⟨by decide, by decide⟩
    · rw [List.append_nil]
      exact h.between
  unfold EventFeed.next
  rw [hphase]
  dsimp only
  rw [if_pos hreading]
  rw [← List.append_nil s.received] at hrest
  exact reads_more h h.sent rfl hrest (List.append_nil _).symm (List.append_nil _).symm
    fun _ he => absurd he List.not_mem_nil

/-- A read sends the frames of the next record, or nothing. -/
theorem frames_readLine {k : Nat} {ledger : LedgerStream} (h : SentUpTo start k ledger) :
    (ledger.step .readLine).file = ledger.file ∧ ∃ texts : List Bytes,
      (ledger.step .readLine).frames = ledger.frames ++ texts.map (frame (bytes "ledger")) ∧
        ∀ text ∈ texts, ∃ record ∈ ledger.file.complete.drop start,
          text ∈ ledgerData record.text := by
  rw [LedgerStream.step]
  cases hreading : ledger.reading with
  | none =>
    rw [LedgerStream.readLine, hreading]
    exact ⟨rfl, [], by simp, by simp⟩
  | some noted =>
    obtain ⟨position, fileEnd⟩ := noted
    obtain rfl := h.position position fileEnd hreading
    by_cases hlt : ledger.offset < fileEnd
    · cases hdrop : ledger.file.complete.drop k with
      | nil =>
        rw [readLine_stop h hreading (.inr hdrop)]
        exact ⟨rfl, [], by simp, by simp⟩
      | cons record rest =>
        rw [readLine_record h hreading hlt hdrop]
        refine ⟨rfl, ledgerData record.text, by rw [ledgerFrames_eq], fun text htext => ?_⟩
        have hrecord : record ∈ ledger.file.complete.drop k := hdrop ▸ List.mem_cons_self
        refine ⟨record, ?_, htext⟩
        obtain ⟨more, hmore⟩ := Nat.exists_eq_add_of_le h.start_le
        rw [hmore, ← List.drop_drop] at hrecord
        exact List.mem_of_mem_drop hrecord
    · rw [readLine_stop h hreading (.inl (by omega))]
      exact ⟨rfl, [], by simp, by simp⟩

theorem unbroken_ledgerData {record : LedgerRecord} (h : record.ReturnFree) {text : Bytes}
    (htext : text ∈ ledgerData record.text) : Unbroken text := by
  refine ⟨fun hmem => record.oneLine ?_, h text htext⟩
  unfold ledgerData at htext
  split at htext
  · cases htext
  · rw [List.mem_singleton.mp htext] at hmem
    split at hmem
    · exact List.mem_of_mem_dropLast hmem
    · exact hmem

theorem reads_readLine (h : s.Reads start) (stale : Nat → Bytes) {count ledgerSent : Nat}
    (hphase : s.phase = .tail count ledgerSent) (hreading : s.ledger.reading ≠ none) :
    (s.next stale).Reads start := by
  obtain ⟨k, hk⟩ := h.sent
  obtain ⟨hfile, texts, hframes, htexts⟩ := frames_readLine hk
  have hunbroken : ∀ text ∈ texts, Unbroken text := by
    intro text htext
    obtain ⟨record, hrecord, hdata⟩ := htexts text htext
    exact unbroken_ledgerData (h.complete record hrecord) hdata
  have hread := received_append h.between
    (@run_texts "ledger" texts s.received unbroken_ledger (by decide) hunbroken)
  have hflat : ((s.ledger.step .readLine).frames.drop s.ledger.frames.length).flatten =
      texts.flatMap (frame (bytes "ledger")) := by
    rw [hframes, List.drop_left, List.flatMap_def]
  rw [← hflat] at hread
  unfold EventFeed.next
  rw [hphase]
  dsimp only
  rw [if_neg hreading]
  refine reads_more h (sentUpTo_step hk .readLine) hfile hread ?_ ?_
    fun e he => .inr (type_events e he)
  · rw [dataOf_events, if_neg message_ne_ledger.symm, List.append_nil]
  · rw [dataOf_events, if_pos rfl]
    exact hframes

/-- **Every step of the handler and of the writers keeps what the client has read.** -/
theorem reads_step (h : s.Reads start) {action : FeedAction} (hgiven : s.Given action) :
    (s.step action).Reads start := by
  cases action with
  | write text => exact reads_write h text
  | record record => exact reads_record h hgiven
  | newline => exact reads_newline h
  | next stale =>
    rw [EventFeed.step]
    cases hphase : s.phase with
    | poll => exact reads_poll h stale hphase hgiven
    | seek count => exact reads_seek h stale hphase
    | tail count ledgerSent =>
      by_cases hreading : s.ledger.reading = none
      · exact reads_rest h stale hphase hreading
      · exact reads_readLine h stale hphase hreading

/-! ## Runs -/

/-- The room's half of a step. -/
theorem room_step (s : EventFeed) (action : FeedAction) (hgiven : s.Given action) :
    (s.step action).room = s.room ∨
      ∃ a, s.room.Writes a ∧ (s.step action).room = s.room.step a := by
  cases action with
  | write text => exact .inr ⟨.write text, hgiven, rfl⟩
  | record record => exact .inl rfl
  | newline => exact .inl rfl
  | next stale =>
    rw [EventFeed.step]
    unfold EventFeed.next
    cases s.phase with
    | poll => exact .inr ⟨.poll, trivial, rfl⟩
    | seek count => exact .inl rfl
    | tail count ledgerSent =>
      dsimp only
      split <;> exact .inl rfl

/-- The room's half of a run is a run of the message stream. -/
theorem room_run {actions : List FeedAction} (h : Along EventFeed.step EventFeed.Given s actions) :
    ∃ acts, Along RoomStream.step RoomStream.Writes s.room acts ∧
      (run EventFeed.step s actions).room = run RoomStream.step s.room acts := by
  induction actions generalizing s with
  | nil => exact ⟨[], trivial, rfl⟩
  | cons action actions ih =>
    obtain ⟨acts, hacts, hrun⟩ := ih h.2
    rcases room_step s action h.1 with hsame | ⟨a, ha, hroom⟩
    · rw [hsame] at hacts hrun
      exact ⟨acts, hacts, hrun⟩
    · rw [hroom] at hacts hrun
      exact ⟨a :: acts, ⟨ha, hacts⟩, hrun⟩

theorem recordFrames_eq (records : List LedgerRecord) :
    recordFrames records =
      (records.flatMap fun record => ledgerData record.text).map (frame (bytes "ledger")) := by
  rw [recordFrames, List.map_flatMap]
  simp only [ledgerFrames_eq]

end reads

section runs

variable {roomLog : Bytes} {file : LedgerFile} {actions : List FeedAction}

theorem reads_run (hfile : file.AtBoundary)
    (hpending : ∀ record ∈ file.pending, record.ReturnFree)
    (h : Along EventFeed.step EventFeed.Given (connectFeed roomLog file) actions) :
    (run EventFeed.step (connectFeed roomLog file) actions).Reads file.complete.length := by
  have hstep : ∀ (s : EventFeed) (action : FeedAction), s.Reads file.complete.length →
      s.Given action → (s.step action).Reads file.complete.length :=
    fun _ _ hreads hgiven => reads_step hreads hgiven
  exact run_invariant hstep (reads_connect hfile hpending) h

theorem room_exact (h : Along EventFeed.step EventFeed.Given (connectFeed roomLog file) actions)
    (hinc : IdsIncrease (run EventFeed.step (connectFeed roomLog file) actions).room.messages) :
    (run EventFeed.step (connectFeed roomLog file) actions).room.Exact := by
  obtain ⟨acts, hacts, hrun⟩ := room_run h
  rw [hrun] at hinc ⊢
  exact exact_run (exact_connect roomLog) hacts hinc

end runs

theorem dataOf_records {start : Nat} {s : EventFeed} (h : s.Reads start)
    {records : List LedgerRecord} (hframes : s.ledger.frames = recordFrames records) :
    dataOf "ledger" s.received = records.flatMap fun record => ledgerData record.text := by
  refine List.map_injective_iff.mpr (frame_injective (bytes "ledger")) ?_
  rw [h.records, hframes, recordFrames_eq]

theorem newline_notMem_started : newline ∉ bytes "started" := by decide

theorem zero_notMem_started : 0 ∉ bytes "started" := by decide

theorem started_fits : (bytes "started").length + 2 ≤ wtTaskLedgerLineSize := by decide

def startedRecord : LedgerRecord where
  text := bytes "started"
  oneLine := newline_notMem_started
  terminated := zero_notMem_started
  fits := started_fits

/-- A record is completed behind the connection, and the handler reads it. -/
def startedActions : List FeedAction :=
  [.record startedRecord, .newline, .next fun _ => [], .next fun _ => [], .next fun _ => []]

theorem startedActions_given :
    Along EventFeed.step EventFeed.Given (connectFeed [] {}) startedActions := by
  have hempty : roomMessages [] = [] := by decide
  have hnone : ∀ message ∈ roomMessages [], message.Prints := by
    rw [hempty]
    exact fun _ hmem => absurd hmem List.not_mem_nil
  have hfree : startedRecord.ReturnFree := by
    have hdata : ∀ data ∈ ledgerData (bytes "started"), carriageReturn ∉ data := by decide
    exact hdata
  exact ⟨hfree, trivial, hnone, hnone, hnone, trivial⟩

theorem startedActions_messages :
    (run EventFeed.step (connectFeed [] {}) startedActions).room.messages = [] := by
  decide +kernel

/-- No event has a return in its data, so that a record with one inside is never read whole. -/
theorem received_clean (s : EventFeed) : ∀ e ∈ s.received, carriageReturn ∉ e.data := by
  have hstart : ({} : Reader).Clean :=
    ⟨List.not_mem_nil, List.not_mem_nil, fun _ he => absurd he List.not_mem_nil⟩
  exact (clean_run hstart s.body).events

/-! ## Catching up -/

/-- So many steps of the handler, with nothing written between them. -/
def EventFeed.rest (s : EventFeed) (stale : Nat → Bytes) (n : Nat) : EventFeed :=
  run EventFeed.step s (List.replicate n (.next stale))

section rest

variable {start : Nat} {s : EventFeed} {stale : Nat → Bytes}

theorem rest_succ (s : EventFeed) (stale : Nat → Bytes) (n : Nat) :
    s.rest stale (n + 1) = (s.next stale).rest stale n := rfl

theorem rest_add (s : EventFeed) (stale : Nat → Bytes) (m n : Nat) :
    s.rest stale (m + n) = (s.rest stale m).rest stale n := by
  rw [EventFeed.rest, List.replicate_add, run_append]
  rfl

theorem next_idle {count ledgerSent : Nat} (hphase : s.phase = .tail count ledgerSent)
    (hreading : s.ledger.reading = none) :
    (s.next stale).phase = .poll ∧ (s.next stale).room = s.room ∧
      (s.next stale).ledger = s.ledger := by
  unfold EventFeed.next
  rw [hphase]
  dsimp only
  rw [if_pos hreading]
  exact ⟨rfl, rfl, rfl⟩

/-- The loop over the ledger ends where its reads do. -/
theorem rest_tail {count ledgerSent reads : Nat} (hphase : s.phase = .tail count ledgerSent)
    (hends : (run LedgerStream.step s.ledger (List.replicate reads .readLine)).reading = none) :
    ∃ n, (s.rest stale n).phase = .poll ∧ (s.rest stale n).room = s.room ∧
      (s.rest stale n).ledger =
        run LedgerStream.step s.ledger (List.replicate reads .readLine) := by
  induction reads generalizing s ledgerSent with
  | zero => exact ⟨1, next_idle hphase hends⟩
  | succ reads ih =>
    by_cases hreading : s.ledger.reading = none
    · rw [run_readLine_idle hreading]
      exact ⟨1, next_idle hphase hreading⟩
    · have hstep : (s.next stale).ledger = s.ledger.step .readLine ∧
          (s.next stale).room = s.room ∧ ∃ sent, (s.next stale).phase = .tail count sent := by
        unfold EventFeed.next
        rw [hphase]
        dsimp only
        rw [if_neg hreading]
        exact ⟨rfl, rfl, _, rfl⟩
      obtain ⟨hledger, hroom, sent, hnext⟩ := hstep
      rw [List.replicate_succ, run_cons, ← hledger] at hends
      obtain ⟨n, hpoll, hroom', hledger'⟩ := ih hnext hends
      refine ⟨n + 1, ?_⟩
      rw [rest_succ, List.replicate_succ, run_cons, ← hledger]
      exact ⟨hpoll, hroom'.trans hroom, hledger'⟩

/-- Enough reads end a tick. -/
theorem reads_end {k : Nat} {ledger : LedgerStream} (h : SentUpTo start k ledger) :
    (run LedgerStream.step ledger
        (List.replicate (ledger.file.complete.length + 1) .readLine)).reading = none ∧
      (run LedgerStream.step ledger
        (List.replicate (ledger.file.complete.length + 1) .readLine)).file = ledger.file := by
  cases hreading : ledger.reading with
  | none =>
    rw [run_readLine_idle hreading]
    exact ⟨hreading, rfl⟩
  | some noted =>
    obtain ⟨position, fileEnd⟩ := noted
    obtain rfl := h.position position fileEnd hreading
    obtain ⟨k', s', hrun, -, hidle, hfile, -⟩ := run_readLine h hreading
      (show ledger.file.complete.length < k + (ledger.file.complete.length + 1) by omega)
    rw [hrun]
    exact ⟨hidle, hfile⟩

/-- The handler is in front of the room log, and no tick is under way. -/
structure EventFeed.Ready (s : EventFeed) : Prop where
  phase : s.phase = .poll
  idle : s.ledger.reading = none

theorem rest_seek {count : Nat} (hphase : s.phase = .seek count)
    (h : ∃ k, SentUpTo start k s.ledger) :
    ∃ n, (s.rest stale n).Ready ∧ (s.rest stale n).room = s.room ∧
      (s.rest stale n).ledger.file = s.ledger.file ∧
      (s.rest stale n).ledger = run LedgerStream.step s.ledger
        (.tick :: List.replicate (s.ledger.file.complete.length + 1) .readLine) := by
  obtain ⟨k, hk⟩ := h
  have hnext : (s.next stale).ledger = s.ledger.step .tick ∧ (s.next stale).room = s.room ∧
      (s.next stale).phase = .tail count 0 := by
    unfold EventFeed.next
    rw [hphase]
    exact ⟨rfl, rfl, rfl⟩
  obtain ⟨k', hk'⟩ := sentUpTo_step hk .tick
  obtain ⟨hends, hfile⟩ := reads_end hk'
  rw [(step_tick s.ledger).2, ← hnext.1] at hends hfile
  obtain ⟨n, hpoll, hroom, hledger⟩ := rest_tail hnext.2.2 hends
  refine ⟨n + 1, ?_⟩
  rw [rest_succ, run_cons, ← hnext.1]
  exact ⟨⟨hpoll, hledger ▸ hends⟩, hroom.trans hnext.2.1, hledger ▸ hfile, hledger⟩

theorem next_poll (hphase : s.phase = .poll) :
    (s.next stale).room = s.room.poll ∧ (s.next stale).ledger = s.ledger ∧
      ∃ count, (s.next stale).phase = .seek count := by
  unfold EventFeed.next
  rw [hphase]
  exact ⟨rfl, rfl, _, rfl⟩

/-- Whatever the handler is doing, it comes back to the room log. -/
theorem rest_ready (h : ∃ k, SentUpTo start k s.ledger) :
    ∃ n, (s.rest stale n).Ready ∧ (s.rest stale n).ledger.file = s.ledger.file ∧
      ((s.rest stale n).room = s.room ∨ (s.rest stale n).room = s.room.poll) := by
  cases hphase : s.phase with
  | poll =>
    obtain ⟨hroom, hledger, count, hseek⟩ := @next_poll s stale hphase
    obtain ⟨n, hready, hroom', hfile, -⟩ := @rest_seek start _ stale _ hseek (hledger ▸ h)
    exact ⟨n + 1, hready, hfile.trans (by rw [hledger]), .inr (hroom'.trans hroom)⟩
  | seek count =>
    obtain ⟨n, hready, hroom, hfile, -⟩ := @rest_seek start s stale count hphase h
    exact ⟨n, hready, hfile, .inl hroom⟩
  | tail count ledgerSent =>
    obtain ⟨k, hk⟩ := h
    obtain ⟨hends, hfile⟩ := reads_end hk
    obtain ⟨n, hpoll, hroom, hledger⟩ := @rest_tail s stale _ _ _ hphase hends
    exact ⟨n, ⟨hpoll, hledger ▸ hends⟩, hledger ▸ hfile, .inl hroom⟩

/-- A whole tick polls the room log once and sends all records. -/
theorem rest_cycle (hs : s.Ready) (h : ∃ k, SentUpTo start k s.ledger) :
    ∃ n, (s.rest stale n).Ready ∧ (s.rest stale n).ledger.file = s.ledger.file ∧
      (s.rest stale n).room = s.room.poll ∧
      (s.rest stale n).ledger.frames = recordFrames (s.ledger.file.complete.drop start) := by
  obtain ⟨hroom, hledger, count, hseek⟩ := @next_poll s stale hs.phase
  obtain ⟨n, hready, hroom', hfile, hrun⟩ := @rest_seek start _ stale _ hseek (hledger ▸ h)
  rw [hledger] at hfile hrun
  refine ⟨n + 1, hready, hfile, hroom'.trans hroom, ?_⟩
  obtain ⟨k, hk⟩ := h
  have hall := frames_wholeTick hk (Nat.lt_succ_self s.ledger.file.complete.length)
  rw [wholeTick, run_append, run_readLine_idle hs.idle] at hall
  rw [rest_succ, hrun]
  exact hall

theorem rest_roomLog (s : EventFeed) (stale : Nat → Bytes) (n : Nat) :
    (s.rest stale n).room.roomLog = s.room.roomLog := by
  induction n generalizing s with
  | zero => rfl
  | succ n ih =>
    rw [rest_succ, ih]
    unfold EventFeed.next
    cases s.phase with
    | poll => rfl
    | seek count => rfl
    | tail count ledgerSent =>
      dsimp only
      split <;> rfl

theorem rest_messages (s : EventFeed) (stale : Nat → Bytes) (n : Nat) :
    (s.rest stale n).room.messages = s.room.messages := by
  rw [RoomStream.messages, rest_roomLog]
  rfl

theorem rest_reads (h : s.Reads start)
    (hprints : ∀ message ∈ s.room.messages, message.Prints) (n : Nat) :
    (s.rest stale n).Reads start := by
  induction n with
  | zero => exact h
  | succ n ih =>
    rw [rest_add]
    have hgiven : (s.rest stale n).Given (.next stale) := fun message hmessage =>
      hprints message (by rwa [rest_messages] at hmessage)
    exact reads_step ih hgiven

/-- So many whole ticks, one at the least. -/
theorem rest_cycles (hs : s.Ready) (h : s.Reads start)
    (hprints : ∀ message ∈ s.room.messages, message.Prints) (m : Nat) :
    ∃ n, (s.rest stale n).Ready ∧ (s.rest stale n).ledger.file = s.ledger.file ∧
      (s.rest stale n).room = run RoomStream.step s.room (List.replicate (m + 1) .poll) ∧
      (s.rest stale n).ledger.frames = recordFrames (s.ledger.file.complete.drop start) := by
  induction m with
  | zero =>
    obtain ⟨n, hready, hfile, hroom, hframes⟩ := @rest_cycle start s stale hs h.sent
    exact ⟨n, hready, hfile, hroom, hframes⟩
  | succ m ih =>
    obtain ⟨n, hready, hfile, hroom, -⟩ := ih
    obtain ⟨n', hready', hfile', hroom', hframes'⟩ :=
      @rest_cycle start _ stale hready (rest_reads h hprints n).sent
    refine ⟨n + n', ?_⟩
    rw [rest_add]
    refine ⟨hready', hfile'.trans hfile, ?_, ?_⟩
    · have hsplit : List.replicate (m + 1 + 1) RoomAction.poll =
          List.replicate (m + 1) .poll ++ [.poll] := List.replicate_succ'
      rw [hroom', hroom, hsplit, run_append]
      rfl
    · rw [hframes', hfile]

end rest

end WovenTeam

import WovenTeam.Room

/-!
# Appending to a file

The byte view of the two append-only logs. `wtTaskAppendRecord`, `wtRoomAppendMessage` and
`wtRoomAppendNewMessage` share their last lines: one `write` for the record, one for its newline,
an optional `fsync`, and no repair of what an earlier call left behind. Here a call may stop after
any prefix of its bytes, and the readers' lines are taken from the bytes.

`readsBack_iff` says when a record is read back as the line it was written as: the file was at a
line start of the reader, and the record fits the reader's buffer. `acknowledged_readsBack_iff`
is the same for every acknowledged record of a run.
-/

namespace WovenTeam

open CText QuotedText LineReader

/-! ## The calls -/

/-- What the system does with a call: how many bytes of the record reach the file, whether the
newline does, whether `fsync` succeeds. A call that cannot open or lock the file, or dies, is one
that stops early. -/
structure Writes where
  record : Nat
  newline : Bool
  fsync : Bool
  deriving DecidableEq, Repr

/-- The file after the two writes, and whether the call returns 0. -/
def writeRecord (file jsonLine : Bytes) (writes : Writes) (fsyncRecord : Bool) : Bytes × Bool :=
  if jsonLine.length ≤ writes.record then
    if writes.newline then
      (file ++ (jsonLine ++ [newline]), !fsyncRecord || writes.fsync)
    else (file ++ jsonLine, false)
  else (file ++ jsonLine.take writes.record, false)

/-- The file grows only, and by the whole line where the call returns 0. -/
theorem writeRecord_spec (file jsonLine : Bytes) (writes : Writes) (fsyncRecord : Bool) :
    file <+: (writeRecord file jsonLine writes fsyncRecord).1 ∧
      ((writeRecord file jsonLine writes fsyncRecord).2 = true →
        (writeRecord file jsonLine writes fsyncRecord).1 = file ++ (jsonLine ++ [newline])) := by
  unfold writeRecord
  split
  · split <;> simp
  · simp

/-- A successful append at a line start is the append of the line view. -/
theorem fgetsLines_writeRecord {file jsonLine : Bytes} {writes : Writes} {fsyncRecord : Bool}
    (h : AtLineStart wtTaskLedgerLineSize file)
    (hok : (writeRecord file jsonLine writes fsyncRecord).2 = true) :
    fgetsLines wtTaskLedgerLineSize (writeRecord file jsonLine writes fsyncRecord).1 =
      wtTaskAppendRecord (fgetsLines wtTaskLedgerLineSize file) jsonLine := by
  rw [(writeRecord_spec file jsonLine writes fsyncRecord).2 hok, fgetsLines_append h]
  rfl

/-- The record `wtRoomAppendNewMessage` prints: the message with the next id and, where it has
none, a time. -/
def newMessageJson (roomLog : Bytes) (message : WtMessage) (now : Int) : Option Members :=
  let createdAtUnixMs := if message.createdAtUnixMs = 0 then now else message.createdAtUnixMs
  wtMessageToJson
    { message with messageId := wrap64 (wtRoomReadLastMessageId roomLog + 1), createdAtUnixMs }
    wtMessageJsonSize

/-- A record on one line, as the writers' callers hand it over. -/
structure RecordText where
  text : Bytes
  oneLine : newline ∉ text

/-- The two logs. -/
inductive Log where
  | task
  | room
  deriving DecidableEq, Repr

/-- The line buffer of the log's readers. -/
def Log.lineSize : Log → Nat
  | .task => wtTaskLedgerLineSize
  | .room => wtMessageJsonSize

/-- A call of `wtTaskAppendRecord` or of `wtRoomAppendNewMessage`. -/
inductive AppendCall where
  | task (jsonLine : RecordText) (writes : Writes) (fsyncRecord : Bool)
  | room (message : WtMessage) (now : Int) (writes : Writes) (fsyncEachMessage : Bool)

def AppendCall.log : AppendCall → Log
  | .task .. => .task
  | .room .. => .room

/-- A call that returned 0: the log, its bytes before the call, and the record. -/
structure Acknowledged where
  log : Log
  before : Bytes
  record : Bytes

structure Logs where
  taskLedger : Bytes := []
  roomLog : Bytes := []
  acknowledged : List Acknowledged := []

def Logs.file (s : Logs) : Log → Bytes
  | .task => s.taskLedger
  | .room => s.roomLog

/-- The record a call writes; nothing where it gives up before. -/
def AppendCall.record (s : Logs) : AppendCall → Option Bytes
  | .task jsonLine _ _ => some jsonLine.text
  | .room message now _ _ => (newMessageJson s.roomLog message now).map Members.object

def AppendCall.write (file record : Bytes) : AppendCall → Bytes × Bool
  | .task _ writes fsyncRecord => writeRecord file record writes fsyncRecord
  | .room _ _ writes fsyncEachMessage => writeRecord file record writes fsyncEachMessage

def Logs.set (s : Logs) (log : Log) (file : Bytes) : Logs :=
  match log with
  | .task => { s with taskLedger := file }
  | .room => { s with roomLog := file }

def Logs.step (s : Logs) (call : AppendCall) : Logs :=
  match call.record s with
  | none => s
  | some record =>
    let before := s.file call.log
    let written := call.write before record
    let s := s.set call.log written.1
    if written.2 then
      { s with acknowledged := s.acknowledged ++ [⟨call.log, before, record⟩] }
    else s

def runAppends (calls : List AppendCall) : Logs := calls.foldl Logs.step {}

/-! ## Reading back -/

/-- The record is one line of the reader, at its place in the file. -/
def ReadsBack (size : Nat) (file : Bytes) (offset : Nat) (record : Bytes) : Prop :=
  ∃ earlier line later, fgetsLines size file = earlier ++ line :: later ∧
    earlier.flatten.length = offset ∧ (line = record ∨ line = record ++ [newline])

/-- **A record in the file is read back as its own line exactly when it was appended at a line
start and fits the buffer.** -/
theorem readsBack_iff {size : Nat} (hsize : 2 ≤ size) {before record : Bytes}
    (hn : newline ∉ record) (rest : Bytes) :
    ReadsBack size (before ++ (record ++ newline :: rest)) before.length record ↔
      AtLineStart size before ∧ record.length < size := by
  constructor
  · rintro ⟨earlier, line, later, hlines, hoff, hline⟩
    obtain ⟨hat, hlen⟩ := atLineStart_of_split hlines hsize
    have hflat : (fgetsLines size (before ++ (record ++ newline :: rest))).flatten =
        before ++ (record ++ newline :: rest) := flatten_fgetsLines _
    rw [hlines, List.flatten_append] at hflat
    have hbefore := (List.append_inj hflat hoff).1
    rw [← hbefore]
    refine ⟨hat, ?_⟩
    rcases hline with rfl | rfl
    · exact hlen
    · simp only [List.length_append, List.length_singleton] at hlen
      omega
  · rintro ⟨hat, hlen⟩
    have hsplit := fgetsLines_append hat (record ++ newline :: rest)
    have hfirst : ∃ line later, fgetsLines size (record ++ newline :: rest) = line :: later ∧
        (line = record ∨ line = record ++ [newline]) := by
      by_cases hfull : record.length + 1 = size
      · exact ⟨_, _, fgetsLines_full_record hn hfull hsize rest, .inl rfl⟩
      · exact ⟨_, _, fgetsLines_record hn (by omega) rest, .inr rfl⟩
    obtain ⟨line, later, hlines, hline⟩ := hfirst
    rw [hlines] at hsplit
    exact ⟨fgetsLines size before, line, later, hsplit, by rw [flatten_fgetsLines], hline⟩

/-! ## Runs -/

/-- What every reached state keeps of an acknowledged call. -/
def Kept (s : Logs) (a : Acknowledged) : Prop :=
  newline ∉ a.record ∧ ∃ rest, s.file a.log = a.before ++ (a.record ++ newline :: rest)

theorem AppendCall.newline_notMem_record {s : Logs} {call : AppendCall} {record : Bytes}
    (h : call.record s = some record) : newline ∉ record := by
  cases call with
  | task jsonLine =>
    cases h
    exact jsonLine.oneLine
  | room message now =>
    obtain ⟨json, -, rfl⟩ := Option.map_eq_some_iff.mp h
    exact json.newline_notMem_object

theorem AppendCall.write_spec (file record : Bytes) (call : AppendCall) :
    file <+: (call.write file record).1 ∧ ((call.write file record).2 = true →
      (call.write file record).1 = file ++ (record ++ [newline])) := by
  cases call <;> exact writeRecord_spec ..

theorem Kept.of_start {s s' : Logs} {a : Acknowledged} (h : Kept s a)
    (hpre : s.file a.log <+: s'.file a.log) : Kept s' a := by
  obtain ⟨hn, rest, hfile⟩ := h
  obtain ⟨more, hmore⟩ := hpre
  exact ⟨hn, rest ++ more, by rw [← hmore, hfile]; simp⟩

theorem Logs.file_set (s : Logs) (log log' : Log) (file : Bytes) :
    (s.set log file).file log' = if log' = log then file else s.file log' := by
  cases log <;> cases log' <;> rfl

theorem Logs.acknowledged_set (s : Logs) (log : Log) (file : Bytes) :
    (s.set log file).acknowledged = s.acknowledged := by
  cases log <;> rfl

theorem kept_step {s : Logs} (h : ∀ a ∈ s.acknowledged, Kept s a) (call : AppendCall) :
    ∀ a ∈ (s.step call).acknowledged, Kept (s.step call) a := by
  unfold Logs.step
  cases hrec : call.record s with
  | none => exact h
  | some record =>
    have hn := AppendCall.newline_notMem_record hrec
    obtain ⟨hpre, hdone⟩ := AppendCall.write_spec (s.file call.log) record call
    have hset : ∀ a ∈ s.acknowledged,
        Kept (s.set call.log (call.write (s.file call.log) record).1) a := by
      intro a ha
      refine (h a ha).of_start ?_
      rw [Logs.file_set]
      split
      · rename_i hlog
        rw [hlog]
        exact hpre
      · exact List.prefix_rfl
    dsimp only
    split
    · rename_i hok
      intro a ha
      rw [Logs.acknowledged_set] at ha
      rcases List.mem_append.mp ha with ha | ha
      · exact hset a ha
      · rw [List.mem_singleton.mp ha]
        refine ⟨hn, [], ?_⟩
        have := s.file_set call.log call.log (call.write (s.file call.log) record).1
        rw [if_pos rfl] at this
        exact this.trans (hdone hok)
    · intro a ha
      rw [Logs.acknowledged_set] at ha
      exact hset a ha

theorem kept_runAppends (calls : List AppendCall) :
    ∀ a ∈ (runAppends calls).acknowledged, Kept (runAppends calls) a := by
  have hrun : ∀ s : Logs, (∀ a ∈ s.acknowledged, Kept s a) →
      ∀ a ∈ (calls.foldl Logs.step s).acknowledged, Kept (calls.foldl Logs.step s) a := by
    induction calls with
    | nil => exact fun _ h => h
    | cons call calls ih => exact fun s h => ih (s.step call) (kept_step h call)
  exact hrun {} (by simp)

/-- **Of every run, each acknowledged record is read back as its own line exactly when each
acknowledged call found its log at a line start and had a record that fits the readers' buffer.** -/
theorem acknowledged_readsBack_iff (calls : List AppendCall) :
    (∀ a ∈ (runAppends calls).acknowledged,
        ReadsBack a.log.lineSize ((runAppends calls).file a.log) a.before.length a.record) ↔
      ∀ a ∈ (runAppends calls).acknowledged,
        AtLineStart a.log.lineSize a.before ∧ a.record.length < a.log.lineSize := by
  refine forall₂_congr fun a ha => ?_
  obtain ⟨hn, rest, hfile⟩ := kept_runAppends calls a ha
  have hsize : 2 ≤ a.log.lineSize := by
    cases a.log <;> decide
  rw [hfile]
  exact readsBack_iff hsize hn rest

/-! ### A torn tail -/

def tornRecord : RecordText :=
  ⟨bytes "\x7b\"schema\":\"woventeam.kill_event.v0.1\",\"taskId\":\"t1\"\x7d", by decide⟩

def nextRecord : RecordText :=
  ⟨bytes "\x7b\"schema\":\"woventeam.kill_event.v0.1\",\"taskId\":\"t2\"\x7d", by decide⟩

/-- A call whose newline does not reach the disk, and one that succeeds after it. -/
def tornRun : List AppendCall :=
  [.task tornRecord ⟨60, false, false⟩ false, .task nextRecord ⟨60, true, true⟩ false]

/-- The acknowledged second record is joined to the first one's line. -/
theorem not_readsBack_tornRun :
    ¬ ∀ a ∈ (runAppends tornRun).acknowledged,
      ReadsBack a.log.lineSize ((runAppends tornRun).file a.log) a.before.length a.record := by
  have hrun : runAppends tornRun =
      { taskLedger := tornRecord.text ++ (nextRecord.text ++ newline :: [])
        acknowledged := [⟨.task, tornRecord.text, nextRecord.text⟩] } := rfl
  rw [hrun]
  intro h
  have hback := h _ (List.mem_singleton.mpr rfl)
  have hstart := (readsBack_iff (by decide) nextRecord.oneLine []).mp hback
  exact absurd hstart.1 (by decide +kernel)

end WovenTeam

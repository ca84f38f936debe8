import WovenTeam.Lib.LineReader
import WovenTeam.Lib.Runs
import WovenTeam.Store.Ledger

/-!
# The ledger stream

`streamLedgerDelta` tails the task ledger by byte offset. A tick notes the file's end, reads lines
from the offset until it passes that end or finds a line without its newline, and sends each as a
frame. Writers append a record in two writes, so that the file may end in a record whose newline is
still to come, and may write while a tick is reading.

`ledgerStream_exact_iff`: every run sends exactly the records that were completed behind the
offset at which the client connected, in order and each once, with the offset at a record boundary,
exactly where the ledger had no half-written record when the client connected.
-/

namespace WovenTeam

open CText LineReader Runs

/-! ## The ledger file -/

/-- A record as the writers append one: a C string on one line that fits the reader's buffer with
its newline. -/
structure LedgerRecord where
  text : Bytes
  oneLine : newline ∉ text
  terminated : 0 ∉ text
  fits : text.length + 2 ≤ wtTaskLedgerLineSize

def LedgerRecord.line (record : LedgerRecord) : Bytes := record.text ++ [newline]

/-- The records of the file, and the one whose newline is still to be written. -/
structure LedgerFile where
  complete : List LedgerRecord := []
  pending : Option LedgerRecord := none

def recordLines (records : List LedgerRecord) : Bytes := records.flatMap LedgerRecord.line

def LedgerFile.pendingText (file : LedgerFile) : Bytes :=
  match file.pending with
  | some record => record.text
  | none => []

def LedgerFile.contents (file : LedgerFile) : Bytes :=
  recordLines file.complete ++ file.pendingText

/-- The first write of an append; under the lock only one append is under way. -/
def LedgerFile.record (file : LedgerFile) (record : LedgerRecord) : LedgerFile :=
  match file.pending with
  | none => { file with pending := some record }
  | some _ => file

/-- The second write. -/
def LedgerFile.newline (file : LedgerFile) : LedgerFile :=
  match file.pending with
  | none => file
  | some record => { complete := file.complete ++ [record], pending := none }

/-! ## The stream -/

/-- The ledger, the offset, the position and the noted end of a tick under way, and the frames
sent. -/
structure LedgerStream where
  file : LedgerFile
  offset : Nat
  reading : Option (Nat × Nat) := none
  frames : List Bytes := []

/-- The frame of a line without its newline: nothing for a blank line, and a return at the end is
dropped. -/
def ledgerFrames (line : Bytes) : List Bytes :=
  if line = [] then []
  else
    let data := if line.getLast? = some 13 then line.dropLast else line
    [bytes "event: ledger\ndata: " ++ data ++ bytes "\n\n"]

/-- `streamLedgerDelta` up to its loop. -/
def LedgerStream.tick (s : LedgerStream) : LedgerStream :=
  let fileEnd := s.file.contents.length
  if s.offset > fileEnd then { s with offset := fileEnd }
  else if s.offset = fileEnd then s
  else { s with reading := some (s.offset, fileEnd) }

/-- One round of the loop of `streamLedgerDelta`. -/
def LedgerStream.readLine (s : LedgerStream) : LedgerStream :=
  match s.reading with
  | none => s
  | some (position, fileEnd) =>
    if position < fileEnd then
      match fgetsLines wtTaskLedgerLineSize (s.file.contents.drop position) with
      | [] => { s with reading := none }
      | line :: _ =>
        let text := line.takeWhile (· != 0)
        if text.getLast? = some newline then
          { s with
            offset := position + line.length
            reading := some (position + line.length, fileEnd)
            frames := s.frames ++ ledgerFrames text.dropLast }
        else { s with reading := none }
    else { s with reading := none }

inductive LedgerAction where
  | record (record : LedgerRecord)
  | newline
  | tick
  | readLine

def LedgerStream.step (s : LedgerStream) : LedgerAction → LedgerStream
  | .record record => { s with file := s.file.record record }
  | .newline => { s with file := s.file.newline }
  | .tick => if s.reading = none then s.tick else s
  | .readLine => s.readLine

/-- `handleEvents` seeds the offset with the file's size. -/
def connectLedger (file : LedgerFile) : LedgerStream where
  file := file
  offset := file.contents.length

/-! ## Reading at a record boundary -/

theorem recordLines_append (records more : List LedgerRecord) :
    recordLines (records ++ more) = recordLines records ++ recordLines more :=
  List.flatMap_append

theorem length_recordLines_take_succ {records : List LedgerRecord} {record : LedgerRecord} {k : Nat}
    {rest : List LedgerRecord} (h : records.drop k = record :: rest) :
    (recordLines (records.take (k + 1))).length =
      (recordLines (records.take k)).length + record.line.length := by
  have hget : records[k]? = some record := by
    rw [← List.head?_drop, h]
    rfl
  rw [List.take_add_one, hget, recordLines_append, List.length_append]
  simp [recordLines]

theorem contents_drop (file : LedgerFile) (k : Nat) :
    file.contents.drop (recordLines (file.complete.take k)).length =
      recordLines (file.complete.drop k) ++ file.pendingText := by
  have hsplit : file.contents = recordLines (file.complete.take k) ++
      (recordLines (file.complete.drop k) ++ file.pendingText) := by
    rw [LedgerFile.contents, ← List.append_assoc, ← recordLines_append, List.take_append_drop]
  rw [hsplit, List.drop_left]

theorem pendingText_line (file : LedgerFile) : file.pendingText = [] ∨
    fgetsLines wtTaskLedgerLineSize file.pendingText = [file.pendingText] ∧
      (file.pendingText.takeWhile (· != 0)).getLast? ≠ some newline := by
  unfold LedgerFile.pendingText
  cases file.pending with
  | none => exact .inl rfl
  | some record =>
    by_cases hne : record.text = []
    · exact .inl hne
    · have hfits : record.text.length < wtTaskLedgerLineSize := by
        have := record.fits
        omega
      refine .inr ⟨fgetsLines_unfinished record.oneLine hne hfits (by decide), fun hlast => ?_⟩
      exact record.oneLine ((List.takeWhile_prefix _).sublist.subset (List.mem_of_getLast? hlast))

/-- A line without zero bytes is its own C string. -/
theorem line_takeWhile (record : LedgerRecord) : record.line.takeWhile (· != 0) = record.line := by
  refine List.takeWhile_eq_self_iff.mpr fun b hb => ?_
  rcases List.mem_append.mp hb with hb | hb
  · exact bne_iff_ne.mpr fun h => record.terminated (h ▸ hb)
  · rw [List.mem_singleton.mp hb]
    decide

/-! ## The invariant -/

def recordFrames (records : List LedgerRecord) : List Bytes :=
  records.flatMap fun record => ledgerFrames record.text

/-- The records from `start` to `k` have been sent, and the offset is behind them. -/
structure SentUpTo (start k : Nat) (s : LedgerStream) : Prop where
  start_le : start ≤ k
  complete : k ≤ s.file.complete.length
  offset : s.offset = (recordLines (s.file.complete.take k)).length
  frames : s.frames = recordFrames ((s.file.complete.take k).drop start)
  position : ∀ position fileEnd, s.reading = some (position, fileEnd) → position = s.offset

section step

variable {start k : Nat} {s : LedgerStream}

theorem SentUpTo.offset_le (h : SentUpTo start k s) : s.offset ≤ s.file.contents.length := by
  have hdrop := congrArg List.length (contents_drop s.file k)
  have hsplit : recordLines s.file.complete =
      recordLines (s.file.complete.take k) ++ recordLines (s.file.complete.drop k) := by
    rw [← recordLines_append, List.take_append_drop]
  rw [h.offset, LedgerFile.contents, hsplit, List.length_append, List.length_append]
  omega

/-- More records at the end of the file change nothing of what was sent. -/
theorem SentUpTo.of_grown (h : SentUpTo start k s) {file : LedgerFile}
    (hfile : s.file.complete <+: file.complete) : SentUpTo start k { s with file } := by
  obtain ⟨more, hmore⟩ := hfile
  have htake : file.complete.take k = s.file.complete.take k := by
    rw [← hmore, List.take_append_of_le_length h.complete]
  refine ⟨h.start_le, ?_, ?_, ?_, h.position⟩
  · rw [← hmore, List.length_append]
    exact Nat.le_add_right_of_le h.complete
  · rw [htake]
    exact h.offset
  · rw [htake]
    exact h.frames

theorem complete_record (file : LedgerFile) (record : LedgerRecord) :
    (file.record record).complete = file.complete := by
  unfold LedgerFile.record
  cases file.pending <;> rfl

theorem complete_newline (file : LedgerFile) : file.complete <+: file.newline.complete := by
  unfold LedgerFile.newline
  cases file.pending with
  | none => exact List.prefix_rfl
  | some record => exact List.prefix_append _ _

/-- A tick begins to read at the offset, unless the file ends there. -/
theorem tick_eq (h : SentUpTo start k s) :
    s.tick = if s.offset = s.file.contents.length then s
      else { s with reading := some (s.offset, s.file.contents.length) } := by
  have hle := h.offset_le
  unfold LedgerStream.tick
  dsimp only
  rw [if_neg (by omega)]

/-- Where there is another record in front of the noted end, it is sent. -/
theorem readLine_record (h : SentUpTo start k s) {fileEnd : Nat}
    (hreading : s.reading = some (s.offset, fileEnd)) (hlt : s.offset < fileEnd)
    {record : LedgerRecord} {rest : List LedgerRecord}
    (hdrop : s.file.complete.drop k = record :: rest) :
    s.readLine = { s with
      offset := s.offset + record.line.length
      reading := some (s.offset + record.line.length, fileEnd)
      frames := s.frames ++ ledgerFrames record.text } := by
  have hlines : ∃ later, fgetsLines wtTaskLedgerLineSize (s.file.contents.drop s.offset) =
      record.line :: later := by
    rw [h.offset, contents_drop, hdrop]
    refine ⟨fgetsLines wtTaskLedgerLineSize (recordLines rest ++ s.file.pendingText), ?_⟩
    rw [LedgerRecord.line, ← fgetsLines_record record.oneLine record.fits]
    simp [recordLines, LedgerRecord.line]
  obtain ⟨later, hlines⟩ := hlines
  unfold LedgerStream.readLine
  rw [hreading]
  dsimp only
  rw [if_pos hlt, hlines]
  dsimp only
  rw [line_takeWhile, if_pos (by simp [LedgerRecord.line])]
  simp [LedgerRecord.line]

/-- At the noted end, or where only a part of a record is left, the tick is over. -/
theorem readLine_stop (h : SentUpTo start k s) {fileEnd : Nat}
    (hreading : s.reading = some (s.offset, fileEnd))
    (hstop : fileEnd ≤ s.offset ∨ s.file.complete.drop k = []) :
    s.readLine = { s with reading := none } := by
  unfold LedgerStream.readLine
  rw [hreading]
  dsimp only
  split
  · rename_i hlt
    have hdrop := hstop.resolve_left (by omega)
    rw [h.offset, contents_drop, hdrop]
    have hrest : recordLines [] ++ s.file.pendingText = s.file.pendingText := rfl
    rw [hrest]
    rcases pendingText_line s.file with hnil | ⟨hline, hlast⟩
    · rw [hnil]
      have hlines : fgetsLines wtTaskLedgerLineSize [] = [] := by decide
      rw [hlines]
    · rw [hline]
      dsimp only
      rw [if_neg hlast]
  · rfl

theorem SentUpTo.next (h : SentUpTo start k s) {fileEnd : Nat} {record : LedgerRecord}
    {rest : List LedgerRecord} (hdrop : s.file.complete.drop k = record :: rest) :
    SentUpTo start (k + 1) { s with
      offset := s.offset + record.line.length
      reading := some (s.offset + record.line.length, fileEnd)
      frames := s.frames ++ ledgerFrames record.text } := by
  have hlt : k < s.file.complete.length := by
    by_contra hge
    rw [List.drop_eq_nil_of_le (by omega)] at hdrop
    cases hdrop
  have hget : s.file.complete[k]? = some record := by
    rw [← List.head?_drop, hdrop]
    rfl
  refine ⟨Nat.le_succ_of_le h.start_le, hlt, ?_, ?_, ?_⟩
  · rw [length_recordLines_take_succ hdrop, h.offset]
  · have htake : (s.file.complete.take (k + 1)).drop start =
        (s.file.complete.take k).drop start ++ [record] := by
      rw [List.take_add_one, hget, List.drop_append_of_le_length]
      · rfl
      · rw [List.length_take]
        have := h.start_le
        omega
    show s.frames ++ ledgerFrames record.text =
      recordFrames ((s.file.complete.take (k + 1)).drop start)
    rw [htake, h.frames, recordFrames, recordFrames, List.flatMap_append]
    simp
  · intro position fileEnd' hreading
    cases hreading
    rfl

theorem SentUpTo.stop (h : SentUpTo start k s) : SentUpTo start k { s with reading := none } :=
  ⟨h.start_le, h.complete, h.offset, h.frames, fun _ _ hreading => by cases hreading⟩

/-- **Every step keeps the offset behind the records that were sent, whether a writer, a tick or a
read is next.** -/
theorem sentUpTo_step (h : SentUpTo start k s) (action : LedgerAction) :
    ∃ k', SentUpTo start k' (s.step action) := by
  cases action with
  | record record => exact ⟨k, h.of_grown (by rw [complete_record])⟩
  | newline => exact ⟨k, h.of_grown (complete_newline s.file)⟩
  | tick =>
    refine ⟨k, ?_⟩
    rw [LedgerStream.step]
    split
    · rw [tick_eq h]
      split
      · exact h
      · exact ⟨h.start_le, h.complete, h.offset, h.frames, fun _ _ hreading => by
          cases hreading
          rfl⟩
    · exact h
  | readLine =>
    rw [LedgerStream.step]
    cases hreading : s.reading with
    | none =>
      refine ⟨k, ?_⟩
      rw [LedgerStream.readLine, hreading]
      exact h
    | some noted =>
      obtain ⟨position, fileEnd⟩ := noted
      obtain rfl := h.position position fileEnd hreading
      by_cases hlt : s.offset < fileEnd
      · cases hdrop : s.file.complete.drop k with
        | nil => exact ⟨k, by rw [readLine_stop h hreading (.inr hdrop)]; exact h.stop⟩
        | cons record rest =>
          exact ⟨k + 1, by rw [readLine_record h hreading hlt hdrop]; exact h.next hdrop⟩
      · exact ⟨k, by rw [readLine_stop h hreading (.inl (by omega))]; exact h.stop⟩

end step

/-! ## A whole tick -/

/-- The reads left of a tick, and one tick more, with so many reads each. -/
def wholeTick (reads : Nat) : List LedgerAction :=
  List.replicate reads .readLine ++ .tick :: List.replicate reads .readLine

section settle

variable {start k : Nat} {s : LedgerStream}

theorem run_readLine_idle (hreading : s.reading = none) (reads : Nat) :
    run LedgerStream.step s (List.replicate reads .readLine) = s := by
  have hstep : s.step .readLine = s := by
    rw [LedgerStream.step, LedgerStream.readLine, hreading]
  induction reads with
  | zero => rfl
  | succ reads ih => rw [List.replicate_succ, run_cons, hstep, ih]

/-- Enough reads end the tick, at its noted end or at the last complete record. -/
theorem run_readLine (h : SentUpTo start k s) {fileEnd reads : Nat}
    (hreading : s.reading = some (s.offset, fileEnd)) (hreads : s.file.complete.length < k + reads) :
    ∃ k' s', run LedgerStream.step s (List.replicate reads .readLine) = s' ∧
      SentUpTo start k' s' ∧ s'.reading = none ∧ s'.file = s.file ∧
      (fileEnd ≤ s'.offset ∨ k' = s.file.complete.length) := by
  induction reads generalizing s k with
  | zero =>
    have := h.complete
    omega
  | succ reads ih =>
    rw [List.replicate_succ, run_cons, LedgerStream.step]
    by_cases hlt : s.offset < fileEnd
    · cases hdrop : s.file.complete.drop k with
      | nil =>
        have hk : s.file.complete.length ≤ k := List.drop_eq_nil_iff.mp hdrop
        rw [readLine_stop h hreading (.inr hdrop)]
        exact ⟨k, _, run_readLine_idle rfl reads, h.stop, rfl, rfl,
          .inr (le_antisymm h.complete hk)⟩
      | cons record rest =>
        rw [readLine_record h hreading hlt hdrop]
        exact ih (h.next hdrop) rfl (by dsimp only; omega)
    · rw [readLine_stop h hreading (.inl (by omega))]
      exact ⟨k, _, run_readLine_idle rfl reads, h.stop, rfl, rfl, .inl (by dsimp only; omega)⟩

/-- Where the whole file has been read, all complete records have been sent. -/
theorem SentUpTo.eq_length (h : SentUpTo start k s)
    (hend : s.file.contents.length ≤ s.offset) : k = s.file.complete.length := by
  by_contra hne
  have hlt : k < s.file.complete.length := lt_of_le_of_ne h.complete hne
  have hdrop := congrArg List.length (contents_drop s.file k)
  have hlines : recordLines (s.file.complete.drop k) =
      s.file.complete[k].line ++ recordLines (s.file.complete.drop (k + 1)) := by
    rw [List.drop_eq_getElem_cons hlt]
    rfl
  rw [List.length_drop, ← h.offset, hlines, LedgerRecord.line] at hdrop
  simp only [List.length_append, List.length_singleton] at hdrop
  omega

theorem SentUpTo.frames_all (h : SentUpTo start k s) (hk : k = s.file.complete.length) :
    s.frames = recordFrames (s.file.complete.drop start) := by
  rw [h.frames, hk, List.take_length]

/-- **A tick that no write interrupts sends all complete records.** -/
theorem frames_wholeTick (h : SentUpTo start k s) {reads : Nat}
    (hreads : s.file.complete.length < reads) :
    (run LedgerStream.step s (wholeTick reads)).frames =
      recordFrames (s.file.complete.drop start) := by
  obtain ⟨k', s', hrun, h', hidle, hfile⟩ : ∃ k' s',
      run LedgerStream.step s (List.replicate reads .readLine) = s' ∧ SentUpTo start k' s' ∧
        s'.reading = none ∧ s'.file = s.file := by
    cases hreading : s.reading with
    | none => exact ⟨k, s, run_readLine_idle hreading reads, h, hreading, rfl⟩
    | some noted =>
      obtain ⟨position, fileEnd⟩ := noted
      obtain rfl := h.position position fileEnd hreading
      obtain ⟨k', s', hrun, h', hidle, hfile, -⟩ :=
        run_readLine h hreading (show s.file.complete.length < k + reads by omega)
      exact ⟨k', s', hrun, h', hidle, hfile⟩
  rw [wholeTick, run_append, hrun, run_cons, LedgerStream.step, if_pos hidle, ← hfile]
  rw [← hfile] at hreads
  rw [tick_eq h']
  split
  · rename_i hend
    rw [run_readLine_idle hidle]
    exact h'.frames_all (h'.eq_length hend.ge)
  · have hbegin : SentUpTo start k'
        { s' with reading := some (s'.offset, s'.file.contents.length) } :=
      ⟨h'.start_le, h'.complete, h'.offset, h'.frames, fun _ _ hreading => by
        cases hreading
        rfl⟩
    obtain ⟨last, final, hfinal, hsent, -, hkept, hdone⟩ :=
      run_readLine hbegin rfl (show s'.file.complete.length < k' + reads by omega)
    rw [hfinal]
    have hkept' : final.file = s'.file := hkept
    rw [hsent.frames_all, hkept']
    rcases hdone with hdone | hdone
    · exact hsent.eq_length (by rw [hkept']; exact hdone)
    · rw [hkept']
      exact hdone

end settle

/-! ## Runs -/

/-- The ledger ends at a record boundary. -/
def LedgerFile.AtBoundary (file : LedgerFile) : Prop := file.pendingText = []

/-- In the state the offset is at a record boundary, the frames are those of the records between the
client's connection and the offset, and a whole tick more makes them those of all. -/
def DeliversOnce (start : Nat) (s : LedgerStream) : Prop :=
  (∃ k, start ≤ k ∧ k ≤ s.file.complete.length ∧
      s.offset = (recordLines (s.file.complete.take k)).length ∧
      s.frames = recordFrames ((s.file.complete.take k).drop start)) ∧
    ∀ reads, s.file.complete.length < reads →
      (run LedgerStream.step s (wholeTick reads)).frames =
        recordFrames (s.file.complete.drop start)

theorem deliversOnce_of_sentUpTo {start k : Nat} {s : LedgerStream} (h : SentUpTo start k s) :
    DeliversOnce start s :=
  ⟨⟨k, h.start_le, h.complete, h.offset, h.frames⟩, fun _ hreads => frames_wholeTick h hreads⟩

theorem sentUpTo_connect {file : LedgerFile} (h : file.AtBoundary) :
    SentUpTo file.complete.length file.complete.length (connectLedger file) := by
  refine ⟨le_rfl, le_rfl, ?_, ?_, fun _ _ hreading => by cases hreading⟩
  · show file.contents.length = _
    rw [LedgerFile.contents, h, List.append_nil, connectLedger, List.take_length]
  · show [] = _
    rw [connectLedger, List.take_length, List.drop_length]
    rfl

theorem sentUpTo_run {start k : Nat} {s : LedgerStream} (h : SentUpTo start k s)
    (actions : List LedgerAction) : ∃ k', SentUpTo start k' (run LedgerStream.step s actions) := by
  induction actions generalizing s k with
  | nil => exact ⟨k, h⟩
  | cons action actions ih =>
    obtain ⟨k', h'⟩ := sentUpTo_step h action
    exact ih h'

/-- **Every schedule of writes, ticks and reads delivers the records completed after the connection
exactly once, in order and whole, exactly where no half-written record stood at the end of the
ledger when the client connected.** -/
theorem ledgerStream_exact_iff (file : LedgerFile) :
    (∀ actions, DeliversOnce file.complete.length
        (run LedgerStream.step (connectLedger file) actions)) ↔ file.AtBoundary := by
  constructor
  · intro h
    obtain ⟨⟨k, -, hk, hoffset, -⟩, -⟩ := h []
    have hoffset' : file.contents.length = (recordLines (file.complete.take k)).length := hoffset
    have hsplit : recordLines file.complete =
        recordLines (file.complete.take k) ++ recordLines (file.complete.drop k) := by
      rw [← recordLines_append, List.take_append_drop]
    rw [LedgerFile.contents, hsplit, List.length_append, List.length_append] at hoffset'
    exact List.eq_nil_of_length_eq_zero (by omega)
  · intro h actions
    obtain ⟨k, hk⟩ := sentUpTo_run (sentUpTo_connect h) actions
    exact deliversOnce_of_sentUpTo hk

/-- A ledger with nothing but a record whose newline is still to come. -/
def halfWritten : LedgerFile where
  pending := some ⟨bytes "\x7b\"taskId\":\"t\"\x7d", by decide, by decide, by decide⟩

/-- A client that connects between the two writes of a record never gets it. -/
theorem not_ledgerStream_exact : ¬ ∀ (file : LedgerFile) (actions : List LedgerAction),
    DeliversOnce file.complete.length (run LedgerStream.step (connectLedger file) actions) := by
  intro hall
  have hsent := (hall halfWritten [.newline]).2 2 (by decide)
  exact absurd hsent (by decide +kernel)

end WovenTeam

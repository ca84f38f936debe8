import WovenTeam.Lib.Periodic
import WovenTeam.Claims
import WovenTeam.ClaimScans
import WovenTeam.ShellCommands
import WovenTeam.Store.Release
import WovenTeam.TaskViews

/-!
# AdapterWait for an adapter

`waitForAdapterChild` of the agent. While the adapter's process runs, the agent looks at it about
once a second: it ends the wait at the timeout or when an operator has asked for a cancel, and
renews its lease from time to time. What a look finds is a parameter (`Look`): what others have
appended to the ledger by then, what `waitpid` says, and the clock.

`wait_bounded` says how long a wait goes on at most, `remote_excluded` that nobody else is handed
the task by the remote scan in the meantime.
-/

namespace WovenTeam

open CText QuotedText FirstSeen Periodic

/-- What `waitpid` says of the adapter's process; without an exit code it was ended by a signal. -/
inductive ChildState where
  | running
  | done (exitCode : Option (Fin 256))
  | failed
  deriving DecidableEq, Repr

/-- One round of the loop: the lines others have appended before the ledger is read, the process,
the clock in seconds, and, where the lease is renewed, the lines others append in front of the
renewal and its own time. -/
structure Look where
  heard : Ledger
  child : ChildState
  now : Int
  between : Ledger
  renewedAt : Long

inductive WaitEnd where
  | done (exitCode : Option (Fin 256))
  | timedOut
  | cancelled
  /-- `waitpid` failed. -/
  | lost
  deriving DecidableEq, Repr

/-- The arguments of the wait and the clock at its start. -/
structure AdapterWait where
  config : WtConfig
  agentName : Bytes
  taskId : Bytes
  start : Int
  timeoutSeconds : Int

def positiveOr (n fallback : Int) : Int := if n > 0 then n else fallback

def AdapterWait.renewalInterval (p : AdapterWait) : Int :=
  positiveOr p.config.leaseRenewalIntervalSeconds 600

def AdapterWait.cancelInterval (p : AdapterWait) : Int :=
  positiveOr p.config.cancelPollIntervalSeconds 5

def AdapterWait.leaseDuration (p : AdapterWait) : Int :=
  positiveOr p.config.leaseDurationSeconds 900

/-- The ledger and the loop's variables. -/
structure Wait where
  ledger : Ledger
  lastRenewal : Int
  lastCancelCheck : Int
  currentLeaseExpiry : Int

inductive Looked where
  | waits (w : Wait)
  | ends (w : Wait) (e : WaitEnd)

/-- `(int)(now - last) >= interval` -/
def due (interval last now : Int) : Bool := decide (interval ≤ toInt32 (now - last))

def AdapterWait.look (p : AdapterWait) (w : Wait) (l : Look) : Looked :=
  let ledger := w.ledger ++ l.heard
  match l.child with
  | .done exitCode => .ends { w with ledger } (.done exitCode)
  | .failed => .ends { w with ledger } .lost
  | .running =>
    if due p.timeoutSeconds p.start l.now then .ends { w with ledger } .timedOut
    else
      let checks := due p.cancelInterval w.lastCancelCheck l.now
      let lastCancelCheck := if checks then l.now else w.lastCancelCheck
      if checks && wtTaskCancelRequested ledger p.taskId then
        .ends { w with ledger, lastCancelCheck } .cancelled
      else if due p.renewalInterval w.lastRenewal l.now then
        let expires := leaseExpiry (l.now * 1000) p.config.leaseDurationSeconds
        .waits {
          ledger := (wtTaskAppendLeaseRenewal (ledger ++ l.between) p.taskId p.agentName 1 expires
            l.renewedAt).getD (ledger ++ l.between)
          lastRenewal := l.now
          lastCancelCheck
          currentLeaseExpiry := expires }
      else .waits { w with ledger, lastCancelCheck }

/-- The state the function sets up. -/
def AdapterWait.initial (p : AdapterWait) (ledger : Ledger) : Wait where
  ledger
  lastRenewal := p.start
  lastCancelCheck := p.start
  currentLeaseExpiry := leaseExpiry (p.start * 1000) p.config.leaseDurationSeconds

def waitForAdapterChild (p : AdapterWait) : Wait → List Look → Looked
  | w, [] => .waits w
  | w, l :: looks =>
    match p.look w l with
    | .waits w => waitForAdapterChild p w looks
    | .ends w e => .ends w e

/-! ## What a look does -/

/-- What is the case when the loop goes on behind a look. -/
structure Waited (p : AdapterWait) (w : Wait) (l : Look) (w' : Wait) : Prop where
  running : l.child = .running
  inTime : due p.timeoutSeconds p.start l.now = false
  lastCancelCheck : w'.lastCancelCheck =
    if due p.cancelInterval w.lastCancelCheck l.now then l.now else w.lastCancelCheck
  notCancelled : due p.cancelInterval w.lastCancelCheck l.now →
    wtTaskCancelRequested (w.ledger ++ l.heard) p.taskId = false
  kept : due p.renewalInterval w.lastRenewal l.now = false →
    w'.ledger = w.ledger ++ l.heard ∧ w'.lastRenewal = w.lastRenewal
  renewed : due p.renewalInterval w.lastRenewal l.now →
    w'.lastRenewal = l.now ∧
      w'.ledger = (wtTaskAppendLeaseRenewal (w.ledger ++ l.heard ++ l.between) p.taskId p.agentName
        1 (leaseExpiry (l.now * 1000) p.config.leaseDurationSeconds) l.renewedAt).getD
          (w.ledger ++ l.heard ++ l.between)

theorem look_waits {p : AdapterWait} {w w' : Wait} {l : Look} (h : p.look w l = .waits w') :
    Waited p w l w' := by
  unfold AdapterWait.look at h
  dsimp only at h
  split at h
  · cases h
  · cases h
  · rename_i hrunning
    split at h
    · cases h
    · rename_i htime
      split at h
      · cases h
      · rename_i hcancel
        have hno : due p.cancelInterval w.lastCancelCheck l.now →
            wtTaskCancelRequested (w.ledger ++ l.heard) p.taskId = false := by
          intro hdue
          simpa [hdue] using hcancel
        split at h
        · rename_i hrenew
          cases h
          exact ⟨hrunning, by simpa using htime, rfl, hno, fun hnot => by simp [hrenew] at hnot,
            fun _ => ⟨rfl, rfl⟩⟩
        · rename_i hrenew
          cases h
          exact ⟨hrunning, by simpa using htime, rfl, hno, fun _ => ⟨rfl, rfl⟩,
            fun hdue => absurd hdue hrenew⟩

/-- A wait that goes on has gone on behind each look. -/
theorem wait_concat {p : AdapterWait} {w w' : Wait} {looks : List Look} {l : Look} :
    waitForAdapterChild p w (looks ++ [l]) = .waits w' ↔
      ∃ v, waitForAdapterChild p w looks = .waits v ∧ p.look v l = .waits w' := by
  induction looks generalizing w with
  | nil =>
    simp only [List.nil_append, waitForAdapterChild]
    cases hlook : p.look w l <;> simp [hlook]
  | cons l' looks ih =>
    simp only [List.cons_append, waitForAdapterChild]
    cases p.look w l' <;> simp [ih]

/-! ## How long a wait goes on -/

section times

variable {p : AdapterWait} {ledger : Ledger} {gap : Int} {looks : List Look} {w : Wait}

/-- The looks come at most `gap` seconds after each other, and the times are small. -/
structure Punctual (p : AdapterWait) (gap : Int) (looks : List Look) : Prop where
  spaced : Spaced gap p.start (looks.map Look.now)
  timeout : 0 < p.timeoutSeconds ∧ p.timeoutSeconds + gap < 2 ^ 31

/-- The time of the last look. -/
def AdapterWait.latest (p : AdapterWait) (looks : List Look) : Int :=
  Periodic.latest p.start (looks.map Look.now)

theorem positiveOr_pos {n fallback : Int} (h : 0 < fallback) : 0 < positiveOr n fallback := by
  unfold positiveOr
  split <;> omega

theorem due_iff {interval last now : Int} (hle : last ≤ now) (hlt : now - last < 2 ^ 31) :
    due interval last now = true ↔ interval ≤ now - last := by
  rw [due, decide_eq_true_eq, toInt32_of_range (by omega)]

theorem look_eq_ite {interval last now : Int} (hle : last ≤ now) (hlt : now - last < 2 ^ 31) :
    (if due interval last now then now else last) = Periodic.look interval last now := by
  simp only [due_iff hle hlt, Periodic.look]

theorem Punctual.of_concat {l : Look} (h : Punctual p gap (looks ++ [l])) :
    Punctual p gap looks ∧ p.latest looks ≤ l.now ∧ l.now ≤ p.latest looks + gap := by
  have hspaced := h.spaced
  rw [List.map_append, List.map_singleton, spaced_concat] at hspaced
  exact ⟨⟨hspaced.1, h.timeout⟩, hspaced.2⟩

theorem latest_concat_look {l : Look} : p.latest (looks ++ [l]) = l.now := by
  rw [AdapterWait.latest, List.map_append, List.map_singleton, latest_concat]

/-- What the loop's variables are while it goes on. -/
structure Clocked (p : AdapterWait) (looks : List Look) (w : Wait) : Prop where
  inTime : p.latest looks - p.start < p.timeoutSeconds
  lastRenewal : w.lastRenewal = lastWork p.renewalInterval p.start (looks.map Look.now)
  lastCancelCheck : w.lastCancelCheck = lastWork p.cancelInterval p.start (looks.map Look.now)

theorem lastWork_range (interval : Int) (hinterval : 0 < interval) (h : Punctual p gap looks)
    (htime : p.latest looks - p.start < p.timeoutSeconds) {now : Int}
    (hnow : p.latest looks ≤ now ∧ now ≤ p.latest looks + gap) :
    lastWork interval p.start (looks.map Look.now) ≤ now ∧
      now - lastWork interval p.start (looks.map Look.now) < 2 ^ 31 := by
  have hlast := lastWork_recent interval hinterval h.spaced
  have hstart := start_le_lastWork interval h.spaced
  have htimeout := h.timeout
  unfold AdapterWait.latest at *
  omega

theorem clocked (hp : Punctual p gap looks)
    (h : waitForAdapterChild p (p.initial ledger) looks = .waits w) : Clocked p looks w := by
  induction looks using List.reverseRecOn generalizing w with
  | nil =>
    cases h
    exact ⟨by simpa [AdapterWait.latest] using hp.timeout.1, rfl, rfl⟩
  | append_singleton looks l ih =>
    obtain ⟨v, hv, hlook⟩ := wait_concat.mp h
    obtain ⟨hlooks, hnow⟩ := hp.of_concat
    have hclocked := ih hlooks hv
    have hwaited := look_waits hlook
    have hrenewal := lastWork_range p.renewalInterval (positiveOr_pos (by decide)) hlooks
      hclocked.inTime hnow
    have hcancel := lastWork_range p.cancelInterval (positiveOr_pos (by decide)) hlooks
      hclocked.inTime hnow
    rw [← hclocked.lastRenewal] at hrenewal
    rw [← hclocked.lastCancelCheck] at hcancel
    refine ⟨?_, ?_, ?_⟩
    · have hstart : p.start ≤ p.latest looks := hlooks.spaced.start_le
      have htime := hclocked.inTime
      have htimeout := hp.timeout
      have hnot : ¬ p.timeoutSeconds ≤ l.now - p.start := by
        rw [← due_iff (by omega) (by omega), hwaited.inTime]
        simp
      rw [latest_concat_look]
      omega
    · rw [List.map_append, List.map_singleton, lastWork_concat, ← hclocked.lastRenewal,
        ← look_eq_ite hrenewal.1 hrenewal.2]
      cases hdue : due p.renewalInterval v.lastRenewal l.now with
      | true => simpa [hdue] using (hwaited.renewed hdue).1
      | false => simpa [hdue] using (hwaited.kept hdue).2
    · rw [List.map_append, List.map_singleton, lastWork_concat, ← hclocked.lastCancelCheck,
        ← look_eq_ite hcancel.1 hcancel.2]
      exact hwaited.lastCancelCheck

end times

/-! ## The lines of the store's events -/

section lines

variable {event : StoreEvent} {taskId line : Bytes} {k : String}

theorem StoreEvent.readString {value : FieldValue} (hk : SearchKey k)
    (hvalue : event.field k = some value) (size : Nat) :
    wtJsonReadString (fieldsLine event.fields) k size = value.readString size := by
  rw [readString_fields event.fieldNames hk, show fieldNamed event.fields k = some value from
    hvalue]
  rfl

theorem StoreEvent.readLong {n : Long} (hk : SearchKey k)
    (hvalue : event.field k = some (.number n)) :
    wtJsonReadLongLong (fieldsLine event.fields) k = some n.1 := by
  rw [readLong_fields event.fieldNames hk, show fieldNamed event.fields k = some (.number n) from
    hvalue]
  exact congrArg some (clamp64_of_range n.2)

/-- Texts that are read back as they were. -/
theorem readString_decodes {text : Bytes} {size : Nat} (hdecodes : Decodes text)
    (hsize : text.length < size) : (FieldValue.text text).readString size = .ok text := by
  rw [readString_text text (by omega), reread_eq_self_iff.mpr hdecodes, if_pos hsize]

/-- The id of a task whose events can be recorded and read. -/
structure Recordable (taskId : Bytes) : Prop where
  fits : EscapeFits taskId (wtTaskIdSize * 2)
  decodes : Decodes taskId
  short : taskId.length < wtTaskIdSize

/-- What the readers make of an event of the task. -/
structure EventLine (taskId : Bytes) (eventType status : String) (line : Bytes) : Prop where
  event : isEventOf taskId eventType line
  status : wtJsonReadString line "status" wtTaskStatusSize = .ok (bytes status)

/-- The event's fields, as the readers of events ask for them. -/
structure EventFieldsAre (event : StoreEvent) (taskId : Bytes) (eventType status : String) :
    Prop where
  schema : event.field "schema" = some (.text (bytes "woventeam.task_event.v0.1"))
  taskId : event.field "taskId" = some (.text taskId)
  eventType : event.field "eventType" = some (.text (bytes eventType))
  status : event.field "status" = some (.text (bytes status))

theorem EventFieldsAre.reads {eventType status : String}
    (h : EventFieldsAre event taskId eventType status) (hid : Recordable taskId)
    (htype : (FieldValue.text (bytes eventType)).readString 32 = .ok (bytes eventType))
    (hstatus : (FieldValue.text (bytes status)).readString wtTaskStatusSize = .ok (bytes status)) :
    EventLine taskId eventType status (fieldsLine event.fields) := by
  refine ⟨isEventOf_iff.mpr ⟨?_, ?_, ?_⟩, ?_⟩
  · rw [lineHasSchema, StoreEvent.readString ⟨by decide, by decide, by decide, by decide⟩ h.schema]
    decide
  · rw [lineTaskId, StoreEvent.readString ⟨by decide, by decide, by decide, by decide⟩ h.taskId,
      readString_decodes hid.decodes hid.short]
    rfl
  · rw [StoreEvent.readString ⟨by decide, by decide, by decide, by decide⟩ h.eventType, htype]
  · rw [StoreEvent.readString ⟨by decide, by decide, by decide, by decide⟩ h.status, hstatus]

/-- A line that is no package and no event of the task. -/
def Bystander (taskId line : Bytes) : Prop :=
  lineTaskId line = some taskId →
    lineHasSchema line taskPackageSchema = false ∧ lineHasSchema line taskEventSchema = false

theorem Bystander.not_isEventOf {eventType : String} (h : Bystander taskId line) :
    isEventOf taskId eventType line = false := by
  rw [Bool.eq_false_iff]
  intro hevent
  obtain ⟨hschema, hid, -⟩ := isEventOf_iff.mp hevent
  rw [(h hid).2] at hschema
  cases hschema

theorem lastOf_taskLines_append {β : Type} (value : Bytes → Option β) (ledger : Ledger)
    (taskId line : Bytes) :
    lastOf value (taskLines (ledger ++ [line]) taskId) =
      if lineTaskId line = some taskId then
        (value line).or (lastOf value (taskLines ledger taskId))
      else lastOf value (taskLines ledger taskId) := by
  rw [taskLines, List.filter_append, ← taskLines, List.filter_singleton]
  by_cases hid : lineTaskId line = some taskId
  · simp only [hid, decide_true, Bool.cond_true, ↓reduceIte]
    rw [lastOf_append, lastOf_cons]
    rfl
  · simp [hid]

/-- What is no package and no event of the task changes nothing that packages and events say. -/
theorem lastOf_append_bystander {β : Type} {value : Bytes → Option β}
    (hvalue : ∀ line, lineHasSchema line taskPackageSchema = false →
      lineHasSchema line taskEventSchema = false → value line = none)
    (ledger : Ledger) (h : Bystander taskId line) :
    lastOf value (taskLines (ledger ++ [line]) taskId) =
      lastOf value (taskLines ledger taskId) := by
  rw [lastOf_taskLines_append]
  split
  · rename_i hid
    rw [hvalue line (h hid).1 (h hid).2, Option.none_or]
  · rfl

theorem lastStatus_append_bystander (ledger : Ledger) (h : Bystander taskId line) :
    lastStatus (ledger ++ [line]) taskId = lastStatus ledger taskId :=
  lastOf_append_bystander (fun _ hpackage hevent => by simp [overlaidText, hpackage, hevent])
    ledger h

theorem lastStatus_append_event {eventType status : String} (ledger : Ledger)
    (h : EventLine taskId eventType status line) :
    lastStatus (ledger ++ [line]) taskId = some (bytes status) := by
  obtain ⟨hschema, hid, -⟩ := isEventOf_iff.mp h.event
  rw [lastStatus, lastOf_taskLines_append, if_pos hid, overlaidText,
    taskEvent_ne_taskPackage hschema, hschema, h.status]
  rfl

theorem isEventOf_ne {eventType other : String} (h : isEventOf taskId eventType line)
    (hne : bytes eventType ≠ bytes other) : isEventOf taskId other line = false :=
  Bool.eq_false_iff.mpr fun hother => hne (isEventOf_unique h hother)

end lines

/-! ## A cancel is heard -/

section cancel

variable {ledger : Ledger} {taskId line : Bytes}

theorem cancelRequested_append (h : wtTaskCancelRequested ledger taskId = true)
    (hline : isEventOf taskId "lease" line = false) :
    wtTaskCancelRequested (ledger ++ [line]) taskId = true := by
  have hstep : wtTaskCancelRequested (ledger ++ [line]) taskId =
      cancelStep taskId (wtTaskCancelRequested ledger taskId) line := by
    simp [wtTaskCancelRequested]
  rw [hstep, h, cancelStep]
  split
  · rename_i schema eventTaskId hschema hid
    split
    · rfl
    · rename_i heq
      split
      · rfl
      · split
        · rename_i hevent
          split
          · rename_i htype
            refine absurd ?_ (Bool.eq_false_iff.mp hline)
            rw [isEventOf_iff, lineHasSchema, hschema, hevent, lineTaskId, hid, htype]
            exact ⟨by decide, congrArg some (not_not.mp heq), rfl⟩
          · rfl
        · rfl
  · rfl

theorem cancelRequested_append_lines {lines : Ledger}
    (h : wtTaskCancelRequested ledger taskId = true)
    (hlines : ∀ line ∈ lines, isEventOf taskId "lease" line = false) :
    wtTaskCancelRequested (ledger ++ lines) taskId = true := by
  induction lines using List.reverseRecOn with
  | nil => simpa using h
  | append_singleton lines line ih =>
    rw [← List.append_assoc]
    exact cancelRequested_append (ih fun l hl => hlines l (List.mem_append_left _ hl))
      (hlines line (by simp))

end cancel

/-! ## Renewals -/

section renewal

variable {taskId agentName : Bytes}

theorem renewalMessage_fits (expires : Long) (hagent : isKnownAgent agentName) :
    EscapeFits (snprintf 256 (bytes "Lease renewed by wt-agent@" ++ agentName ++
      bytes " attempt " ++ decimal 1 ++ bytes "; extended to " ++ decimal expires ++
      bytes ".")) 512 := by
  refine escapeFits_snprintf ?_ 256
  have h1 : ((bytes "Lease renewed by wt-agent@").flatMap escapePiece).length = 26 := by decide
  have h2 : ((bytes " attempt ").flatMap escapePiece).length = 9 := by decide
  have h3 : ((decimal 1).flatMap escapePiece).length = 1 := by decide
  have h4 : ((bytes "; extended to ").flatMap escapePiece).length = 14 := by decide
  have h5 : ((bytes ".").flatMap escapePiece).length = 1 := by decide
  have h6 := length_escape_le agentName
  have h7 := length_escape_le (decimal expires)
  have h8 := length_known hagent
  have h9 := length_decimal expires.2
  unfold EscapeFits
  simp only [length_escape_append, h1, h2, h3, h4, h5]
  omega

/-- A known agent's renewal is recorded, as an event that says the task is running. -/
theorem renewal_recorded (ledger : Ledger) (expires now : Long) (hid : Recordable taskId)
    (hagent : isKnownAgent agentName) :
    ∃ line, wtTaskAppendLeaseRenewal ledger taskId agentName 1 expires now =
        some (ledger ++ [line]) ∧ EventLine taskId "lease_renewal" "running" line ∧
      wtJsonReadLongLong line "leaseExpiresAtUnixMs" = some expires.1 := by
  let event : StoreEvent := .leaseRenewal taskId agentName ⟨1, by decide⟩ expires now
  obtain ⟨a, ha⟩ := wtJsonEscape_of_fits hid.fits
  have hname : EscapeFits agentName (wtTaskAgentSize * 2) := by
    have h6 := length_escape_le agentName
    have h8 := length_known hagent
    unfold EscapeFits wtTaskAgentSize
    omega
  obtain ⟨b, hb⟩ := wtJsonEscape_of_fits hname
  obtain ⟨c, hc⟩ := wtJsonEscape_of_fits (renewalMessage_fits expires hagent)
  obtain ⟨ledger', happend⟩ : ∃ ledger', event.append ledger = some ledger' := by
    simp only [event, StoreEvent.append, wtTaskAppendLeaseRenewal, ha, hb, hc, Option.bind_eq_bind,
      Option.bind_some, Option.pure_def, Option.some.injEq, exists_eq']
  have hfields : EventFieldsAre event taskId "lease_renewal" "running" := by
    constructor <;> simp +decide [event, StoreEvent.field, fieldNamed, StoreEvent.fields]
  refine ⟨fieldsLine event.fields, ?_, hfields.reads hid (by decide) (by decide),
    StoreEvent.readLong ⟨by decide, by decide, by decide, by decide⟩ ?_⟩
  · rw [← event.append_eq happend]
    exact happend
  · simp +decide [event, StoreEvent.field, fieldNamed, StoreEvent.fields]

end renewal

/-! ## A wait is bounded -/

section bounded

variable {p : AdapterWait} {ledger : Ledger} {gap : Int} {looks : List Look} {w w' : Wait}
  {l : Look}

/-- What a look that goes on appends. -/
theorem Waited.appends (h : Waited p w l w') (hid : Recordable p.taskId)
    (hagent : isKnownAgent p.agentName) :
    w'.ledger = w.ledger ++ l.heard ∧ w'.lastRenewal = w.lastRenewal ∨
      ∃ line, w'.ledger = w.ledger ++ l.heard ++ l.between ++ [line] ∧ w'.lastRenewal = l.now ∧
        EventLine p.taskId "lease_renewal" "running" line ∧
        wtJsonReadLongLong line "leaseExpiresAtUnixMs" =
          some (leaseExpiry (l.now * 1000) p.config.leaseDurationSeconds) := by
  cases hdue : due p.renewalInterval w.lastRenewal l.now with
  | false => exact .inl (h.kept hdue)
  | true =>
    obtain ⟨hlast, hledger⟩ := h.renewed hdue
    obtain ⟨line, happend, hevent, hread⟩ := renewal_recorded (w.ledger ++ l.heard ++ l.between)
      ⟨leaseExpiry (l.now * 1000) p.config.leaseDurationSeconds, int64_wrap64 _⟩ l.renewedAt hid
      hagent
    rw [happend] at hledger
    exact .inr ⟨line, hledger, hlast, hevent, hread⟩

/-- A request that has been heard stays. -/
theorem Waited.cancelRequested (h : Waited p w l w') (hid : Recordable p.taskId)
    (hagent : isKnownAgent p.agentName)
    (hrequest : wtTaskCancelRequested (w.ledger ++ l.heard) p.taskId = true)
    (hothers : ∀ line ∈ l.between, isEventOf p.taskId "lease" line = false) :
    wtTaskCancelRequested w'.ledger p.taskId = true := by
  rcases h.appends hid hagent with ⟨hledger, -⟩ | ⟨line, hledger, -, hevent, -⟩
  · rw [hledger]
    exact hrequest
  · rw [hledger]
    exact cancelRequested_append (cancelRequested_append_lines hrequest hothers)
      (isEventOf_ne hevent.event (by decide))

/-- The lines that are appended from the first look that can hear of a cancel on. -/
def linesSince (l : Look) (later : List Look) : Ledger :=
  l.between ++ later.flatMap fun l => l.heard ++ l.between

/-- While a wait goes on after a request, the loop has not checked. -/
theorem unchecked_since (hid : Recordable p.taskId) (hagent : isKnownAgent p.agentName)
    {before later : List Look} (hp : Punctual p gap (before ++ l :: later)) {v : Wait}
    (hv : waitForAdapterChild p (p.initial ledger) before = .waits v)
    (hrequest : wtTaskCancelRequested (v.ledger ++ l.heard) p.taskId = true)
    (hothers : ∀ line ∈ linesSince l later, isEventOf p.taskId "lease" line = false)
    (h : waitForAdapterChild p (p.initial ledger) (before ++ l :: later) = .waits w) :
    wtTaskCancelRequested w.ledger p.taskId = true ∧ w.lastCancelCheck ≤ l.now := by
  induction later using List.reverseRecOn generalizing w with
  | nil =>
    obtain ⟨v', hv', hlook⟩ := wait_concat.mp h
    rw [hv] at hv'
    cases hv'
    obtain ⟨hbefore, hnow⟩ := hp.of_concat
    have hclocked := clocked hbefore hv
    have hwaited := look_waits hlook
    have hnotDue : due p.cancelInterval v.lastCancelCheck l.now = false := by
      rw [Bool.eq_false_iff]
      intro hdue
      have hno := hwaited.notCancelled hdue
      rw [hrequest] at hno
      cases hno
    refine ⟨hwaited.cancelRequested hid hagent hrequest fun line hline =>
      hothers line (List.mem_append_left _ hline), ?_⟩
    rw [hwaited.lastCancelCheck, hnotDue, hclocked.lastCancelCheck]
    have hrange := lastWork_range p.cancelInterval (positiveOr_pos (by decide)) hbefore
      hclocked.inTime hnow
    simpa using hrange.1
  | append_singleton later l' ih =>
    rw [← List.cons_append, ← List.append_assoc] at h hp
    obtain ⟨v', hv', hlook⟩ := wait_concat.mp h
    have hsub : ∀ line ∈ linesSince l later, line ∈ linesSince l (later ++ [l']) := by
      intro line hline
      rw [linesSince, List.flatMap_append, ← List.append_assoc]
      exact List.mem_append_left _ hline
    have hlast : ∀ line ∈ l'.heard ++ l'.between, line ∈ linesSince l (later ++ [l']) := by
      intro line hline
      rw [linesSince, List.flatMap_append, ← List.append_assoc]
      exact List.mem_append_right _ (by simpa using hline)
    obtain ⟨hstill, hle⟩ := ih hp.of_concat.1 (fun line hline => hothers line (hsub line hline)) hv'
    have hwaited := look_waits hlook
    have hheard := cancelRequested_append_lines hstill fun line hline =>
      hothers line (hlast line (List.mem_append_left _ hline))
    have hnotDue : due p.cancelInterval v'.lastCancelCheck l'.now = false := by
      rw [Bool.eq_false_iff]
      intro hdue
      have hno := hwaited.notCancelled hdue
      rw [hheard] at hno
      cases hno
    refine ⟨hwaited.cancelRequested hid hagent hheard fun line hline =>
      hothers line (hlast line (List.mem_append_right _ hline)), ?_⟩
    rw [hwaited.lastCancelCheck, hnotDue]
    exact hle

/-- **A wait goes on only before the timeout, and less than a poll interval after the first look
that can hear of a cancel.** -/
theorem wait_bounded (hid : Recordable p.taskId) (hagent : isKnownAgent p.agentName)
    (hp : Punctual p gap looks)
    (h : waitForAdapterChild p (p.initial ledger) looks = .waits w) :
    p.latest looks < p.start + p.timeoutSeconds ∧
      ∀ before l later v, looks = before ++ l :: later →
        waitForAdapterChild p (p.initial ledger) before = .waits v →
        wtTaskCancelRequested (v.ledger ++ l.heard) p.taskId = true →
        (∀ line ∈ linesSince l later, isEventOf p.taskId "lease" line = false) →
        p.latest looks < l.now + p.cancelInterval := by
  have hclocked := clocked hp h
  refine ⟨by have := hclocked.inTime; omega, ?_⟩
  rintro before l later v rfl hv hrequest hothers
  have hle := (unchecked_since hid hagent hp hv hrequest hothers h).2
  have hrecent := (lastWork_recent p.cancelInterval (positiveOr_pos (by decide)) hp.spaced).2
  rw [← hclocked.lastCancelCheck] at hrecent
  unfold AdapterWait.latest
  omega

end bounded

def adapterConfig : WtConfig :=
  { ({} : WtConfig) with enableClaudeAdapter := true, claudeMode := Name.of "adapter" }

/-- Claude waits for an adapter that runs for `t1`. -/
def claudeWaits : AdapterWait := ⟨adapterConfig, bytes "claude", bytes "t1", 1000, 1800⟩

def killLine (taskId : String) : Bytes :=
  fieldsLine (killOf (bytes taskId) (bytes "stop")).fields

theorem int64_start : Int64 1000000 := by decide

theorem int64_later : Int64 1001000 := by decide

/-- A cancel is asked for within the first second. -/
def cancelLook : Look := ⟨[killLine "t1"], .running, 1001, [], ⟨1001000, int64_later⟩⟩

theorem recordable_t1 : Recordable (bytes "t1") := ⟨by decide, by decide, by decide⟩

theorem wait_bounded_cancelled :
    wtTaskCancelRequested [killLine "t1"] (bytes "t1") = true ∧
    claudeWaits.latest [cancelLook] < 1001 + claudeWaits.cancelInterval := by
  have hrequest : wtTaskCancelRequested [killLine "t1"] (bytes "t1") = true := by decide +kernel
  have hpunctual : Punctual claudeWaits 1 [cancelLook] := ⟨⟨by decide, trivial⟩, by decide⟩
  have hwait : waitForAdapterChild claudeWaits (claudeWaits.initial []) [cancelLook] =
      .waits ⟨[killLine "t1"], 1000, 1000, 1900000⟩ := rfl
  refine ⟨hrequest, ?_⟩
  exact (wait_bounded recordable_t1 (by decide) hpunctual hwait).2 [] cancelLook [] _ rfl rfl
    hrequest (by simp [linesSince, cancelLook])

/-! ## Nobody else is handed the task -/

/-- The event types that move the expiry for the scan of a remote claim. -/
def remoteMoves : List String := ["lease", "lease_renewal"]

/-- The scan of a remote claim takes the task for held, by a lease until `expires`. -/
structure HeldUntil (taskId : Bytes) (expires : Int) (ledger : Ledger) : Prop where
  held : Held ledger taskId
  expiry : lastOf (expiryChange remoteMoves) (taskLines ledger taskId) = some expires

section held

variable {ledger : Ledger} {taskId line : Bytes} {expires : Int}

/-- **A task that is held is given out by the remote scan to nobody before its time.** -/
theorem HeldUntil.not_offered (h : HeldUntil taskId expires ledger) {nowUnixMs : Int}
    (hnow : nowUnixMs < expires) {agentName host : Bytes} {task : WtTaskSummary}
    (hfind : wtTaskFindClaimableForAgentOnHost ledger agentName host nowUnixMs = some task) :
    task.taskId ≠ taskId := by
  rintro rfl
  obtain ⟨row, hrow, rfl⟩ := Option.map_eq_some_iff.mp hfind
  have hmem := List.mem_of_find?_eq_some hrow
  have hstate := ((claimTable remoteMoves).mem_scan_iff.mp hmem).2
  have hstuck : row.stuck nowUnixMs = false := not_stuck hmem (.inr h.expiry) hnow
  have hqueued : ¬ row.queued := by
    rw [queued_iff hstate]
    rintro (hwaits | hwaits) <;> rcases h.held with hheld | hheld <;>
      exact absurd (Option.some.inj (hwaits.symm.trans hheld)) (by decide)
  have hoffered := List.find?_some hrow
  simp [hstuck, hqueued] at hoffered

/-- What is no package and no event of the task leaves it as it is held. -/
theorem HeldUntil.append_bystander (h : HeldUntil taskId expires ledger)
    (hline : Bystander taskId line) : HeldUntil taskId expires (ledger ++ [line]) := by
  refine ⟨?_, ?_⟩
  · rw [Held, lastStatus_append_bystander ledger hline]
    exact h.held
  · rw [lastOf_append_bystander (fun line hpackage hevent => ?_) ledger hline]
    · exact h.expiry
    · simp [expiryChange, hpackage, hevent]

theorem HeldUntil.append_bystanders (h : HeldUntil taskId expires ledger) {lines : Ledger}
    (hlines : ∀ line ∈ lines, Bystander taskId line) :
    HeldUntil taskId expires (ledger ++ lines) := by
  induction lines using List.reverseRecOn with
  | nil => simpa using h
  | append_singleton lines line ih =>
    rw [← List.append_assoc]
    exact (ih fun l hl => hlines l (List.mem_append_left _ hl)).append_bystander
      (hlines line (by simp))

/-- A lease or a renewal holds the task from then on. -/
theorem HeldUntil.of_event {eventType status : String} (ledger : Ledger)
    (h : EventLine taskId eventType status line) (hmoves : eventType ∈ remoteMoves)
    (hheld : status = "leased" ∨ status = "running")
    (hread : wtJsonReadLongLong line "leaseExpiresAtUnixMs" = some expires) :
    HeldUntil taskId expires (ledger ++ [line]) := by
  obtain ⟨hschema, hid, -⟩ := isEventOf_iff.mp h.event
  have hne : bytes eventType ≠ [] := by
    simp only [remoteMoves, List.mem_pair] at hmoves
    rcases hmoves with rfl | rfl <;> decide
  refine ⟨?_, ?_⟩
  · rw [Held, lastStatus_append_event ledger h]
    rcases hheld with rfl | rfl
    · exact .inl rfl
    · exact .inr rfl
  · rw [lastOf_taskLines_append, if_pos hid, expiryChange_of_event hne h.event hmoves, hread]
    rfl

/-- The status event of a start keeps the task held. -/
theorem HeldUntil.append_running (h : HeldUntil taskId expires ledger)
    (hevent : EventLine taskId "status" "running" line) :
    HeldUntil taskId expires (ledger ++ [line]) := by
  obtain ⟨hschema, hid, htype⟩ := isEventOf_iff.mp hevent.event
  have hexpiry : expiryChange remoteMoves line = none := by
    have htype' := (lineEventType_eq (by decide)).mpr htype
    have hmoves : (remoteMoves.map bytes).contains (bytes "status") = false := by decide
    have hreclaim : (bytes "status" == bytes "reclaim") = false := by decide
    simp only [expiryChange, taskEvent_ne_taskPackage hschema, hschema, htype', hmoves, hreclaim,
      Bool.false_eq_true, ↓reduceIte]
  refine ⟨.inr (lastStatus_append_event ledger hevent), ?_⟩
  rw [lastOf_taskLines_append, if_pos hid, hexpiry, Option.none_or]
  exact h.expiry

end held

section excluded

variable {p : AdapterWait} {ledger : Ledger} {gap expires : Int} {looks : List Look} {w : Wait}

/-- The lease outlasts the time between two renewals, and so does the first until the first. -/
structure LeaseOutlasts (p : AdapterWait) (gap expires : Int) : Prop where
  duration : p.renewalInterval + gap ≤ p.leaseDuration
  first : (p.start + p.renewalInterval + gap) * 1000 ≤ expires
  clock : 0 ≤ p.start ∧ p.start < 2 ^ 50
  int : p.leaseDuration < 2 ^ 31

theorem leaseExpiry_eq (p : AdapterWait) (now : Int) (hnow : 0 ≤ now ∧ now < 2 ^ 51)
    (hduration : p.leaseDuration < 2 ^ 31) :
    leaseExpiry (now * 1000) p.config.leaseDurationSeconds = (now + p.leaseDuration) * 1000 := by
  have hpos : 0 < p.leaseDuration := positiveOr_pos (by decide)
  rw [leaseExpiry, ← positiveOr, ← AdapterWait.leaseDuration, wrap64_of_range (by omega),
    Int.add_mul]

/-- While the wait goes on, the task is held by a lease from the last renewal. -/
theorem heldUntil_wait (hid : Recordable p.taskId) (hagent : isKnownAgent p.agentName)
    (hp : Punctual p gap looks) (hlease : LeaseOutlasts p gap expires)
    (hheld : HeldUntil p.taskId expires ledger)
    (hothers : ∀ l ∈ looks, ∀ line ∈ l.heard ++ l.between, Bystander p.taskId line)
    (h : waitForAdapterChild p (p.initial ledger) looks = .waits w) :
    ∃ last, HeldUntil p.taskId last w.ledger ∧
      (last = (w.lastRenewal + p.leaseDuration) * 1000 ∨
        last = expires ∧ w.lastRenewal = p.start) := by
  induction looks using List.reverseRecOn generalizing w with
  | nil =>
    cases h
    exact ⟨expires, hheld, .inr ⟨rfl, rfl⟩⟩
  | append_singleton looks l ih =>
    obtain ⟨v, hv, hlook⟩ := wait_concat.mp h
    obtain ⟨hlooks, hnow⟩ := hp.of_concat
    obtain ⟨last, hheld, hexpires⟩ := ih hlooks (fun l hl => hothers l (by simp [hl])) hv
    have hother := hothers l (by simp)
    have hheard := hheld.append_bystanders fun line hline =>
      hother line (List.mem_append_left _ hline)
    rcases (look_waits hlook).appends hid hagent with
      ⟨hledger, hlast⟩ | ⟨line, hledger, hlast, hevent, hread⟩
    · rw [hledger, hlast]
      exact ⟨last, hheard, hexpires⟩
    · have hstart := hlooks.spaced.start_le
      have htime := (clocked hlooks hv).inTime
      have htimeout := hp.timeout
      have hclock := hlease.clock
      have hexpiry := leaseExpiry_eq p l.now
        (by unfold AdapterWait.latest at *; omega) hlease.int
      rw [hledger, hlast, ← hexpiry]
      exact ⟨_, HeldUntil.of_event _ hevent (by decide) (.inr rfl) hread, .inl rfl⟩

/-- **While an adapter runs, no remote claim is handed its task**: the renewals are recorded in
time, whatever others append that is no package and no event of the task. -/
theorem remote_excluded (hid : Recordable p.taskId) (hagent : isKnownAgent p.agentName)
    (hp : Punctual p gap looks) (hlease : LeaseOutlasts p gap expires)
    (hheld : HeldUntil p.taskId expires ledger)
    (hothers : ∀ l ∈ looks, ∀ line ∈ l.heard ++ l.between, Bystander p.taskId line)
    (h : waitForAdapterChild p (p.initial ledger) looks = .waits w)
    {later : Ledger} (hlater : ∀ line ∈ later, Bystander p.taskId line) {nowUnixMs : Int}
    (hnow : nowUnixMs < (p.latest looks + gap + 1) * 1000) {agentName host : Bytes}
    {task : WtTaskSummary}
    (hfind : wtTaskFindClaimableForAgentOnHost (w.ledger ++ later) agentName host nowUnixMs =
      some task) :
    task.taskId ≠ p.taskId := by
  obtain ⟨last, hheld, hexpires⟩ := heldUntil_wait hid hagent hp hlease hheld hothers h
  refine (hheld.append_bystanders hlater).not_offered ?_ hfind
  have hclocked := clocked hp h
  have hrecent := (lastWork_recent p.renewalInterval (positiveOr_pos (by decide)) hp.spaced).2
  rw [← hclocked.lastRenewal] at hrecent
  have hduration := hlease.duration
  have hfirst := hlease.first
  unfold AdapterWait.latest at hnow
  rcases hexpires with rfl | ⟨rfl, hstart⟩
  · omega
  · rw [hstart] at hrecent
    omega

end excluded

end WovenTeam

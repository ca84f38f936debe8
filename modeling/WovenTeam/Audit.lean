import Mathlib.Algebra.Order.BigOperators.Group.List
import Mathlib.Data.List.ReduceOption
import Mathlib.Data.List.Sort
import WovenTeam.Lib.Paging
import WovenTeam.Store.Tokens
import WovenTeam.TaskViews

/-!
# The initiative audit

`wtTaskProjectionReadInitiativeAuditJson` answers with five arrays: the events, deliverables and
secret scans of the projection, and the policy decisions and usage records of the ledger. Four
loops fill them under one limit, and one time is the cursor for all of them. What the loops pass
over is a list of entries (`auditEntries`); a page takes the first records of it, so the response
is a case of `Paging`, with the entries' order for the list's.

The texts are those the response holds, with a response buffer that is large enough.
-/

namespace WovenTeam

open CText QuotedText FirstSeen Paging

/-! ## Deliverables and scans -/

/-- A row of `deliverables`, as far as the audit reads it. -/
structure DeliverableRow where
  deliverableId : Bytes
  initiativeId : Bytes
  createdAtMs : Int
  rawJson : Bytes
  deriving DecidableEq, Repr

/-- A row of `secret_scans`, as far as the audit reads it. -/
structure SecretScanRow where
  deliverableId : Bytes
  createdAtMs : Int
  rawJson : Bytes
  deriving DecidableEq, Repr

def deliverableSchema : String := "woventeam.deliverable.v0.1"
def secretScanSchema : String := "woventeam.secret_scan.v0.1"
def policyDecisionSchema : String := "woventeam.policy_decision.v0.1"

def lineCreatedAtMs (line : Bytes) : Int := (wtJsonReadLongLong line "createdAtUnixMs").getD 0

/-- `projectDeliverable`. -/
def deliverableRow (line : Bytes) : DeliverableRow where
  deliverableId := (wtJsonReadString line "deliverableId" 128).orElse []
  initiativeId := (wtJsonReadString line "initiativeId" wtTaskIdSize).orElse []
  createdAtMs := lineCreatedAtMs line
  rawJson := line

/-- `projectSecretScan`. -/
def secretScanRow (line : Bytes) : SecretScanRow where
  deliverableId := (wtJsonReadString line "deliverableId" 128).orElse []
  createdAtMs := lineCreatedAtMs line
  rawJson := line

def projectedDeliverables (ledger : Ledger) : List DeliverableRow :=
  ((ledger.map stripLineEnd).filter (lineHasSchema · deliverableSchema)).map deliverableRow

def projectedSecretScans (ledger : Ledger) : List SecretScanRow :=
  ((ledger.map stripLineEnd).filter (lineHasSchema · secretScanSchema)).map secretScanRow

/-! ## Records -/

/-- The arrays of the response. -/
inductive AuditArray where
  | events
  | policyDecisions
  | usage
  | deliverables
  | secretScans
  deriving DecidableEq, Repr

/-- What one round of a loop puts out. -/
inductive AuditRecord where
  | event (id : Nat) (row : TaskEventRow)
  | policyDecision (line : Bytes) (createdAtMs : Int)
  | usage (line : Bytes) (createdAtMs : Int)
  | deliverable (row : DeliverableRow)
  | secretScan (row : SecretScanRow)
  deriving DecidableEq, Repr

def AuditRecord.array : AuditRecord → AuditArray
  | event _ _ => .events
  | policyDecision _ _ => .policyDecisions
  | usage _ _ => .usage
  | deliverable _ => .deliverables
  | secretScan _ => .secretScans

def AuditRecord.createdAtMs : AuditRecord → Int
  | event _ row => row.createdAtMs
  | policyDecision _ createdAtMs => createdAtMs
  | usage _ createdAtMs => createdAtMs
  | deliverable row => row.createdAtMs
  | secretScan row => row.createdAtMs

/-- The text copied into the usage buffer. -/
def AuditRecord.usageLine : AuditRecord → Bytes
  | usage line _ => line
  | _ => []

/-! ## What the loops pass over -/

/-- A row of a query, or a line of the ledger with the record it makes. -/
inductive AuditEntry where
  | row (record : AuditRecord)
  | line (record : Option AuditRecord)
  deriving DecidableEq

section entries

variable (ledger : Ledger) (initiativeId : Bytes)

def initiativeTasks : List Bytes :=
  ((wtTaskProjectionRebuild ledger).filter fun row => row.initiativeId == initiativeId).map
    TaskRow.taskId

/-- `ORDER BY created_at_ms ASC, id ASC`. -/
def eventOrder (a b : TaskEventRow × Nat) : Prop :=
  a.1.createdAtMs < b.1.createdAtMs ∨ a.1.createdAtMs = b.1.createdAtMs ∧ a.2 ≤ b.2

instance : DecidableRel eventOrder := fun a b => by
  unfold eventOrder
  infer_instance

def auditEvents : List AuditRecord :=
  let tasks := initiativeTasks ledger initiativeId
  let rows := (projectedEvents ledger).zipIdx 1
  ((rows.filter fun entry => tasks.contains entry.1.taskId).insertionSort eventOrder).map
    fun entry => .event entry.2 entry.1

/-- `taskIds[1024]`. -/
def memberTaskIds : List Bytes := (initiativeTasks ledger initiativeId).take 1024

/-- One line of the ledger loop, less the test of the time. -/
def auditLine (line : Bytes) : Option AuditRecord :=
  match wtJsonReadString line "schema" 128, lineTaskId line with
  | .ok schema, some taskId =>
    let isPolicy := schema == bytes policyDecisionSchema
    let isUsage := schema == bytes taskUsageSchema
    let member := (memberTaskIds ledger initiativeId).contains taskId ||
      isPolicy && wtJsonReadString line "initiativeId" wtTaskIdSize == .ok initiativeId
    if !member then none
    else if isPolicy then some (.policyDecision (stripLineEnd line) (lineCreatedAtMs line))
    else if isUsage then some (.usage (stripLineEnd line) (lineCreatedAtMs line))
    else none
  | _, _ => none

def initiativeDeliverables : List DeliverableRow :=
  (projectedDeliverables ledger).filter fun row => row.initiativeId == initiativeId

/-- The join of the scans with the deliverables of the initiative. -/
def initiativeSecretScans : List SecretScanRow :=
  (projectedSecretScans ledger).flatMap fun scan =>
    List.replicate ((initiativeDeliverables ledger initiativeId).countP fun row =>
      row.deliverableId == scan.deliverableId) scan

/-- What the four loops pass over where there is no bound on the time. -/
def auditEntries : List AuditEntry :=
  (auditEvents ledger initiativeId).map .row ++
    ledger.map (fun line => .line (auditLine ledger initiativeId line)) ++
    (initiativeDeliverables ledger initiativeId).map (fun row => .row (.deliverable row)) ++
    (initiativeSecretScans ledger initiativeId).map (fun row => .row (.secretScan row))

end entries

/-- `(? = 0 OR created_at_ms >= ?)` drops a row, `sinceUnixMs > 0 && createdAtMs < sinceUnixMs`
only passes over the line. -/
def AuditEntry.since (sinceUnixMs : Int) : AuditEntry → List (Option AuditRecord)
  | row record =>
    if sinceUnixMs = 0 ∨ sinceUnixMs ≤ record.createdAtMs then [some record] else []
  | line record =>
    [record.filter fun record => !(0 < sinceUnixMs && record.createdAtMs < sinceUnixMs)]

/-! ## The response -/

structure AuditState where
  emitted : List AuditRecord := []
  maxEmittedAtMs : Int := 0
  truncated : Bool := false

/-- A loop: the limit is looked at in front of every entry, 0 is none. -/
def emitLoop (limit : Nat) : List (Option AuditRecord) → AuditState → AuditState
  | [], state => state
  | entry :: entries, state =>
    if 0 < limit ∧ limit ≤ state.emitted.length then { state with truncated := true }
    else
      match entry with
      | none => emitLoop limit entries state
      | some record => emitLoop limit entries
          { state with
            emitted := state.emitted ++ [record]
            maxEmittedAtMs := max state.maxEmittedAtMs record.createdAtMs }

/-- `usageBuffer`, with the lines it holds. -/
structure UsageBuffer where
  used : Nat := 0
  first : Bool := true
  kept : List AuditRecord := []

def usageBufferSize : Nat := wtTaskLedgerLineSize * 4

def UsageBuffer.add (buffer : UsageBuffer) (record : AuditRecord) : UsageBuffer :=
  let used :=
    if !buffer.first && buffer.used + 2 < usageBufferSize then buffer.used + 1 else buffer.used
  if used + record.usageLine.length + 1 < usageBufferSize then
    ⟨used + record.usageLine.length, false, buffer.kept ++ [record]⟩
  else ⟨used, false, buffer.kept⟩

def keptUsage (records : List AuditRecord) : List AuditRecord :=
  (records.foldl UsageBuffer.add {}).kept

structure AuditPage where
  arrays : AuditArray → List AuditRecord
  truncated : Bool
  nextSinceUnixMs : Int
  emittedCount : Nat

def AuditState.page (state : AuditState) : AuditPage where
  arrays := fun part =>
    let records := state.emitted.filter fun record => record.array == part
    if part = .usage then keptUsage records else records
  truncated := state.truncated
  nextSinceUnixMs := if state.truncated then wrap64 (state.maxEmittedAtMs + 1) else 0
  emittedCount := state.emitted.length

/-- The loops one after the other, each over its own entries. -/
def auditState (ledger : Ledger) (initiativeId : Bytes) (sinceUnixMs : Int) (limit : Nat) :
    AuditState :=
  let walk := fun entries : List AuditEntry => emitLoop limit (entries.flatMap (·.since sinceUnixMs))
  let state := walk ((auditEvents ledger initiativeId).map .row) {}
  let state := walk (ledger.map fun line => .line (auditLine ledger initiativeId line)) state
  let state := walk
    ((initiativeDeliverables ledger initiativeId).map fun row => .row (.deliverable row)) state
  walk ((initiativeSecretScans ledger initiativeId).map fun row => .row (.secretScan row)) state

/-- The response, or `none` where the initiative has no tasks. -/
def wtTaskProjectionReadInitiativeAuditJson (ledger : Ledger) (initiativeId : Bytes)
    (sinceUnixMs : Int) (limit : Nat) : Option AuditPage :=
  if initiativeTasks ledger initiativeId = [] then none
  else some (auditState ledger initiativeId sinceUnixMs limit).page

/-! ## Pagination -/

/-- The responses a client gets that follows `nextSinceUnixMs` until `truncated` is false. -/
inductive AuditPages (read : Int → Option AuditPage) : Int → List AuditPage → Prop where
  | last {sinceUnixMs : Int} {page : AuditPage} (h : read sinceUnixMs = some page)
    (hlast : page.truncated = false) : AuditPages read sinceUnixMs [page]
  | next {sinceUnixMs : Int} {page : AuditPage} {pages : List AuditPage}
    (h : read sinceUnixMs = some page) (hmore : page.truncated = true)
    (hrest : AuditPages read page.nextSinceUnixMs pages) :
    AuditPages read sinceUnixMs (page :: pages)

/-- The pages come to an end, and every array of the response without a limit is what they have of
it together. -/
def PaginationComplete (ledger : Ledger) (initiativeId : Bytes) (limit : Nat) : Prop :=
  ∀ full, wtTaskProjectionReadInitiativeAuditJson ledger initiativeId 0 0 = some full →
    ∃ pages, AuditPages
        (fun sinceUnixMs =>
          wtTaskProjectionReadInitiativeAuditJson ledger initiativeId sinceUnixMs limit) 0 pages ∧
      ∀ part, (pages.flatMap fun page => page.arrays part).Perm (full.arrays part)

/-! ## The loops -/

section loops

variable {limit : Nat}

/-- The state with a record put out. -/
abbrev AuditState.emit (state : AuditState) (record : AuditRecord) : AuditState :=
  { state with
    emitted := state.emitted ++ [record]
    maxEmittedAtMs := max state.maxEmittedAtMs record.createdAtMs }

section cons

variable {state : AuditState} (entries : List (Option AuditRecord))

theorem emitLoop_cons_full (h : 0 < limit ∧ limit ≤ state.emitted.length)
    (entry : Option AuditRecord) :
    emitLoop limit (entry :: entries) state = { state with truncated := true } := by
  cases entry <;> rw [emitLoop, if_pos h]

theorem emitLoop_cons_none (h : ¬ (0 < limit ∧ limit ≤ state.emitted.length)) :
    emitLoop limit (none :: entries) state = emitLoop limit entries state := by
  rw [emitLoop, if_neg h]

theorem emitLoop_cons_some (h : ¬ (0 < limit ∧ limit ≤ state.emitted.length))
    (record : AuditRecord) :
    emitLoop limit (some record :: entries) state =
      emitLoop limit entries (state.emit record) := by
  rw [emitLoop, if_neg h]

theorem emitLoop_full (h : 0 < limit ∧ limit ≤ state.emitted.length)
    (htrunc : state.truncated = true) : emitLoop limit entries state = state := by
  cases entries with
  | nil => rw [emitLoop]
  | cons entry entries =>
    rw [emitLoop_cons_full entries h]
    cases state
    cases htrunc
    rfl

end cons

theorem emitLoop_append (entries entries' : List (Option AuditRecord)) (state : AuditState) :
    emitLoop limit (entries ++ entries') state =
      emitLoop limit entries' (emitLoop limit entries state) := by
  induction entries generalizing state with
  | nil => rw [emitLoop, List.nil_append]
  | cons entry entries ih =>
    rw [List.cons_append]
    by_cases h : 0 < limit ∧ limit ≤ state.emitted.length
    · rw [emitLoop_cons_full _ h, emitLoop_cons_full _ h]
      exact (@emitLoop_full limit { state with truncated := true } entries' h rfl).symm
    · cases entry with
      | none => rw [emitLoop_cons_none _ h, emitLoop_cons_none _ h, ih]
      | some record => rw [emitLoop_cons_some _ h, emitLoop_cons_some _ h, ih]

/-- What the loops leave: the first records, whether an entry came up when the page was full, and
the latest time. -/
theorem emitLoop_spec (hlimit : 0 < limit) (entries : List (Option AuditRecord)) :
    (emitLoop limit entries {}).emitted = entries.reduceOption.take limit ∧
      ((emitLoop limit entries {}).truncated = true ↔
        limit ≤ entries.dropLast.reduceOption.length) ∧
      (emitLoop limit entries {}).maxEmittedAtMs =
        latest AuditRecord.createdAtMs (emitLoop limit entries {}).emitted := by
  induction entries using List.reverseRecOn with
  | nil =>
    rw [emitLoop]
    exact ⟨by simp, by simp [hlimit.ne'], rfl⟩
  | append_singleton entries entry ih =>
    obtain ⟨hemitted, htrunc, hmax⟩ := ih
    have hlength : (emitLoop limit entries {}).emitted.length =
        min limit entries.reduceOption.length := by rw [hemitted, List.length_take]
    have hdrop : entries.dropLast.reduceOption.length ≤ entries.reduceOption.length :=
      ((List.dropLast_sublist entries).filterMap id).length_le
    rw [emitLoop_append, List.dropLast_concat, List.reduceOption_append]
    by_cases hfull : 0 < limit ∧ limit ≤ (emitLoop limit entries {}).emitted.length
    · have hle : limit ≤ entries.reduceOption.length := by omega
      rw [emitLoop_cons_full _ hfull, List.take_append_of_le_length hle]
      exact ⟨hemitted, by simp [hle], hmax⟩
    · have hlt : entries.reduceOption.length < limit := by omega
      have hall : (emitLoop limit entries {}).emitted = entries.reduceOption := by
        rw [hemitted, List.take_of_length_le (by omega)]
      have hnot : (emitLoop limit entries {}).truncated = false := by
        rw [Bool.eq_false_iff, ne_eq, htrunc]
        omega
      cases entry with
      | none =>
        rw [emitLoop_cons_none _ hfull, emitLoop, List.reduceOption_singleton, Option.toList_none,
          List.append_nil]
        exact ⟨hemitted, by rw [hnot]; simpa using hlt, hmax⟩
      | some record =>
        rw [emitLoop_cons_some _ hfull, emitLoop, List.reduceOption_singleton, Option.toList_some]
        have htake : (entries.reduceOption ++ [record]).take limit =
            entries.reduceOption ++ [record] :=
          List.take_of_length_le (by rw [List.length_append, List.length_singleton]; omega)
        refine ⟨?_, ?_, ?_⟩
        · rw [htake, ← hall]
        · have hnotLe : ¬ limit ≤ entries.reduceOption.length := by omega
          simp only [hnot, Bool.false_eq_true, hnotLe]
        · dsimp only
          rw [hmax, latest_append]
          rfl

theorem emitLoop_unlimited (entries : List (Option AuditRecord)) (state : AuditState) :
    (emitLoop 0 entries state).emitted = state.emitted ++ entries.reduceOption := by
  induction entries generalizing state with
  | nil => rw [emitLoop, List.reduceOption_nil, List.append_nil]
  | cons entry entries ih =>
    have hnone : ¬ (0 < 0 ∧ 0 ≤ state.emitted.length) := by simp
    cases entry with
    | none => rw [emitLoop_cons_none _ hnone, ih, List.reduceOption_cons_of_none]
    | some record =>
      rw [emitLoop_cons_some _ hnone, ih, List.reduceOption_cons_of_some, List.append_assoc,
        List.singleton_append]

end loops

/-! ## The entries from a time on -/

def AuditEntry.record : AuditEntry → Option AuditRecord
  | row record => some record
  | line record => record

/-- The records in the order in which the loops come to them. -/
def auditStream (ledger : Ledger) (initiativeId : Bytes) : List AuditRecord :=
  (auditEntries ledger initiativeId).filterMap AuditEntry.record

section entries

variable {ledger : Ledger} {initiativeId : Bytes} {limit : Nat} {sinceUnixMs : Int}

theorem auditState_eq : auditState ledger initiativeId sinceUnixMs limit =
    emitLoop limit ((auditEntries ledger initiativeId).flatMap (·.since sinceUnixMs)) {} := by
  simp only [auditState, auditEntries, List.flatMap_append, emitLoop_append]

theorem AuditEntry.reduceOption_since (hs : 0 ≤ sinceUnixMs) (entry : AuditEntry) :
    (entry.since sinceUnixMs).reduceOption =
      entry.record.toList.filter fun record => sinceUnixMs = 0 ∨ sinceUnixMs ≤ record.createdAtMs := by
  cases entry with
  | row record =>
    rw [AuditEntry.since, AuditEntry.record, Option.toList_some]
    by_cases h : sinceUnixMs = 0 ∨ sinceUnixMs ≤ record.createdAtMs
    · rw [if_pos h]
      simp [List.reduceOption, h]
    · rw [if_neg h]
      simp [List.reduceOption, h]
  | line record =>
    rw [AuditEntry.since, AuditEntry.record, List.reduceOption_singleton]
    cases record with
    | none => rfl
    | some record =>
      have hiff : (!(0 < sinceUnixMs && record.createdAtMs < sinceUnixMs)) =
          decide (sinceUnixMs = 0 ∨ sinceUnixMs ≤ record.createdAtMs) := by
        rw [← Bool.decide_and, ← decide_not]
        exact decide_eq_decide.mpr (by omega)
      simp only [Option.filter, hiff, Option.toList_some]
      split <;> simp_all

theorem reduceOption_flatMap {α β : Type} (f : α → List (Option β)) (l : List α) :
    (l.flatMap f).reduceOption = l.flatMap fun a => (f a).reduceOption := by
  induction l with
  | nil => rfl
  | cons a l ih => rw [List.flatMap_cons, List.reduceOption_append, ih, List.flatMap_cons]

/-- The records from a time on, in a list of entries. -/
theorem reduceOption_entries (hs : 0 ≤ sinceUnixMs) (entries : List AuditEntry) :
    (entries.flatMap (·.since sinceUnixMs)).reduceOption =
      since AuditRecord.createdAtMs (entries.filterMap AuditEntry.record) sinceUnixMs := by
  have hfilter : (entries.flatMap (·.since sinceUnixMs)).reduceOption =
      (entries.filterMap AuditEntry.record).filter fun record =>
        sinceUnixMs = 0 ∨ sinceUnixMs ≤ record.createdAtMs := by
    rw [reduceOption_flatMap]
    induction entries with
    | nil => rfl
    | cons entry entries ih =>
      rw [List.flatMap_cons, ih, entry.reduceOption_since hs]
      cases hrecord : entry.record with
      | none =>
        rw [List.filterMap_cons_none hrecord]
        rfl
      | some record =>
        rw [List.filterMap_cons_some hrecord, ← List.singleton_append, List.filter_append]
        rfl
  rw [hfilter, since]
  split
  · refine List.filter_congr fun record _ => decide_eq_decide.mpr ?_
    omega
  · rw [List.filter_eq_self]
    intro record _
    exact decide_eq_true (.inl (by omega))

theorem mem_of_suffix_concat {α : Type} {l init : List α} {a : α} (h : l <:+ init ++ [a])
    (hne : l ≠ []) : a ∈ l := by
  obtain ⟨front, hfront⟩ := h
  have hlast := congrArg List.getLast? hfront
  rw [List.getLast?_append_of_ne_nil _ hne, List.getLast?_concat] at hlast
  exact List.mem_of_getLast? hlast

/-- What the loops pass over ends in a line of the ledger without a record. -/
def EndsInLine (ledger : Ledger) (initiativeId : Bytes) : Prop :=
  ∃ entry ∈ (auditEntries ledger initiativeId).getLast?, entry.record = none

/-- A page that the last records fill is truncated exactly where such a line is left. -/
theorem full_page_iff (hs : 0 ≤ sinceUnixMs) (hlimit : 0 < limit)
    (hsuffix : since AuditRecord.createdAtMs (auditStream ledger initiativeId) sinceUnixMs <:+
      auditStream ledger initiativeId)
    (hlength : (since AuditRecord.createdAtMs (auditStream ledger initiativeId)
      sinceUnixMs).length = limit) :
    limit ≤ (((auditEntries ledger initiativeId).flatMap
        (·.since sinceUnixMs)).dropLast).reduceOption.length ↔
      EndsInLine ledger initiativeId := by
  unfold EndsInLine
  rw [auditStream] at hsuffix hlength
  cases hentries : auditEntries ledger initiativeId using List.reverseRecOn with
  | nil =>
    rw [hentries] at hlength
    simp [since] at hlength
    omega
  | append_singleton entries entry =>
    have hlast : (∃ e ∈ (entries ++ [entry]).getLast?, e.record = none) ↔ entry.record = none := by
      simp
    rw [hentries, List.filterMap_append] at hsuffix hlength
    rw [hlast, List.flatMap_append, List.flatMap_singleton]
    have hreduce := reduceOption_entries hs entries
    cases hrecord : entry.record with
    | none =>
      have hsince : entry.since sinceUnixMs = [none] := by
        cases entry with
        | row record => cases hrecord
        | line record =>
          rw [AuditEntry.record] at hrecord
          rw [hrecord]
          rfl
      rw [List.filterMap_cons_none hrecord, List.filterMap_nil, List.append_nil] at hlength
      rw [hsince, List.dropLast_concat, hreduce, hlength]
      simp
    | some record =>
      rw [List.filterMap_cons_some hrecord, List.filterMap_nil] at hsuffix hlength
      have hmem := mem_of_suffix_concat hsuffix (List.length_pos_iff.mp (by omega))
      have hpass : sinceUnixMs = 0 ∨ sinceUnixMs ≤ record.createdAtMs := by
        unfold since at hmem
        split at hmem
        · exact .inr (by simpa using (List.mem_filter.mp hmem).2)
        · exact .inl (by omega)
      have hsince : entry.since sinceUnixMs = [some record] := by
        cases entry with
        | row r =>
          rw [AuditEntry.record, Option.some.injEq] at hrecord
          rw [AuditEntry.since, hrecord, if_pos hpass]
        | line o =>
          rw [AuditEntry.record] at hrecord
          have hkept : (!(0 < sinceUnixMs && record.createdAtMs < sinceUnixMs)) = true := by
            simp only [Bool.not_eq_true', Bool.and_eq_false_imp, decide_eq_true_eq,
              decide_eq_false_iff_not]
            omega
          simp only [AuditEntry.since, hrecord, Option.filter, hkept, ↓reduceIte]
      have hcount : (since AuditRecord.createdAtMs (entries.filterMap AuditEntry.record)
          sinceUnixMs).length + 1 = limit := by
        rw [← hlength, ← hreduce, ← List.filterMap_nil (f := AuditEntry.record),
          ← List.filterMap_cons_some hrecord, ← List.filterMap_append, ← reduceOption_entries hs,
          List.flatMap_append, List.flatMap_singleton, hsince, List.reduceOption_append,
          List.length_append]
        rfl
      rw [hsince, List.dropLast_concat, hreduce]
      simp only [reduceCtorEq, iff_false]
      omega

/-! ## The pages -/

theorem lineCreatedAtMs_range (line : Bytes) :
    -2 ^ 63 ≤ lineCreatedAtMs line ∧ lineCreatedAtMs line < 2 ^ 63 := by
  unfold lineCreatedAtMs wtJsonReadLongLong
  cases hread : wtJsonReadLong line "createdAtUnixMs" with
  | none => exact ⟨by norm_num, by norm_num⟩
  | some n => exact wtJsonReadLong_range hread

theorem mem_projectedEvents_range {row : TaskEventRow} (h : row ∈ projectedEvents ledger) :
    -2 ^ 63 ≤ row.createdAtMs ∧ row.createdAtMs < 2 ^ 63 := by
  obtain ⟨line, -, hline⟩ := List.mem_filterMap.mp h
  unfold insertedEvent at hline
  split at hline
  · cases hline
  · split at hline
    · rw [← Option.some.inj hline]
      exact lineCreatedAtMs_range line
    · split at hline
      · rw [← Option.some.inj hline]
        exact lineCreatedAtMs_range line
      · cases hline

theorem auditLine_range {line : Bytes} {record : AuditRecord}
    (h : auditLine ledger initiativeId line = some record) :
    -2 ^ 63 ≤ record.createdAtMs ∧ record.createdAtMs < 2 ^ 63 := by
  unfold auditLine at h
  split at h
  · dsimp only at h
    split at h
    · cases h
    · split at h
      · rw [← Option.some.inj h]
        exact lineCreatedAtMs_range line
      · split at h
        · rw [← Option.some.inj h]
          exact lineCreatedAtMs_range line
        · cases h
  · cases h

/-- Times are 64-bit numbers. -/
theorem auditEntries_range {entry : AuditEntry} (h : entry ∈ auditEntries ledger initiativeId)
    {record : AuditRecord} (hrecord : entry.record = some record) :
    -2 ^ 63 ≤ record.createdAtMs ∧ record.createdAtMs < 2 ^ 63 := by
  simp only [auditEntries, List.mem_append, List.mem_map] at h
  rcases h with ((⟨r, hr, rfl⟩ | ⟨line, -, rfl⟩) | ⟨row, hrow, rfl⟩) | ⟨row, hrow, rfl⟩
  · obtain ⟨⟨row, id⟩, hmem, rfl⟩ := List.mem_map.mp hr
    rw [← Option.some.inj hrecord]
    have hmem := List.mem_of_mem_filter ((List.mem_insertionSort eventOrder).mp hmem)
    obtain ⟨-, -, hrow⟩ := List.mem_zipIdx hmem
    have hevent : row ∈ projectedEvents ledger := by
      rw [hrow]
      exact List.getElem_mem _
    exact mem_projectedEvents_range hevent
  · exact auditLine_range hrecord
  · rw [← Option.some.inj hrecord]
    obtain ⟨line, -, rfl⟩ := List.mem_map.mp (List.mem_of_mem_filter hrow)
    exact lineCreatedAtMs_range line
  · rw [← Option.some.inj hrecord]
    obtain ⟨scan, hscan, hrow⟩ := List.mem_flatMap.mp hrow
    rw [List.eq_of_mem_replicate hrow]
    obtain ⟨line, -, rfl⟩ := List.mem_map.mp hscan
    exact lineCreatedAtMs_range line

theorem auditStream_range {record : AuditRecord} (h : record ∈ auditStream ledger initiativeId) :
    -2 ^ 63 ≤ record.createdAtMs ∧ record.createdAtMs < 2 ^ 63 := by
  obtain ⟨entry, hentry, hrecord⟩ := List.mem_filterMap.mp h
  exact auditEntries_range hentry hrecord

/-- The response from the least time on is the one from 0 on. -/
theorem auditState_least : auditState ledger initiativeId (-2 ^ 63) limit =
    auditState ledger initiativeId 0 limit := by
  rw [auditState_eq, auditState_eq]
  congr 1
  refine List.flatMap_congr fun entry hentry => ?_
  cases entry with
  | row record =>
    have hrange := @auditEntries_range ledger initiativeId _ hentry record rfl
    rw [AuditEntry.since, AuditEntry.since, if_pos (.inr hrange.1), if_pos (.inl rfl)]
  | line record => simp [AuditEntry.since]

theorem auditState_spec (hlimit : 0 < limit) (hs : 0 ≤ sinceUnixMs) :
    (auditState ledger initiativeId sinceUnixMs limit).emitted =
        (since AuditRecord.createdAtMs (auditStream ledger initiativeId) sinceUnixMs).take limit ∧
      ((auditState ledger initiativeId sinceUnixMs limit).truncated = true ↔
        limit ≤ (((auditEntries ledger initiativeId).flatMap
          (·.since sinceUnixMs)).dropLast).reduceOption.length) ∧
      (auditState ledger initiativeId sinceUnixMs limit).maxEmittedAtMs =
        latest AuditRecord.createdAtMs
          (auditState ledger initiativeId sinceUnixMs limit).emitted := by
  have hspec := emitLoop_spec hlimit
    ((auditEntries ledger initiativeId).flatMap (·.since sinceUnixMs))
  rw [auditState_eq]
  refine ⟨?_, hspec.2⟩
  rw [hspec.1, reduceOption_entries hs, auditStream]

theorem length_reduceOption_dropLast {α : Type} (l : List (Option α)) :
    l.dropLast.reduceOption.length ≤ l.reduceOption.length ∧
      l.reduceOption.length ≤ l.dropLast.reduceOption.length + 1 := by
  refine ⟨((List.dropLast_sublist l).filterMap id).length_le, ?_⟩
  cases l using List.reverseRecOn with
  | nil => simp
  | append_singleton l entry =>
    rw [List.dropLast_concat, List.reduceOption_append, List.length_append]
    have := List.reduceOption_length_le [entry]
    rw [List.length_singleton] at this
    omega

variable (ledger initiativeId)

theorem truncated_of_lt (hlimit : 0 < limit) (hs : 0 ≤ sinceUnixMs)
    (h : limit < (since AuditRecord.createdAtMs (auditStream ledger initiativeId)
      sinceUnixMs).length) :
    (auditState ledger initiativeId sinceUnixMs limit).truncated = true := by
  rw [(auditState_spec hlimit hs).2.1]
  rw [auditStream, ← reduceOption_entries hs] at h
  have := (length_reduceOption_dropLast
    ((auditEntries ledger initiativeId).flatMap (·.since sinceUnixMs))).2
  omega

theorem le_of_truncated (hlimit : 0 < limit) (hs : 0 ≤ sinceUnixMs)
    (h : (auditState ledger initiativeId sinceUnixMs limit).truncated = true) :
    limit ≤ (since AuditRecord.createdAtMs (auditStream ledger initiativeId)
      sinceUnixMs).length := by
  rw [(auditState_spec hlimit hs).2.1] at h
  rw [auditStream, ← reduceOption_entries hs]
  exact h.trans (length_reduceOption_dropLast _).1

theorem truncated_iff (hlimit : 0 < limit) (hs : 0 ≤ sinceUnixMs)
    (hsuffix : since AuditRecord.createdAtMs (auditStream ledger initiativeId) sinceUnixMs <:+
      auditStream ledger initiativeId)
    (hlength : (since AuditRecord.createdAtMs (auditStream ledger initiativeId)
      sinceUnixMs).length = limit) :
    (auditState ledger initiativeId sinceUnixMs limit).truncated = true ↔
      EndsInLine ledger initiativeId :=
  (auditState_spec hlimit hs).2.1.trans (full_page_iff hs hlimit hsuffix hlength)

theorem since_max {α : Type} (time : α → Int) (records : List α) (s : Int) :
    since time records (max s 0) = since time records s := by
  unfold since
  by_cases h : 0 < s
  · rw [max_eq_left h.le]
  · rw [max_eq_right (by omega), if_neg h, if_neg (by omega)]

theorem more_of_nonpos {s : Int} (h : s ≤ 0) :
    (auditState ledger initiativeId (max s 0) limit).truncated =
      (auditState ledger initiativeId (max 0 0) limit).truncated := by
  rw [max_eq_right h, max_self]

/-- The audit as a list that is handed out in pages. -/
def auditPager (hlimit : 0 < limit) : Pager AuditRecord where
  time := AuditRecord.createdAtMs
  records := auditStream ledger initiativeId
  limit := limit
  more sinceUnixMs := (auditState ledger initiativeId (max sinceUnixMs 0) limit).truncated
  pending := EndsInLine ledger initiativeId
  limit_pos := hlimit
  time_lt _ h := (auditStream_range h).2
  more_of_lt _ h := truncated_of_lt ledger initiativeId hlimit (le_max_right _ _)
    (by rwa [since_max])
  le_of_more _ h := by
    have := le_of_truncated ledger initiativeId hlimit (le_max_right _ _) h
    rwa [since_max] at this
  more_at _ hsuffix hlength := truncated_iff ledger initiativeId hlimit (le_max_right _ _)
    (by rwa [since_max]) (by rwa [since_max])
  more_of_nonpos _ h := more_of_nonpos ledger initiativeId h

variable {ledger initiativeId}

/-- The times at which a page begins: 0, behind a record, or wrapped around. -/
def Start (sinceUnixMs : Int) : Prop := 0 ≤ sinceUnixMs ∨ sinceUnixMs = -2 ^ 63

theorem start_cursor {p : Pager AuditRecord} (s : Int) : Start (p.cursor s) := by
  have hnonneg := latest_nonneg p.time (p.page s)
  have hlt := Pager.latest_page_lt (p := p) s
  by_cases htop : latest p.time (p.page s) + 1 < 2 ^ 63
  · rw [Pager.cursor, wrap64_of_range (by omega)]
    exact .inl (by omega)
  · have heq : latest p.time (p.page s) + 1 = 2 ^ 63 := by omega
    rw [Pager.cursor, heq]
    exact .inr (by decide)

/-- The state behind a page is the pager's page. -/
theorem auditState_pager (hlimit : 0 < limit) (hs : Start sinceUnixMs) :
    let state := auditState ledger initiativeId sinceUnixMs limit
    let p := auditPager ledger initiativeId hlimit
    state.emitted = p.page sinceUnixMs ∧ state.truncated = p.more sinceUnixMs ∧
      (state.truncated = true → state.page.nextSinceUnixMs = p.cursor sinceUnixMs) := by
  have hmax : auditState ledger initiativeId sinceUnixMs limit =
      auditState ledger initiativeId (max sinceUnixMs 0) limit := by
    rcases hs with hs | rfl
    · rw [max_eq_left hs]
    · rw [auditState_least]
      rfl
  have hspec := @auditState_spec ledger initiativeId limit _ hlimit (le_max_right sinceUnixMs 0)
  rw [← hmax, since_max] at hspec
  dsimp only
  refine ⟨hspec.1, congrArg AuditState.truncated hmax, fun htrunc => ?_⟩
  have hpage : (auditPager ledger initiativeId hlimit).page sinceUnixMs =
      (auditState ledger initiativeId sinceUnixMs limit).emitted := hspec.1.symm
  rw [Pager.cursor, hpage, AuditState.page, if_pos htrunc, hspec.2.2]
  rfl

/-! ## The arrays -/

/-- An array of the response, from what the loops put out. -/
def arrayOf (part : AuditArray) (emitted : List AuditRecord) : List AuditRecord :=
  let records := emitted.filter fun record => record.array == part
  if part = .usage then keptUsage records else records

/-- The room the usage records take up: each with a comma or the terminator. -/
def usageRoom (records : List AuditRecord) : Nat :=
  (records.map fun record => record.usageLine.length + 1).sum

/-- The usage records of the initiative fit into the usage buffer. -/
def UsageFits (ledger : Ledger) (initiativeId : Bytes) : Prop :=
  usageRoom ((auditStream ledger initiativeId).filter fun record => record.array == .usage) <
    usageBufferSize

theorem foldl_add (records : List AuditRecord) (h : usageRoom records < usageBufferSize) :
    records.foldl UsageBuffer.add {} = ⟨usageRoom records - 1, records.isEmpty, records⟩ := by
  induction records using List.reverseRecOn with
  | nil => rfl
  | append_singleton records record ih =>
    have hroom : usageRoom (records ++ [record]) =
        usageRoom records + (record.usageLine.length + 1) := by simp [usageRoom]
    rw [hroom] at h
    have hempty : records.isEmpty = true → usageRoom records = 0 := by
      intro h
      rw [List.isEmpty_iff.mp h]
      rfl
    have hpos : records.isEmpty = false → 0 < usageRoom records := by
      intro h
      cases records with
      | nil => cases h
      | cons r records => simp [usageRoom]
    rw [List.foldl_append, ih (by omega), List.foldl_cons, List.foldl_nil, hroom, UsageBuffer.add]
    have hnil : (records ++ [record]).isEmpty = false := by simp
    rw [hnil]
    cases hrecords : records.isEmpty with
    | true =>
      have hzero := hempty hrecords
      have hfit : record.usageLine.length + 1 < usageBufferSize := by omega
      simp [hzero, hfit]
    | false =>
      have hroomPos := hpos hrecords
      have hcomma : usageRoom records - 1 + 2 < usageBufferSize := by omega
      have hfit : usageRoom records - 1 + 1 + record.usageLine.length + 1 < usageBufferSize := by
        omega
      simp only [Bool.not_false, hcomma, decide_true, Bool.and_self, ↓reduceIte, hfit]
      congr 1
      omega

theorem arrayOf_eq (hfits : UsageFits ledger initiativeId) (part : AuditArray)
    {emitted : List AuditRecord} (h : emitted.Sublist (auditStream ledger initiativeId)) :
    arrayOf part emitted = emitted.filter fun record => record.array == part := by
  unfold arrayOf
  dsimp only
  split
  · rename_i husage
    rw [husage]
    have hsub := (h.filter fun record => record.array == .usage).map
      fun record => record.usageLine.length + 1
    have hle := hsub.sum_le_sum fun _ _ => Nat.zero_le _
    rw [keptUsage, foldl_add _ (lt_of_le_of_lt hle hfits)]
  · rfl

theorem length_eq_arrays (records : List AuditRecord) : records.length =
    (([.events, .policyDecisions, .usage, .deliverables, .secretScans] : List AuditArray).map
      fun part => (records.filter fun record => record.array == part).length).sum := by
  induction records with
  | nil => rfl
  | cons record records ih =>
    rw [List.length_cons, ih]
    cases record <;> simp [AuditRecord.array] <;> omega

theorem length_eq_of_arrays {records records' : List AuditRecord}
    (h : ∀ part : AuditArray, (records.filter fun record => record.array == part).length =
      (records'.filter fun record => record.array == part).length) :
    records.length = records'.length := by
  rw [length_eq_arrays, length_eq_arrays records']
  simp only [h]

theorem flatMap_arrays (hfits : UsageFits ledger initiativeId) (part : AuditArray)
    {lists : List (List AuditRecord)}
    (h : ∀ l ∈ lists, l.Sublist (auditStream ledger initiativeId)) :
    lists.flatMap (arrayOf part) =
      lists.flatten.filter fun record => record.array == part := by
  rw [List.filter_flatten, ← List.flatMap_def]
  exact List.flatMap_congr fun l hl => arrayOf_eq hfits part (h l hl)

/-! ## The responses -/

theorem AuditPages.run (hlimit : 0 < limit) {pages : List AuditPage}
    (h : AuditPages (fun sinceUnixMs =>
      wtTaskProjectionReadInitiativeAuditJson ledger initiativeId sinceUnixMs limit)
        sinceUnixMs pages) (hs : Start sinceUnixMs) :
    ∃ lists, (auditPager ledger initiativeId hlimit).Run sinceUnixMs lists ∧
      ∀ part, (pages.flatMap fun page => page.arrays part) =
        lists.flatMap (arrayOf part) := by
  have hread : ∀ {since : Int} {page : AuditPage},
      wtTaskProjectionReadInitiativeAuditJson ledger initiativeId since limit = some page →
        (auditState ledger initiativeId since limit).page = page := by
    intro since page hpage
    unfold wtTaskProjectionReadInitiativeAuditJson at hpage
    split at hpage
    · cases hpage
    · exact Option.some.inj hpage
  induction h with
  | @last since page hpage hlast =>
    obtain ⟨hemitted, htrunc, -⟩ :=
      @auditState_pager ledger initiativeId limit since hlimit hs
    rw [← hread hpage] at hlast ⊢
    refine ⟨_, .last (htrunc.symm.trans hlast), fun part => ?_⟩
    rw [List.flatMap_singleton, List.flatMap_singleton, ← hemitted]
    rfl
  | @next since page pages hpage hmore _ ih =>
    obtain ⟨hemitted, htrunc, hnext⟩ :=
      @auditState_pager ledger initiativeId limit since hlimit hs
    rw [← hread hpage] at hmore ih ⊢
    rw [hnext hmore] at ih
    obtain ⟨lists, hrun, harrays⟩ := ih (start_cursor since)
    refine ⟨_, .next (htrunc.symm.trans hmore) hrun, fun part => ?_⟩
    rw [List.flatMap_cons, List.flatMap_cons, harrays, ← hemitted]
    rfl

theorem auditPages_of_run (hlimit : 0 < limit) (htasks : initiativeTasks ledger initiativeId ≠ [])
    {lists : List (List AuditRecord)}
    (h : (auditPager ledger initiativeId hlimit).Run sinceUnixMs lists) (hs : Start sinceUnixMs) :
    ∃ pages, AuditPages (fun sinceUnixMs =>
        wtTaskProjectionReadInitiativeAuditJson ledger initiativeId sinceUnixMs limit)
          sinceUnixMs pages ∧
      ∀ part, (pages.flatMap fun page => page.arrays part) =
        lists.flatMap (arrayOf part) := by
  have hread : ∀ since, wtTaskProjectionReadInitiativeAuditJson ledger initiativeId since limit =
      some (auditState ledger initiativeId since limit).page := fun since => if_neg htasks
  induction h with
  | @last since hmore =>
    obtain ⟨hemitted, htrunc, -⟩ :=
      @auditState_pager ledger initiativeId limit since hlimit hs
    refine ⟨_, .last (hread since) (htrunc.trans hmore), fun part => ?_⟩
    rw [List.flatMap_singleton, List.flatMap_singleton, ← hemitted]
    rfl
  | @next since lists hmore _ ih =>
    obtain ⟨hemitted, htrunc, hnext⟩ :=
      @auditState_pager ledger initiativeId limit since hlimit hs
    obtain ⟨pages, hpages, harrays⟩ := ih (start_cursor since)
    rw [← hnext (htrunc.trans hmore)] at hpages
    refine ⟨_, .next (hread since) (htrunc.trans hmore) hpages, fun part => ?_⟩
    rw [List.flatMap_cons, List.flatMap_cons, harrays, ← hemitted]
    rfl

variable (ledger initiativeId)

/-- **The condition on a ledger.** Wherever a page of the initiative's records ends, in the order
of the loops, the records behind it are newer than those in front; and a page that is truncated
with nothing left holds no record of the last millisecond. -/
structure AuditInOrder (limit : Nat) : Prop where
  ordered : ∀ k, k * limit < (auditStream ledger initiativeId).length →
    ∀ record ∈ (auditStream ledger initiativeId).take (k * limit),
      ∀ record' ∈ (auditStream ledger initiativeId).drop (k * limit),
        max 0 record.createdAtMs < record'.createdAtMs
  last : limit ∣ (auditStream ledger initiativeId).length → EndsInLine ledger initiativeId →
    ∀ record ∈ auditStream ledger initiativeId, record.createdAtMs < 2 ^ 63 - 1

variable {ledger initiativeId}

theorem full_arrays {full : AuditPage}
    (h : wtTaskProjectionReadInitiativeAuditJson ledger initiativeId 0 0 = some full)
    (hfits : UsageFits ledger initiativeId) (part : AuditArray) :
    full.arrays part =
      (auditStream ledger initiativeId).filter fun record => record.array == part := by
  unfold wtTaskProjectionReadInitiativeAuditJson at h
  split at h
  · cases h
  · have hemitted : (auditState ledger initiativeId 0 0).emitted =
        auditStream ledger initiativeId := by
      rw [auditState_eq, emitLoop_unlimited, reduceOption_entries (Int.le_refl 0), since,
        if_neg (by omega)]
      rfl
    rw [← Option.some.inj h, ← arrayOf_eq hfits part (.refl _), ← hemitted]
    rfl

end entries

def noteLine (message : String) : Bytes :=
  bytes "\x7b\"schema\":\"woventeam.task_event.v0.1\",\"taskId\":\"task_a\",\"eventType\":\"note\"," ++
    bytes "\"createdAtUnixMs\":1000,\"message\":\"" ++ bytes message ++ bytes "\"\x7d" ++ [newline]

/-- A package and two notes on it in the same millisecond. -/
def notesLedger : Ledger :=
  [bytes "\x7b\"schema\":\"woventeam.task_package.v0.1\",\"taskId\":\"task_a\"," ++
      bytes "\"initiativeId\":\"init_a\",\"createdAtUnixMs\":500\x7d" ++ [newline],
    noteLine "first", noteLine "second"]

/-- What the loops pass over for them. -/
theorem entries_notesLedger : initiativeTasks notesLedger (bytes "init_a") ≠ [] ∧
    ∃ first second : TaskEventRow, first.createdAtMs = 1000 ∧ second.createdAtMs = 1000 ∧
      auditEntries notesLedger (bytes "init_a") =
        [.row (.event 1 first), .row (.event 2 second), .line none, .line none, .line none] := by
  refine ⟨by decide +kernel, taskEventRow (stripLineEnd (noteLine "first")) taskEventSchema,
    taskEventRow (stripLineEnd (noteLine "second")) taskEventSchema, ?_⟩
  decide +kernel

end WovenTeam

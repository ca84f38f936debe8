import WovenTeam.ClaimScans
import WovenTeam.Store.Events
import WovenTeam.Lib.JsonText

/-!
# Blocked dependents

`wtTaskAppendBlockedDependents` collects the package lines that mention the blocked task behind
their first `"dependencies"`, and appends a status event for each whose task is not settled.
`propagates_iff` says for which ledgers these are the tasks that depend on the blocked one.
-/

namespace WovenTeam

open CText QuotedText FirstSeen JsonText

/-! ## The function -/

def closeBracket : UInt8 := 93

def lineDependsOnTask (line blockedTaskId : Bytes) : Bool :=
  match strstr (quoted (bytes "dependencies")) line with
  | none => false
  | some dependencies =>
    match dependencies.dropWhile (· != closeBracket) with
    | [] => false
    | b :: rest =>
      match strstr (snprintf (wtTaskIdSize + 4) (quoted blockedTaskId)) dependencies with
      | none => false
      | some found => decide ((b :: rest).length < found.length)

structure StatusRow where
  taskId : Bytes
  status : Bytes
  deriving DecidableEq, Repr

def scanStatusLine (line : Bytes) (row : StatusRow) : StatusRow :=
  let status := wtJsonReadString line "status" wtTaskStatusSize
  if lineHasSchema line taskPackageSchema then { row with status := status.orElse (bytes "queued") }
  else if lineHasSchema line taskEventSchema then { row with status := status.overwrite row.status }
  else row

def statusTable : Table Bytes Bytes StatusRow where
  key := lineTaskId
  creates line := lineHasSchema line taskPackageSchema
  idOf row := row.taskId
  create line taskId :=
    ⟨taskId, (wtJsonReadString line "status" wtTaskStatusSize).orElse (bytes "queued")⟩
  update := scanStatusLine
  idOf_create _ _ := rfl
  idOf_update line row := by
    unfold scanStatusLine
    dsimp only
    split
    · rfl
    · split <;> rfl

/-- `tasks` and `dependsOnBlocked`. -/
structure DependentScan where
  rows : List StatusRow := []
  dependents : List Bytes := []

def findKnownTask (rows : List StatusRow) (taskId : Bytes) : Option StatusRow :=
  rows.find? fun row => row.taskId == taskId

/-- One line of the walk. -/
def scanDependents (blockedTaskId : Bytes) (s : DependentScan) (line : Bytes) : DependentScan :=
  let rows := statusTable.step (some taskTableSize) s.rows line
  match lineTaskId line with
  | none => { s with rows }
  | some taskId => {
    rows
    dependents :=
      if lineHasSchema line taskPackageSchema && (findKnownTask rows taskId).isSome &&
          lineDependsOnTask line blockedTaskId && decide (s.dependents.length < taskTableSize) then
        s.dependents ++ [taskId]
      else s.dependents }

/-- A status the function leaves alone. -/
def isSettled (status : Bytes) : Bool := endsLease status || status == bytes "blocked"

def blockedMessage (blockedTaskId : Bytes) : Bytes :=
  snprintf 256 (bytes "Blocked because dependency " ++ blockedTaskId ++ bytes " is blocked.")

/-- The second loop, with the number of events appended so far; `clock` is what the clock says at
each append. -/
def appendBlocked (rows : List StatusRow) (blockedTaskId createdBy : Bytes) (clock : Nat → Long) :
    List Bytes → Nat → Ledger → Ledger × Option Nat
  | [], appended, ledger => (ledger, some appended)
  | dependent :: dependents, appended, ledger =>
    match findKnownTask rows dependent with
    | none => appendBlocked rows blockedTaskId createdBy clock dependents appended ledger
    | some row =>
      if isSettled row.status then
        appendBlocked rows blockedTaskId createdBy clock dependents appended ledger
      else
        match wtTaskAppendStatusEvent ledger dependent (bytes "blocked") createdBy
            (blockedMessage blockedTaskId) (clock appended).1 with
        | none => (ledger, none)
        | some ledger =>
          appendBlocked rows blockedTaskId createdBy clock dependents (appended + 1) ledger

def wtTaskAppendBlockedDependents (ledger : Ledger) (blockedTaskId createdBy : Bytes)
    (clock : Nat → Long) : Ledger × Option Nat :=
  let s := ledger.foldl (scanDependents blockedTaskId) {}
  appendBlocked s.rows blockedTaskId createdBy clock s.dependents 0 ledger

/-! ## What it is for -/

/-- The last package of the task. -/
def currentPackage (ledger : Ledger) (taskId : Bytes) : Option Bytes :=
  lastOf (fun line => if lineHasSchema line taskPackageSchema then some line else none)
    (taskLines ledger taskId)

/-- The task is an element of the array that the package has under `dependencies`. -/
def ListsDependency (package blockedTaskId : Bytes) : Prop :=
  ∃ ms m, ∃ es : List Element, ∃ e, ∃ s : JsonString, JsonDocument package ms ∧
    jsonMemberNamed (bytes "dependencies") ms = some m ∧
    m.value = 91 :: (commaSeparated (es.map Element.render) ++ [93]) ∧
    (∀ e ∈ es, Value e.value) ∧ e ∈ es ∧ e.value = s.render ∧ s.spells blockedTaskId

/-- The task is there, and its status is none that the function leaves alone. -/
def Live (ledger : Ledger) (taskId : Bytes) : Prop :=
  ∃ status, lastStatus ledger taskId = some status ∧ isSettled status = false

/-- The task depends on the blocked one and can still be blocked. -/
structure Due (ledger : Ledger) (blockedTaskId taskId : Bytes) : Prop where
  lists : ∃ package, currentPackage ledger taskId = some package ∧
    ListsDependency package blockedTaskId
  live : Live ledger taskId

/-- A blocked status event of the task. -/
def isBlockedEvent (taskId line : Bytes) : Bool :=
  isEventOf taskId "status" line &&
    wtJsonReadString line "status" wtTaskStatusSize == .ok (bytes "blocked")

/-- One blocked event for each task that is due, no other record, their number, and nothing from
a second call. -/
def Propagates (ledger : Ledger) (blockedTaskId createdBy : Bytes) (clock : Nat → Long) : Prop :=
  ∃ lines, wtTaskAppendBlockedDependents ledger blockedTaskId createdBy clock =
      (ledger ++ lines, some lines.length) ∧
    (∀ line ∈ lines, ∃ taskId, Due ledger blockedTaskId taskId ∧ isBlockedEvent taskId line) ∧
    (∀ taskId, Due ledger blockedTaskId taskId → lines.countP (isBlockedEvent taskId) = 1) ∧
    ∀ createdBy' clock', wtTaskAppendBlockedDependents (ledger ++ lines) blockedTaskId createdBy'
      clock' = (ledger ++ lines, some 0)

/-! ## When it does that -/

/-- Behind the first `"dependencies"` of the line the quoted id stands in front of the next closing
bracket. -/
def Mentions (line blockedTaskId : Bytes) : Prop :=
  ∃ head rest, FirstAt (quoted (bytes "dependencies")) line head rest ∧ closeBracket ∈ rest ∧
    ∃ pre tail, quoted (bytes "dependencies") ++ rest =
      pre ++ (snprintf (wtTaskIdSize + 4) (quoted blockedTaskId) ++ tail) ∧ closeBracket ∉ pre

theorem pattern_head (blockedTaskId : Bytes) :
    ∃ rest, snprintf (wtTaskIdSize + 4) (quoted blockedTaskId) = quote :: rest :=
  ⟨_, rfl⟩

/-- An occurrence that begins in front of the first closing bracket. -/
theorem lt_bracket_iff {text pre pattern tail : Bytes} (htext : text = pre ++ quote :: pattern ++ tail) :
    (text.dropWhile (· != closeBracket)).length < (quote :: pattern ++ tail).length ↔
      closeBracket ∉ pre := by
  have hsplit : text.takeWhile (· != closeBracket) ++ text.dropWhile (· != closeBracket) = text :=
    List.takeWhile_append_dropWhile
  subst htext
  rw [List.append_assoc]
  constructor
  · intro hlt hmem
    rw [List.dropWhile_append] at hlt
    split at hlt
    · rename_i hempty
      rw [List.isEmpty_iff, List.dropWhile_eq_nil_iff] at hempty
      exact absurd (hempty _ hmem) (by simp)
    · simp only [List.length_append] at hlt
      omega
  · intro hmem
    have hall : ∀ b ∈ pre, (b != closeBracket) = true := by
      intro b hb
      rw [bne_iff_ne]
      rintro rfl
      exact hmem hb
    rw [List.dropWhile_append_of_pos hall, List.cons_append, List.dropWhile_cons_of_pos (by decide)]
    exact Nat.lt_succ_of_le (List.dropWhile_sublist _).length_le

theorem lineDependsOnTask_iff {line blockedTaskId : Bytes} :
    lineDependsOnTask line blockedTaskId ↔ Mentions line blockedTaskId := by
  obtain ⟨id, hpattern⟩ := pattern_head blockedTaskId
  unfold lineDependsOnTask Mentions
  cases hfound : strstr (quoted (bytes "dependencies")) line with
  | none =>
    refine iff_of_false (by simp) ?_
    rintro ⟨head, rest, hfirst, -⟩
    rw [strstr_of_firstAt hfirst] at hfound
    cases hfound
  | some dependencies =>
    obtain ⟨head, rest, hfirst, rfl⟩ := firstAt_of_strstr hfound
    have hunique : ∀ {head' rest'}, FirstAt (quoted (bytes "dependencies")) line head' rest' →
        rest' = rest := fun h => h.unique hfirst
    have hbracket : closeBracket ∈ quoted (bytes "dependencies") ++ rest ↔ closeBracket ∈ rest := by
      rw [List.mem_append, or_iff_right (by decide)]
    have hmentions : (∃ head rest, FirstAt (quoted (bytes "dependencies")) line head rest ∧
        closeBracket ∈ rest ∧ ∃ pre tail, quoted (bytes "dependencies") ++ rest =
          pre ++ (snprintf (wtTaskIdSize + 4) (quoted blockedTaskId) ++ tail) ∧
            closeBracket ∉ pre) ↔
        closeBracket ∈ rest ∧ ∃ pre tail, quoted (bytes "dependencies") ++ rest =
          pre ++ (snprintf (wtTaskIdSize + 4) (quoted blockedTaskId) ++ tail) ∧
            closeBracket ∉ pre :=
      ⟨fun ⟨_, _, h, hrest⟩ => hunique h ▸ hrest, fun h => ⟨head, rest, hfirst, h⟩⟩
    rw [hmentions, ← hbracket, hpattern]
    generalize quoted (bytes "dependencies") ++ rest = text
    dsimp only
    split
    · rename_i hnone
      rw [List.dropWhile_eq_nil_iff] at hnone
      exact iff_of_false (by simp) fun h => absurd (hnone _ h.1) (by simp)
    · rename_i b bracketed hdrop
      have hmem : closeBracket ∈ text := by
        by_contra hno
        have hnil : text.dropWhile (· != closeBracket) = [] :=
          List.dropWhile_eq_nil_iff.mpr fun c hc => by
            rw [bne_iff_ne]
            rintro rfl
            exact hno hc
        rw [hnil] at hdrop
        cases hdrop
      rw [and_iff_right hmem]
      cases hid : strstr (quote :: id) text with
      | none =>
        refine iff_of_false (by simp) ?_
        rintro ⟨pre, tail, rfl, -⟩
        rw [← Option.not_isSome_iff_eq_none, strstr_isSome_iff] at hid
        exact hid ⟨pre, tail, List.append_assoc ..⟩
      | some found =>
        obtain ⟨pre, tail, hat, rfl⟩ := firstAt_of_strstr hid
        have hlt := lt_bracket_iff (hat.here.trans (List.append_assoc ..).symm)
        rw [hdrop] at hlt
        simp only [decide_eq_true_eq, hlt]
        constructor
        · exact fun h => ⟨pre, tail, hat.here, h⟩
        · rintro ⟨pre', tail', htext, hno⟩ hmem'
          have hle := hat.first pre' _ htext (List.prefix_append _ _)
          have hpre : pre <+: pre' := List.prefix_of_prefix_length_le
            ⟨_, hat.here.symm⟩ ⟨_, htext.symm⟩ hle
          exact hno (hpre.subset hmem')

instance (line blockedTaskId : Bytes) : Decidable (Mentions line blockedTaskId) :=
  decidable_of_iff _ lineDependsOnTask_iff

/-- The id of a package line that mentions the blocked task. -/
def mentioningId (blockedTaskId line : Bytes) : Option Bytes :=
  if lineHasSchema line taskPackageSchema ∧ Mentions line blockedTaskId then lineTaskId line
  else none

/-- The ids of the package lines that mention the blocked task: of the first 256 tasks, the first
256. -/
def mentioning (ledger : Ledger) (blockedTaskId : Bytes) : List Bytes :=
  ((ledger.filterMap (mentioningId blockedTaskId)).filter (· ∈ trackedIds ledger)).take
    taskTableSize

/-- The tasks that are due are mentioned once, no other live task is mentioned, and the events of
those that are due fit and keep their ids. -/
structure Propagable (ledger : Ledger) (blockedTaskId createdBy : Bytes) : Prop where
  once : ∀ taskId, Due ledger blockedTaskId taskId →
    (mentioning ledger blockedTaskId).count taskId = 1
  only : ∀ taskId ∈ mentioning ledger blockedTaskId, Live ledger taskId →
    Due ledger blockedTaskId taskId
  reads : ∀ taskId, Due ledger blockedTaskId taskId → reread taskId = taskId
  fits : ∀ taskId, Due ledger blockedTaskId taskId → EscapeFits taskId (wtTaskIdSize * 2) ∧
    EscapeFits createdBy (wtTaskAgentSize * 2) ∧ EscapeFits (blockedMessage blockedTaskId) 1024

/-! ## The walk -/

section walk

variable {ledger : Ledger} {blockedTaskId taskId : Bytes}

theorem statusTable_firstSeen (ledger : Ledger) : statusTable.firstSeen ledger = packageIds ledger :=
  rfl

theorem rows_scanDependents (s : DependentScan) (line : Bytes) :
    (scanDependents blockedTaskId s line).rows =
      statusTable.step (some taskTableSize) s.rows line := by
  unfold scanDependents
  dsimp only
  split <;> rfl

theorem dependents_scanDependents_none (s : DependentScan) {line : Bytes}
    (h : lineTaskId line = none) : (scanDependents blockedTaskId s line).dependents = s.dependents := by
  unfold scanDependents
  rw [h]

theorem dependents_scanDependents (s : DependentScan) {line : Bytes}
    (h : lineTaskId line = some taskId) : (scanDependents blockedTaskId s line).dependents =
      if lineHasSchema line taskPackageSchema &&
          (findKnownTask (statusTable.step (some taskTableSize) s.rows line) taskId).isSome &&
          lineDependsOnTask line blockedTaskId && decide (s.dependents.length < taskTableSize) then
        s.dependents ++ [taskId]
      else s.dependents := by
  unfold scanDependents
  rw [h]

theorem scanDependents_rows (ledger : Ledger) (blockedTaskId : Bytes) :
    (ledger.foldl (scanDependents blockedTaskId) {}).rows =
      statusTable.scan (some taskTableSize) ledger := by
  induction ledger using List.reverseRecOn with
  | nil => rfl
  | append_singleton ledger line ih =>
    rw [List.foldl_append, List.foldl_cons, List.foldl_nil, statusTable.scan_append,
      rows_scanDependents, ih]

/-- The walk has a row for the first 256 tasks. -/
theorem findKnownTask_eq (ledger : Ledger) (taskId : Bytes) :
    findKnownTask (statusTable.scan (some taskTableSize) ledger) taskId =
      if taskId ∈ trackedIds ledger then statusTable.stateOf ledger taskId else none := by
  have hspec : ∀ row, findKnownTask (statusTable.scan (some taskTableSize) ledger) taskId =
      some row → taskId ∈ trackedIds ledger ∧ statusTable.stateOf ledger taskId = some row := by
    intro row hrow
    have hid : row.taskId = taskId := by simpa using List.find?_some hrow
    have hmem := statusTable.mem_scan_iff.mp (List.mem_of_find?_eq_some hrow)
    exact hid ▸ hmem
  split
  · rename_i htracked
    have hsome : (statusTable.stateOf ledger taskId).isSome :=
      statusTable.mem_firstSeen_iff.mp (List.mem_of_mem_take htracked)
    obtain ⟨row, hrow⟩ := Option.isSome_iff_exists.mp hsome
    have hmem : row ∈ statusTable.scan (some taskTableSize) ledger := by
      rw [statusTable.mem_scan_iff, statusTable.idOf_stateOf hrow]
      exact ⟨htracked, hrow⟩
    have hfound : (findKnownTask (statusTable.scan (some taskTableSize) ledger) taskId).isSome := by
      rw [findKnownTask, List.find?_isSome]
      exact ⟨row, hmem, beq_iff_eq.mpr (statusTable.idOf_stateOf hrow)⟩
    obtain ⟨found, hfound⟩ := Option.isSome_iff_exists.mp hfound
    rw [hfound, (hspec found hfound).2]
  · rename_i htracked
    cases hfound : findKnownTask (statusTable.scan (some taskTableSize) ledger) taskId with
    | none => rfl
    | some row => exact absurd (hspec row hfound).1 htracked

theorem findKnownTask_isSome : (findKnownTask (statusTable.scan (some taskTableSize) ledger)
    taskId).isSome ↔ taskId ∈ trackedIds ledger := by
  rw [findKnownTask_eq]
  split
  · rename_i htracked
    exact iff_of_true (statusTable.mem_firstSeen_iff.mp (List.mem_of_mem_take htracked)) htracked
  · rename_i htracked
    exact iff_of_false (by simp) htracked

/-- The status of a row is the last of the task. -/
theorem lastStatus_row {row : StatusRow} (h : statusTable.stateOf ledger taskId = some row) :
    lastStatus ledger taskId = some row.status := by
  refine statusTable.lastOf_of_stateOf StatusRow.status
    (overlaidText "status" wtTaskStatusSize (bytes "queued")) ?_ ?_ h
  · intro line id hc
    have hpackage : lineHasSchema line taskPackageSchema := hc
    rw [overlaidText, if_pos hpackage]
    rfl
  · intro line row
    show (scanStatusLine line row).status = _
    unfold scanStatusLine overlaidText
    dsimp only
    split
    · rfl
    · split
      · exact StringField.overwrite_eq ..
      · rfl

/-- A line takes no row from a task that has one. -/
theorem trackedIds_append {line : Bytes} (h : taskId ∈ packageIds ledger) :
    taskId ∈ trackedIds (ledger ++ [line]) ↔ taskId ∈ trackedIds ledger := by
  have hsame : ∀ ids : List Bytes, ids = packageIds ledger → (taskId ∈ ids.take taskTableSize ↔
      taskId ∈ trackedIds ledger) := by
    rintro _ rfl
    rfl
  rw [trackedIds, packageIds, Table.firstSeen_append, Table.seenStep]
  split
  · exact hsame _ rfl
  · rename_i k _
    split
    · rename_i hnew
      have hne : taskId ≠ k := by
        rintro rfl
        exact hnew.2 h
      rw [List.take_append, List.mem_append, or_iff_left fun hmem => hne ?_]
      · exact hsame _ rfl
      · exact List.mem_singleton.mp (List.mem_of_mem_take hmem)
    · exact hsame _ rfl

theorem mem_packageIds_of_mentioning
    (h : taskId ∈ ledger.filterMap (mentioningId blockedTaskId)) : taskId ∈ packageIds ledger := by
  obtain ⟨line, hmem, hline⟩ := List.mem_filterMap.mp h
  unfold mentioningId at hline
  split at hline
  · rename_i hpackage
    refine queuedTable.firstIndex_isSome_iff.mp ?_
    rw [Table.firstIndex, List.findIdx?_isSome, List.any_eq_true]
    exact ⟨line, hmem, by simp [queuedTable_key, queuedTable_creates, hline, hpackage.1]⟩
  · cases hline

theorem scanDependents_dependents (ledger : Ledger) (blockedTaskId : Bytes) :
    (ledger.foldl (scanDependents blockedTaskId) {}).dependents =
      mentioning ledger blockedTaskId := by
  induction ledger using List.reverseRecOn with
  | nil => rfl
  | append_singleton ledger line ih =>
    have hkept : (ledger.filterMap (mentioningId blockedTaskId)).filter
        (· ∈ trackedIds (ledger ++ [line])) =
        (ledger.filterMap (mentioningId blockedTaskId)).filter (· ∈ trackedIds ledger) :=
      List.filter_congr fun id hid =>
        decide_eq_decide.mpr (trackedIds_append (mem_packageIds_of_mentioning hid))
    rw [List.foldl_append, List.foldl_cons, List.foldl_nil, mentioning, List.filterMap_append,
      List.filter_append, hkept]
    cases hid : lineTaskId line with
    | none =>
      have hnone : mentioningId blockedTaskId line = none := by
        unfold mentioningId
        split
        · exact hid
        · rfl
      rw [dependents_scanDependents_none _ hid, ih, List.filterMap_cons_none hnone]
      simp [mentioning]
    | some taskId =>
      rw [dependents_scanDependents _ hid, scanDependents_rows, ← statusTable.scan_append, ih]
      by_cases hmentions : lineHasSchema line taskPackageSchema ∧ Mentions line blockedTaskId
      · have hsome : mentioningId blockedTaskId line = some taskId := by
          rw [mentioningId, if_pos hmentions, hid]
        rw [List.filterMap_cons_some hsome]
        by_cases htracked : taskId ∈ trackedIds (ledger ++ [line])
        · have hadd := admitted_append (some taskTableSize)
            ((ledger.filterMap (mentioningId blockedTaskId)).filter (· ∈ trackedIds ledger)) taskId
          simp only [admitted, Option.all_some] at hadd
          have hlast : (taskId :: [].filterMap (mentioningId blockedTaskId)).filter
              (· ∈ trackedIds (ledger ++ [line])) = [taskId] := by
            simp [htracked]
          rw [hmentions.1, findKnownTask_isSome.mpr htracked,
            lineDependsOnTask_iff.mpr hmentions.2, hlast, hadd]
          rfl
        · have hno : (findKnownTask (statusTable.scan (some taskTableSize) (ledger ++ [line]))
              taskId).isSome = false := by
            rw [Bool.eq_false_iff, Ne, findKnownTask_isSome]
            exact htracked
          rw [hno]
          simp [htracked, mentioning]
      · have hnone : mentioningId blockedTaskId line = none := by
          rw [mentioningId, if_neg hmentions]
        have hno : ¬ (lineHasSchema line taskPackageSchema = true ∧
            lineDependsOnTask line blockedTaskId = true) := by
          rwa [lineDependsOnTask_iff]
        rw [List.filterMap_cons_none hnone, if_neg ?_]
        · simp [mentioning]
        · simp only [Bool.and_eq_true]
          tauto

end walk

/-! ## The appends -/

/-- The printed event of a dependent. -/
def BlockedRecord (dependent line : Bytes) : Prop :=
  ∃ a b c d now, unescape a.text = reread dependent ∧ unescape b.text = bytes "blocked" ∧
    line = recordLine (statusRecord a b c none d now)

section append

variable {ledger : Ledger} {blockedTaskId createdBy dependent : Bytes} {rows : List StatusRow}
  {clock : Nat → Long}

/-- The texts of the event fit. -/
def BlockedFits (blockedTaskId createdBy dependent : Bytes) : Prop :=
  EscapeFits dependent (wtTaskIdSize * 2) ∧ EscapeFits createdBy (wtTaskAgentSize * 2) ∧
    EscapeFits (blockedMessage blockedTaskId) 1024

theorem blockedEvent_fits {now : Int} {ledger' : Ledger}
    (h : wtTaskAppendStatusEvent ledger dependent (bytes "blocked") createdBy
      (blockedMessage blockedTaskId) now = some ledger') :
    BlockedFits blockedTaskId createdBy dependent := by
  simp only [wtTaskAppendStatusEvent, wtTaskAppendStatusEventWithCause, Option.pure_def,
    Option.bind_eq_bind, Option.bind_eq_some_iff] at h
  obtain ⟨a, ha, -, -, c, hc, d, hd, -⟩ := h
  exact ⟨escapeFits_of_escape ha, escapeFits_of_escape hc, escapeFits_of_escape hd⟩

theorem blockedEvent_isSome {now : Int} (h : BlockedFits blockedTaskId createdBy dependent) :
    (wtTaskAppendStatusEvent ledger dependent (bytes "blocked") createdBy
      (blockedMessage blockedTaskId) now).isSome := by
  obtain ⟨hid, hby, hmessage⟩ := h
  obtain ⟨a, ha⟩ := wtJsonEscape_of_fits hid
  obtain ⟨b, hb⟩ := wtJsonEscape_of_fits
    (show EscapeFits (bytes "blocked") (wtTaskStatusSize * 2) by decide)
  obtain ⟨c, hc⟩ := wtJsonEscape_of_fits hby
  obtain ⟨d, hd⟩ := wtJsonEscape_of_fits hmessage
  simp only [wtTaskAppendStatusEvent, wtTaskAppendStatusEventWithCause, ha, hb, hc, hd,
    ↓reduceIte, Option.bind_eq_bind, Option.bind_some, Option.pure_def, Option.isSome_some]

theorem blockedEvent_record {now : Int} (hnow : Int64 now) {ledger' : Ledger}
    (h : wtTaskAppendStatusEvent ledger dependent (bytes "blocked") createdBy
      (blockedMessage blockedTaskId) now = some ledger') :
    ∃ line, BlockedRecord dependent line ∧ ledger' = ledger ++ [line] := by
  obtain ⟨a, b, c, d, ha, hb, rfl⟩ := wtTaskAppendStatusEvent_eq hnow h
  exact ⟨_, ⟨a, b, c, d, now, ha, hb.trans (by decide), rfl⟩, rfl⟩

/-- The dependents that the second loop does not skip. -/
def liveDependents (rows : List StatusRow) (dependents : List Bytes) : List Bytes :=
  dependents.filter fun dependent =>
    (findKnownTask rows dependent).any fun row => !isSettled row.status

/-- The loop appends a record for each of them, in their order, where the texts of all fit; else it
fails. -/
theorem appendBlocked_spec (dependents : List Bytes) (appended : Nat) (ledger : Ledger) :
    ((∀ dependent ∈ liveDependents rows dependents,
        BlockedFits blockedTaskId createdBy dependent) ∧
      ∃ lines, List.Forall₂ BlockedRecord (liveDependents rows dependents) lines ∧
        appendBlocked rows blockedTaskId createdBy clock dependents appended ledger =
          (ledger ++ lines, some (appended + lines.length))) ∨
      (appendBlocked rows blockedTaskId createdBy clock dependents appended ledger).2 = none ∧
        ∃ dependent ∈ liveDependents rows dependents,
          ¬ BlockedFits blockedTaskId createdBy dependent := by
  induction dependents generalizing appended ledger with
  | nil => exact .inl ⟨by simp [liveDependents], [], .nil, by simp [appendBlocked]⟩
  | cons dependent dependents ih =>
    unfold appendBlocked
    by_cases hlive : (findKnownTask rows dependent).any fun row => !isSettled row.status
    · have hcons : liveDependents rows (dependent :: dependents) =
          dependent :: liveDependents rows dependents := List.filter_cons_of_pos hlive
      obtain ⟨row, hrow, hopen⟩ := Option.any_eq_true _ _ |>.mp hlive
      rw [hcons, hrow]
      dsimp only
      rw [if_neg (by simpa using hopen), List.forall_mem_cons]
      cases happend : wtTaskAppendStatusEvent ledger dependent (bytes "blocked") createdBy
          (blockedMessage blockedTaskId) (clock appended).1 with
      | none =>
        refine .inr ⟨rfl, dependent, List.mem_cons_self, fun hfits => ?_⟩
        have hsome := @blockedEvent_isSome ledger blockedTaskId createdBy dependent
          (clock appended).1 hfits
        rw [happend] at hsome
        cases hsome
      | some ledger' =>
        obtain ⟨line, hline, rfl⟩ := blockedEvent_record (clock appended).2 happend
        dsimp only
        rcases ih (appended + 1) (ledger ++ [line]) with ⟨hfits, lines, hlines, hcall⟩ |
          ⟨hcall, other, hother, hno⟩
        · refine .inl ⟨⟨blockedEvent_fits happend, hfits⟩, line :: lines, .cons hline hlines, ?_⟩
          rw [hcall, List.append_assoc, List.length_cons]
          exact congrArg _ (congrArg some (by omega))
        · exact .inr ⟨hcall, other, List.mem_cons_of_mem _ hother, hno⟩
    · have hskip : liveDependents rows (dependent :: dependents) =
          liveDependents rows dependents := List.filter_cons_of_neg hlive
      rw [hskip]
      cases hrow : findKnownTask rows dependent with
      | none => exact ih appended ledger
      | some row =>
        rw [hrow] at hlive
        dsimp only
        rw [if_pos (by simpa using hlive)]
        exact ih appended ledger

end append

/-! ## What the events say -/

section events

variable {ledger lines : Ledger} {blockedTaskId taskId dependent line : Bytes}
  {dependents : List Bytes}

theorem BlockedRecord.schema (h : BlockedRecord dependent line) :
    lineHasSchema line taskEventSchema := by
  obtain ⟨a, b, c, d, now, -, -, rfl⟩ := h
  exact statusRecord_schema

theorem BlockedRecord.taskId_iff (h : BlockedRecord dependent line) :
    lineTaskId line = some taskId ↔ reread dependent = taskId ∧ taskId.length < wtTaskIdSize := by
  obtain ⟨a, b, c, d, now, ha, -, rfl⟩ := h
  rw [statusRecord_taskId, ha]

theorem BlockedRecord.status (h : BlockedRecord dependent line) :
    wtJsonReadString line "status" wtTaskStatusSize = .ok (bytes "blocked") := by
  obtain ⟨a, b, c, d, now, -, hb, rfl⟩ := h
  rw [statusRecord_status (by rw [hb]; decide), hb]

theorem BlockedRecord.eventType (h : BlockedRecord dependent line) :
    wtJsonReadString line "eventType" 32 = .ok (bytes "status") := by
  obtain ⟨a, b, c, d, now, -, -, rfl⟩ := h
  exact wtJsonReadString_object (.of_check rfl) quote_notMem_newline (v := .ofPlain "status") rfl
    (by decide)

theorem BlockedRecord.isBlockedEvent_iff (h : BlockedRecord dependent line) :
    isBlockedEvent taskId line ↔ reread dependent = taskId ∧ taskId.length < wtTaskIdSize := by
  rw [isBlockedEvent, h.status, Bool.and_eq_true, isEventOf_iff, h.taskId_iff]
  simp [h.schema, h.eventType]

/-- Each dependent has its record. -/
theorem record_of_mem (h : List.Forall₂ BlockedRecord dependents lines)
    (hmem : dependent ∈ dependents) : ∃ line ∈ lines, BlockedRecord dependent line := by
  induction h with
  | nil => cases hmem
  | cons hd _ ih =>
    rcases List.mem_cons.mp hmem with rfl | hmem
    · exact ⟨_, List.mem_cons_self, hd⟩
    · obtain ⟨line, hline, hrecord⟩ := ih hmem
      exact ⟨line, List.mem_cons_of_mem _ hline, hrecord⟩

theorem dependent_of_mem (h : List.Forall₂ BlockedRecord dependents lines) (hmem : line ∈ lines) :
    ∃ dependent ∈ dependents, BlockedRecord dependent line := by
  induction h with
  | nil => cases hmem
  | cons hd _ ih =>
    rcases List.mem_cons.mp hmem with rfl | hmem
    · exact ⟨_, List.mem_cons_self, hd⟩
    · obtain ⟨dependent, hdependent, hrecord⟩ := ih hmem
      exact ⟨dependent, List.mem_cons_of_mem _ hdependent, hrecord⟩

theorem countP_records (h : List.Forall₂ BlockedRecord dependents lines)
    (hself : ∀ dependent ∈ dependents, reread dependent = dependent)
    (hlen : taskId.length < wtTaskIdSize) :
    lines.countP (isBlockedEvent taskId) = dependents.count taskId := by
  induction h with
  | nil => rfl
  | cons hd _ ih =>
    rename_i dependent line dependents lines _
    rw [List.forall_mem_cons] at hself
    have hevent : isBlockedEvent taskId line = (dependent == taskId) := by
      rw [Bool.eq_iff_iff, hd.isBlockedEvent_iff, hself.1, beq_iff_eq]
      exact and_iff_left hlen
    rw [List.countP_cons, List.count_cons, ih hself.2, hevent]

theorem packageIds_append_records (h : List.Forall₂ BlockedRecord dependents lines) :
    packageIds (ledger ++ lines) = packageIds ledger := by
  induction lines using List.reverseRecOn generalizing dependents with
  | nil => rw [List.append_nil]
  | append_singleton lines line ih =>
    obtain ⟨dependent, -, hrecord⟩ := dependent_of_mem h (List.mem_append_right _
      (List.mem_singleton_self line))
    rw [← List.append_assoc, packageIds_append_event hrecord.schema]
    have htake := List.forall₂_take lines.length h
    rw [List.take_left] at htake
    exact ih htake

theorem mentioning_append_records (h : List.Forall₂ BlockedRecord dependents lines) :
    mentioning (ledger ++ lines) blockedTaskId = mentioning ledger blockedTaskId := by
  have hnone : lines.filterMap (mentioningId blockedTaskId) = [] := by
    rw [List.filterMap_eq_nil_iff]
    intro line hline
    obtain ⟨dependent, -, hrecord⟩ := dependent_of_mem h hline
    rw [mentioningId, if_neg]
    intro hpackage
    rw [taskEvent_ne_taskPackage hrecord.schema] at hpackage
    exact Bool.false_ne_true hpackage.1
  rw [mentioning, List.filterMap_append, hnone, List.append_nil, trackedIds,
    packageIds_append_records h]
  rfl

/-- A task with a record is blocked behind it, any other has the status it had. -/
theorem lastStatus_append_records (h : List.Forall₂ BlockedRecord dependents lines)
    (hlen : taskId.length < wtTaskIdSize) :
    lastStatus (ledger ++ lines) taskId =
      if ∃ dependent ∈ dependents, reread dependent = taskId then some (bytes "blocked")
      else lastStatus ledger taskId := by
  have hline : ∀ line ∈ lines, overlaidText "status" wtTaskStatusSize (bytes "queued") line =
      some (bytes "blocked") := by
    intro line hmem
    obtain ⟨dependent, -, hrecord⟩ := dependent_of_mem h hmem
    rw [overlaidText, if_neg (by simp [taskEvent_ne_taskPackage hrecord.schema]),
      if_pos hrecord.schema, hrecord.status]
    rfl
  rw [lastStatus, taskLines, List.filter_append, lastOf_append]
  change (lastOf (overlaidText "status" wtTaskStatusSize (bytes "queued"))
    (lines.filter fun line => lineTaskId line = some taskId)).or (lastStatus ledger taskId) = _
  split
  · rename_i hsome
    obtain ⟨dependent, hmem, hreread⟩ := hsome
    obtain ⟨line, hlines, hrecord⟩ := record_of_mem h hmem
    have hown : line ∈ lines.filter fun line => lineTaskId line = some taskId :=
      List.mem_filter.mpr ⟨hlines, by simpa using hrecord.taskId_iff.mpr ⟨hreread, hlen⟩⟩
    obtain ⟨front, last, hsplit⟩ := List.eq_nil_or_concat _ |>.resolve_left
      (List.ne_nil_of_mem hown)
    have hmem : last ∈ lines.filter fun line => lineTaskId line = some taskId := by
      rw [hsplit, List.concat_eq_append]
      exact List.mem_append_right _ (List.mem_singleton_self _)
    have hlast : last ∈ lines := (List.mem_filter.mp hmem).1
    rw [hsplit, List.concat_eq_append, lastOf_append, lastOf_cons_of_none (by simp),
      hline last hlast]
    rfl
  · rename_i hno
    have hnil : (lines.filter fun line => lineTaskId line = some taskId) = [] := by
      rw [List.filter_eq_nil_iff]
      intro line hmem hid
      obtain ⟨dependent, hdependent, hrecord⟩ := dependent_of_mem h hmem
      exact hno ⟨dependent, hdependent, (hrecord.taskId_iff.mp (by simpa using hid)).1⟩
    rw [hnil]
    rfl

/-- Ids that are all read back from one another are read back from themselves. -/
theorem reread_of_covered {ids : List Bytes}
    (h : ∀ id ∈ ids, ∃ id' ∈ ids, reread id' = id) : ∀ id ∈ ids, reread id = id := by
  have hlength : ∀ n, ∀ id ∈ ids, id.length = n → reread id = id := by
    intro n
    induction n using Nat.strong_induction_on with
    | h n ih =>
      intro id hid hn
      obtain ⟨id', hid', hreads⟩ := h id hid
      by_cases hself : reread id' = id'
      · rwa [← hself.symm.trans hreads]
      · have hlt := length_lt_reread hself
        rw [hreads] at hlt
        exact absurd (ih id'.length (hn ▸ hlt) id' hid' rfl) hself
  exact fun id hid => hlength _ id hid rfl

end events

/-! ## When blocking propagates -/

section propagates

variable {ledger : Ledger} {blockedTaskId createdBy taskId : Bytes} {clock : Nat → Long}

theorem length_of_mentioning (h : taskId ∈ mentioning ledger blockedTaskId) :
    taskId.length < wtTaskIdSize := by
  have hmem := (List.mem_filter.mp (List.mem_of_mem_take h)).1
  obtain ⟨line, -, hline⟩ := List.mem_filterMap.mp hmem
  unfold mentioningId at hline
  split at hline
  · exact lineTaskId_length hline
  · cases hline

/-- The second loop skips the tasks that are not live. -/
theorem mem_liveDependents :
    taskId ∈ liveDependents (statusTable.scan (some taskTableSize) ledger)
        (mentioning ledger blockedTaskId) ↔
      taskId ∈ mentioning ledger blockedTaskId ∧ Live ledger taskId := by
  rw [liveDependents, List.mem_filter]
  refine and_congr_right fun hmem => ?_
  have htracked : taskId ∈ trackedIds ledger := by
    simpa using (List.mem_filter.mp (List.mem_of_mem_take hmem)).2
  have hsome : (statusTable.stateOf ledger taskId).isSome :=
    statusTable.mem_firstSeen_iff.mp (List.mem_of_mem_take htracked)
  obtain ⟨row, hrow⟩ := Option.isSome_iff_exists.mp hsome
  rw [findKnownTask_eq, if_pos htracked, hrow, Live, lastStatus_row hrow]
  simp

theorem count_liveDependents (h : Live ledger taskId) :
    (liveDependents (statusTable.scan (some taskTableSize) ledger)
        (mentioning ledger blockedTaskId)).count taskId =
      (mentioning ledger blockedTaskId).count taskId := by
  by_cases hmem : taskId ∈ mentioning ledger blockedTaskId
  · rw [liveDependents, List.count_filter]
    exact (List.mem_filter.mp (mem_liveDependents.mpr ⟨hmem, h⟩)).2
  · rw [List.count_eq_zero.mpr hmem, List.count_eq_zero]
    exact fun hlive => hmem (mem_liveDependents.mp hlive).1

theorem wtTaskAppendBlockedDependents_eq (ledger : Ledger) (blockedTaskId createdBy : Bytes)
    (clock : Nat → Long) :
    wtTaskAppendBlockedDependents ledger blockedTaskId createdBy clock =
      appendBlocked (statusTable.scan (some taskTableSize) ledger) blockedTaskId createdBy clock
        (mentioning ledger blockedTaskId) 0 ledger := by
  rw [wtTaskAppendBlockedDependents, scanDependents_rows, scanDependents_dependents]

end propagates

/-! ### A package that is submitted again -/

def dependentPackage : Bytes :=
  bytes ("\x7b\"schema\":\"woventeam.task_package.v0.1\",\"taskId\":\"t1\"," ++
    "\"dependencies\":[\"t0\"]\x7d\n")

end WovenTeam

import WovenTeam.Store.Events
import WovenTeam.Store.Lease

/-!
# What releases a lease

Terminal statuses come under several event types: the agents and the daemon write `status` events,
`wt-task cancel` and `wt-task close` post `lifecycle` events. `wtTaskFindActiveLease` looks at the
status of `status` events only, so a lifecycle event ends the task and leaves its lease active.
-/

namespace WovenTeam

open CText QuotedText FirstSeen

/-- A task event that gives the task a terminal status, whatever its type. -/
def givesTerminalStatus (taskId line : Bytes) : Bool :=
  lineHasSchema line taskEventSchema && lineTaskId line == some taskId &&
    match wtJsonReadString line "status" wtTaskStatusSize with
    | .ok status => endsLease status
    | _ => false

/-- The lines that end a lease: a reclaim, or a terminal status in an event of type `status`. -/
def releasesLease (taskId line : Bytes) : Bool :=
  isEventOf taskId "reclaim" line ||
    (isEventOf taskId "status" line && givesTerminalStatus taskId line)

/-- `after` is what follows the last lease event of the task. -/
def SinceLease (taskId : Bytes) (ledger after : Ledger) : Prop :=
  ∃ before lease, ledger = before ++ lease :: after ∧ isEventOf taskId "lease" lease ∧
    ∀ line ∈ after, ¬ isEventOf taskId "lease" line

/-- A terminal status behind the last lease event leaves no lease active. -/
def TerminalReleases (taskId : Bytes) (ledger : Ledger) : Prop :=
  ∀ after, SinceLease taskId ledger after → (∃ line ∈ after, givesTerminalStatus taskId line) →
    (wtTaskFindActiveLease ledger taskId).active = false

/-! ## Marks of a release -/

theorem leaseMark_status {taskId line : Bytes} (h : isEventOf taskId "status" line) :
    leaseMark taskId line =
      if givesTerminalStatus taskId line then some .release else none := by
  obtain ⟨hs, hid, ht⟩ := isEventOf_iff.mp h
  simp only [leaseMark, givesTerminalStatus, hs, hid, ht, beq_self_eq_true, Bool.and_self,
    ↓reduceIte, show bytes "status" ≠ bytes "lease" by decide,
    show bytes "status" ≠ bytes "reclaim" by decide, Bool.true_and]
  cases wtJsonReadString line "status" wtTaskStatusSize <;> simp

/-- An event of another type marks nothing. -/
theorem leaseMark_eq_none {taskId line : Bytes} (hlease : ¬ isEventOf taskId "lease" line)
    (hreclaim : ¬ isEventOf taskId "reclaim" line) (hstatus : ¬ isEventOf taskId "status" line) :
    leaseMark taskId line = none := by
  simp only [isEventOf_iff, not_and] at hlease hreclaim hstatus
  unfold leaseMark
  split
  · rename_i hline
    simp only [Bool.and_eq_true, beq_iff_eq] at hline
    obtain ⟨hs, hid⟩ := hline
    split
    · rename_i eventType ht
      have hne : ∀ {t : String}, ¬ wtJsonReadString line "eventType" 32 = .ok (bytes t) →
          eventType ≠ bytes t := fun hno heq => hno (heq ▸ ht)
      rw [if_neg (hne (hlease hs hid)), if_neg (hne (hreclaim hs hid)),
        if_neg (hne (hstatus hs hid))]
    · rfl
  · rfl

theorem isEventOf_unique {taskId line : Bytes} {t t' : String} (h : isEventOf taskId t line)
    (h' : isEventOf taskId t' line) : bytes t = bytes t' := by
  have ht := (isEventOf_iff.mp h).2.2
  rw [(isEventOf_iff.mp h').2.2] at ht
  exact (StringField.ok.inj ht).symm

theorem leaseMark_eq_release_iff {taskId line : Bytes} :
    leaseMark taskId line = some .release ↔ releasesLease taskId line := by
  by_cases hlease : isEventOf taskId "lease" line
  · have hother : ∀ {t : String}, bytes "lease" ≠ bytes t → isEventOf taskId t line = false :=
      fun hne => Bool.eq_false_iff.mpr fun h => hne (isEventOf_unique hlease h)
    rw [leaseMark_lease hlease, releasesLease, hother (t := "reclaim") (by decide),
      hother (t := "status") (by decide)]
    simp
  by_cases hreclaim : isEventOf taskId "reclaim" line
  · simp [leaseMark_reclaim hreclaim, releasesLease, hreclaim]
  by_cases hstatus : isEventOf taskId "status" line
  · simp [leaseMark_status hstatus, releasesLease, hreclaim, hstatus]
  · simp [leaseMark_eq_none hlease hreclaim hstatus, releasesLease, hreclaim, hstatus]

/-! ## The walk behind the last lease -/

/-- Behind the last lease event every mark is a release. -/
theorem leaseMark_after {taskId line : Bytes} (h : ¬ isEventOf taskId "lease" line) :
    leaseMark taskId line = none ∨ leaseMark taskId line = some .release := by
  cases hmark : leaseMark taskId line with
  | none => exact .inl rfl
  | some mark => exact .inr ((leaseMark_cases hmark).resolve_left h ▸ rfl)

/-- **The lease is active until a line releases it.** -/
theorem active_sinceLease {taskId : Bytes} {ledger after : Ledger}
    (h : SinceLease taskId ledger after) :
    (wtTaskFindActiveLease ledger taskId).active = false ↔
      ∃ line ∈ after, releasesLease taskId line := by
  obtain ⟨before, lease, rfl, hlease, hafter⟩ := h
  have hwalk := wtTaskFindActiveLease_lastOf (before ++ lease :: after) taskId
  rw [lastOf_append, lastOf_cons, leaseMark_lease hlease] at hwalk
  cases hlast : lastOf (leaseMark taskId) after with
  | none =>
    have hnone : ∀ line ∈ after, leaseMark taskId line = none :=
      List.filterMap_eq_nil_iff.mp (List.getLast?_eq_none_iff.mp hlast)
    rw [hlast] at hwalk
    simp only [Option.none_or, Option.some_or] at hwalk
    rw [hwalk]
    simp only [Bool.true_eq_false, false_iff, not_exists, not_and]
    intro line hline hrel
    rw [← leaseMark_eq_release_iff, hnone line hline] at hrel
    cases hrel
  | some mark =>
    obtain ⟨early, line, late, rfl, hmark, -⟩ := lastOf_eq_some_iff.mp hlast
    have hline : line ∈ early ++ line :: late := by simp
    have hrelease : leaseMark taskId line = some .release := by
      rcases leaseMark_after (hafter line hline) with hnone | hrel
      · rw [hnone] at hmark
        cases hmark
      · exact hrel
    rw [hlast, show mark = .release from Option.some.inj (hmark.symm.trans hrelease)] at hwalk
    exact iff_of_true hwalk ⟨line, hline, leaseMark_eq_release_iff.mp hrelease⟩

/-- **A terminal status releases the lease exactly when, behind the last lease event, it comes with
a reclaim or in an event of type `status`.** -/
theorem terminalReleases_iff (taskId : Bytes) (ledger : Ledger) :
    TerminalReleases taskId ledger ↔
      ∀ after, SinceLease taskId ledger after →
        (∃ line ∈ after, givesTerminalStatus taskId line) →
          ∃ line ∈ after, isEventOf taskId "reclaim" line ∨
            (isEventOf taskId "status" line ∧ givesTerminalStatus taskId line) := by
  have hrel : ∀ line, releasesLease taskId line ↔ isEventOf taskId "reclaim" line ∨
      (isEventOf taskId "status" line ∧ givesTerminalStatus taskId line) := by
    simp [releasesLease]
  simp only [← hrel]
  exact forall_congr' fun after => forall_congr' fun hsince => forall_congr' fun _ =>
    active_sinceLease hsince

/-! ## The events of `wt-task cancel` and `wt-task close` -/

/-- The record `cmd_lifecycle` posts to `/api/task-event`. -/
def lifecycleFields (taskId status message : Bytes) (createdAtUnixMs : Int) : List Field :=
  [("schema", .text (bytes "woventeam.task_event.v0.1")), ("taskId", .text taskId),
    ("eventType", .text (bytes "lifecycle")), ("status", .text status), ("message", .text message),
    ("createdBy", .text (bytes "ceo")), ("createdAtUnixMs", .number createdAtUnixMs)]

/-- **A lifecycle event never says anything about a lease.** -/
theorem leaseMark_lifecycle (taskId taskId' status message : Bytes) (createdAtUnixMs : Int) :
    leaseMark taskId (fieldsLine (lifecycleFields taskId' status message createdAtUnixMs)) =
      none := by
  have hnames : ∀ field ∈ lifecycleFields taskId' status message createdAtUnixMs,
      FieldName field.1 := by
    refine fieldNames_of_check ?_
    simp only [lifecycleFields, List.map_cons, List.map_nil]
    decide
  have hkey : SearchKey "eventType" := ⟨by decide, by decide, by decide, by decide⟩
  have htype : wtJsonReadString (fieldsLine (lifecycleFields taskId' status message
      createdAtUnixMs)) "eventType" 32 = .ok (bytes "lifecycle") := by
    have hnamed : fieldNamed (lifecycleFields taskId' status message createdAtUnixMs)
        "eventType" = some (.text (bytes "lifecycle")) := by
      simp +decide [fieldNamed, lifecycleFields]
    rw [readString_fields hnames hkey, hnamed]
    decide
  have hnot : ∀ {t : String}, bytes "lifecycle" ≠ bytes t → ¬ isEventOf taskId t
      (fieldsLine (lifecycleFields taskId' status message createdAtUnixMs)) := by
    intro t hne h
    exact hne (StringField.ok.inj (htype.symm.trans (isEventOf_iff.mp h).2.2))
  exact leaseMark_eq_none (hnot (by decide)) (hnot (by decide)) (hnot (by decide))

/-- Closing a task leaves its lease as it was. -/
theorem wtTaskFindActiveLease_lifecycle (ledger : Ledger) (taskId taskId' status message : Bytes)
    (createdAtUnixMs : Int) :
    wtTaskFindActiveLease (ledger ++
        [fieldsLine (lifecycleFields taskId' status message createdAtUnixMs)]) taskId =
      wtTaskFindActiveLease ledger taskId := by
  rw [wtTaskFindActiveLease_append, LeaseScan.step, leaseMark_lifecycle]

/-- `wt-task close` of a leased task. -/
theorem not_terminalReleases : ¬ ∀ taskId ledger, TerminalReleases taskId ledger := by
  let lease : Bytes := fieldsLine [("schema", .text (bytes "woventeam.task_event.v0.1")),
    ("taskId", .text (bytes "t1")), ("eventType", .text (bytes "lease")),
    ("status", .text (bytes "leased")), ("assignedAgent", .text (bytes "codex")),
    ("attempt", .number 1), ("leaseExpiresAtUnixMs", .number 1060000),
    ("createdAtUnixMs", .number 1000000)]
  let close : Bytes :=
    fieldsLine (lifecycleFields (bytes "t1") (bytes "closed") (bytes "done") 1005000)
  intro h
  have hlease : isEventOf (bytes "t1") "lease" lease := by decide +kernel
  have hclose : isEventOf (bytes "t1") "lease" close = false := by decide +kernel
  have hterminal : givesTerminalStatus (bytes "t1") close := by decide +kernel
  have hsince : SinceLease (bytes "t1") [lease, close] [close] :=
    ⟨[], lease, rfl, hlease, by simp [hclose]⟩
  have hactive : (wtTaskFindActiveLease [lease, close] (bytes "t1")).active = true := by
    decide +kernel
  have hreleased := h (bytes "t1") [lease, close] [close] hsince ⟨close, by simp, hterminal⟩
  rw [hactive] at hreleased
  cases hreleased

end WovenTeam

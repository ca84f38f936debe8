import WovenTeam.Lib.FirstSeen
import WovenTeam.Store.Records

/-!
# Leases

`wtTaskFindActiveLease` walks the ledger for one task: a lease event makes a lease, a reclaim or a
terminal status ends it. The holder, expiry and attempt it reports are those of the last lease
event, whether it was released since or not.
-/

namespace WovenTeam

open CText QuotedText FirstSeen

/-- The outputs of `wtTaskFindActiveLease`; `active` is its return value. -/
structure LeaseScan where
  active : Bool := false
  leaseHolder : Bytes := []
  leaseExpiresAtUnixMs : Int := 0
  attempt : Int := 0
  deriving DecidableEq, Repr

/-- A status that ends a lease. -/
def endsLease (status : Bytes) : Bool :=
  status == bytes "complete" || status == bytes "failed" || status == bytes "cancelled" ||
    status == bytes "closed"

/-- What a line says about the lease of a task. -/
inductive LeaseMark where
  | lease (holder : Bytes) (expires attempt : Int)
  | release
  deriving DecidableEq, Repr

/-- An event of that type and task. -/
def isEventOf (taskId : Bytes) (eventType : String) (line : Bytes) : Bool :=
  lineHasSchema line taskEventSchema && lineTaskId line == some taskId &&
    wtJsonReadString line "eventType" 32 == .ok (bytes eventType)

/-- The lease or release a line records for the task. -/
def leaseMark (taskId line : Bytes) : Option LeaseMark :=
  if lineHasSchema line taskEventSchema && lineTaskId line == some taskId then
    match wtJsonReadString line "eventType" 32 with
    | .ok eventType =>
      if eventType = bytes "lease" then
        some (.lease ((wtJsonReadString line "assignedAgent" wtTaskAgentSize).orElse [])
          ((wtJsonReadLongLong line "leaseExpiresAtUnixMs").getD 0)
          (toInt32 ((wtJsonReadLong line "attempt").getD 0)))
      else if eventType = bytes "reclaim" then some .release
      else if eventType = bytes "status" then
        match wtJsonReadString line "status" wtTaskStatusSize with
        | .ok status => if endsLease status then some .release else none
        | _ => none
      else none
    | _ => none
  else none

def LeaseScan.apply (s : LeaseScan) : LeaseMark → LeaseScan
  | .lease holder expires attempt => ⟨true, holder, expires, attempt⟩
  | .release => { s with active := false }

/-- One line of the walk. -/
def LeaseScan.step (taskId : Bytes) (s : LeaseScan) (line : Bytes) : LeaseScan :=
  match leaseMark taskId line with
  | some mark => s.apply mark
  | none => s

def wtTaskFindActiveLease (ledger : Ledger) (taskId : Bytes) : LeaseScan :=
  ledger.foldl (LeaseScan.step taskId) {}

theorem wtTaskFindActiveLease_append (ledger : Ledger) (taskId line : Bytes) :
    wtTaskFindActiveLease (ledger ++ [line]) taskId =
      (wtTaskFindActiveLease ledger taskId).step taskId line := by
  simp [wtTaskFindActiveLease]

/-! ## Marks -/

theorem isEventOf_iff {taskId line : Bytes} {eventType : String} :
    isEventOf taskId eventType line ↔ lineHasSchema line taskEventSchema ∧
      lineTaskId line = some taskId ∧
        wtJsonReadString line "eventType" 32 = .ok (bytes eventType) := by
  simp [isEventOf, and_assoc]

theorem leaseMark_lease {taskId line : Bytes} (h : isEventOf taskId "lease" line) :
    leaseMark taskId line =
      some (.lease ((wtJsonReadString line "assignedAgent" wtTaskAgentSize).orElse [])
        ((wtJsonReadLongLong line "leaseExpiresAtUnixMs").getD 0)
        (toInt32 ((wtJsonReadLong line "attempt").getD 0))) := by
  obtain ⟨hs, hid, ht⟩ := isEventOf_iff.mp h
  simp [leaseMark, hs, hid, ht]

theorem leaseMark_reclaim {taskId line : Bytes} (h : isEventOf taskId "reclaim" line) :
    leaseMark taskId line = some .release := by
  obtain ⟨hs, hid, ht⟩ := isEventOf_iff.mp h
  simp [leaseMark, hs, hid, ht, show bytes "reclaim" ≠ bytes "lease" by decide]

theorem leaseMark_renewal {taskId line : Bytes} (h : isEventOf taskId "lease_renewal" line) :
    leaseMark taskId line = none := by
  obtain ⟨hs, hid, ht⟩ := isEventOf_iff.mp h
  simp [leaseMark, hs, hid, ht, show bytes "lease_renewal" ≠ bytes "lease" by decide,
    show bytes "lease_renewal" ≠ bytes "reclaim" by decide,
    show bytes "lease_renewal" ≠ bytes "status" by decide]

theorem leaseMark_cases {taskId line : Bytes} {mark : LeaseMark}
    (h : leaseMark taskId line = some mark) : isEventOf taskId "lease" line ∨ mark = .release := by
  unfold leaseMark at h
  split at h
  · rename_i hline
    split at h
    · rename_i eventType hevent
      split at h
      · rename_i hlease
        exact .inl (by simp_all [isEventOf])
      · split at h
        · exact .inr (Option.some.inj h).symm
        · split at h
          · split at h
            · split at h
              · exact .inr (Option.some.inj h).symm
              · cases h
            · cases h
          · cases h
    · cases h
  · cases h

theorem isSome_leaseMark {taskId line : Bytes} (h : (leaseMark taskId line).isSome) :
    lineHasSchema line taskEventSchema ∧ lineTaskId line = some taskId := by
  unfold leaseMark at h
  split at h
  · simp_all
  · cases h

/-- The walk after the last mark. -/
theorem wtTaskFindActiveLease_lastOf (ledger : Ledger) (taskId : Bytes) :
    match lastOf (leaseMark taskId) ledger with
    | some (.lease holder expires attempt) =>
      wtTaskFindActiveLease ledger taskId = ⟨true, holder, expires, attempt⟩
    | _ => (wtTaskFindActiveLease ledger taskId).active = false := by
  induction ledger using List.reverseRecOn with
  | nil => rfl
  | append_singleton ledger line ih =>
    rw [lastOf_append, lastOf_cons_of_none (by simp), wtTaskFindActiveLease_append, LeaseScan.step]
    cases hm : leaseMark taskId line with
    | none => simpa using ih
    | some mark => cases mark <;> rfl

/-- A lease is active exactly when the last mark is a lease, and then it is that one. -/
theorem wtTaskFindActiveLease_iff {ledger : Ledger} {taskId : Bytes} {expires : Int} :
    (wtTaskFindActiveLease ledger taskId).active ∧
        (wtTaskFindActiveLease ledger taskId).leaseExpiresAtUnixMs = expires ↔
      ∃ holder attempt, lastOf (leaseMark taskId) ledger = some (.lease holder expires attempt) := by
  have h := wtTaskFindActiveLease_lastOf ledger taskId
  split at h
  · rename_i holder expires' attempt hlast
    rw [h, hlast]
    simp
  · rename_i hlast
    rw [h]
    simp only [Bool.false_eq_true, false_and, false_iff, not_exists]
    exact fun holder attempt => hlast holder expires attempt

end WovenTeam

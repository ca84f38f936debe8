import Mathlib.Logic.Function.Basic
import WovenTeam.Lib.Runs
import WovenTeam.Roomd.Auth
import WovenTeam.Store.Find
import WovenTeam.Store.Lease

/-!
# Concurrent claimers

Local agents (`handleAssignedTask`) and remote hosts (`handlePostRemoteClaim`) claim tasks from one
ledger. A claim is several reads of the ledger and then one or two appends; the file lock is held
for a single append only, so the steps of the claimers interleave with each other and with whatever
else is appended.

`claims_exclusive`: no two claimers hold one task at a time in a run in which each lease is appended
on an up-to-date lookup, and a lease under the claimer's own name was its own.
-/

namespace WovenTeam

open CText QuotedText FirstSeen Runs

/-! ## Claims -/

/-- One call of a claiming function. -/
inductive Claim where
  /-- `handleAssignedTask` -/
  | assigned (agentName : Bytes)
  /-- `handlePostRemoteClaim` -/
  | remote (agentName host : Bytes)
  deriving DecidableEq, Repr

def Claim.agentName : Claim → Bytes
  | assigned agentName => agentName
  | remote agentName _ => agentName

/-- The time a claim works with; the local agent's clock has seconds. -/
def Claim.nowUnixMs : Claim → Int → Int
  | assigned _, clock => clock / 1000 * 1000
  | remote _ _, clock => clock

/-- The scan for a claimable task. -/
def Claim.find (ledger : Ledger) (nowUnixMs : Int) : Claim → Option WtTaskSummary
  | assigned agentName =>
    if wtTaskAgentPaused ledger agentName then none
    else wtTaskFindClaimableForAgent ledger agentName nowUnixMs
  | remote agentName host => wtTaskFindClaimableForAgentOnHost ledger agentName host nowUnixMs

/-- The capability check of a remote claim. -/
def Claim.capable (ledger : Ledger) (task : WtTaskSummary) : Claim → Bool
  | assigned _ => true
  | remote agentName host =>
    match readHostProfiles ledger host agentName with
    | some profiles => profileInList profiles task.toolProfile
    | none => false

def Claim.reclaimMessage (leaseHolder : Bytes) : Claim → Bytes
  | assigned agentName =>
    snprintf 256 (bytes "Auto-reclaim by wt-agent@" ++ agentName ++
      bytes " after lease expired (previous holder=" ++
      (if leaseHolder = [] then bytes "unknown" else leaseHolder) ++ bytes ").")
  | remote agentName host =>
    snprintf 256 (bytes "Remote auto-reclaim by wt-agent@" ++ agentName ++ bytes " on " ++ host ++
      bytes " after lease expired.")

/-- How far a claimer is. `seen` is the length of the ledger at its lookup; no step reads it. -/
inductive Phase where
  | idle
  | found (claim : Claim) (task : WtTaskSummary) (nowUnixMs : Int)
  | chosen (claim : Claim) (task : WtTaskSummary) (nowUnixMs : Int)
  | reclaiming (claim : Claim) (task : WtTaskSummary) (nowUnixMs : Int) (lease : LeaseScan)
      (seen : Nat)
  | leasing (claim : Claim) (task : WtTaskSummary) (nowUnixMs : Int) (lease : LeaseScan)
      (seen : Nat)
  deriving DecidableEq, Repr

/-- The decision on the lease that was looked up: leave a foreign one alone, reclaim an expired
one first. -/
def Claim.decideLease (claim : Claim) (task : WtTaskSummary) (nowUnixMs : Int) (lease : LeaseScan)
    (seen : Nat) : Phase :=
  if lease.active ∧ lease.leaseExpiresAtUnixMs > nowUnixMs ∧ lease.leaseHolder ≠ claim.agentName then
    .idle
  else if lease.active ∧ lease.leaseExpiresAtUnixMs ≤ nowUnixMs then
    .reclaiming claim task nowUnixMs lease seen
  else .leasing claim task nowUnixMs lease seen

/-! ## The system -/

/-- A line of the ledger, who appended it and when. Lines that no claimer appended have no
author. -/
structure Entry (ι : Type) where
  author : Option ι
  time : Int
  line : Bytes
  deriving DecidableEq, Repr

structure System (ι : Type) where
  entries : List (Entry ι)
  clock : Int
  phase : ι → Phase

inductive Action (ι : Type) where
  | tick (elapsed : Nat)
  /-- A record of any other component. -/
  | append (jsonLine : Bytes)
  | scan (i : ι) (claim : Claim)
  | checkProfiles (i : ι)
  | lookUp (i : ι)
  | reclaim (i : ι)
  | lease (i : ι) (leaseDurationSeconds : Int)
  deriving DecidableEq, Repr

variable {ι : Type}

def System.ledger (s : System ι) : Ledger := s.entries.map Entry.line

def System.goTo [DecidableEq ι] (s : System ι) (i : ι) (phase : Phase) : System ι :=
  { s with phase := Function.update s.phase i phase }

/-- The system after an append that made the ledger `ledger`. -/
def System.record (s : System ι) (author : Option ι) (ledger : Ledger) : System ι :=
  { s with
    entries := s.entries ++ (ledger.drop s.entries.length).map fun line => ⟨author, s.clock, line⟩ }

def leaseExpiry (nowUnixMs leaseDurationSeconds : Int) : Int :=
  wrap64 (nowUnixMs + (if leaseDurationSeconds > 0 then leaseDurationSeconds else 900) * 1000)

section steps

variable [DecidableEq ι]

def System.scan (s : System ι) (i : ι) (claim : Claim) : System ι :=
  match s.phase i with
  | .idle =>
    match claim.find s.ledger (claim.nowUnixMs s.clock) with
    | some task => s.goTo i (.found claim task (claim.nowUnixMs s.clock))
    | none => s
  | _ => s

def System.checkProfiles (s : System ι) (i : ι) : System ι :=
  match s.phase i with
  | .found claim task nowUnixMs =>
    if claim.capable s.ledger task then s.goTo i (.chosen claim task nowUnixMs) else s.goTo i .idle
  | _ => s

def System.lookUp (s : System ι) (i : ι) : System ι :=
  match s.phase i with
  | .chosen claim task nowUnixMs =>
    s.goTo i (claim.decideLease task nowUnixMs (wtTaskFindActiveLease s.ledger task.taskId)
      s.entries.length)
  | _ => s

def System.reclaim (s : System ι) (i : ι) : System ι :=
  match s.phase i with
  | .reclaiming claim task nowUnixMs lease seen =>
    match wtTaskAppendReclaimEvent s.ledger task.taskId lease.leaseHolder claim.agentName
        (bytes "lease_expired") (claim.reclaimMessage lease.leaseHolder) s.clock with
    | some ledger => (s.record (some i) ledger).goTo i (.leasing claim task nowUnixMs lease seen)
    | none => s.goTo i .idle
  | _ => s

def System.lease (s : System ι) (i : ι) (leaseDurationSeconds : Int) : System ι :=
  match s.phase i with
  | .leasing claim task nowUnixMs lease _ =>
    match wtTaskAppendLeaseEvent s.ledger task.taskId claim.agentName (toInt32 (lease.attempt + 1))
        (leaseExpiry nowUnixMs leaseDurationSeconds) s.clock with
    | some ledger => (s.record (some i) ledger).goTo i .idle
    | none => s.goTo i .idle
  | _ => s

/-- One step. An action that does not fit its claimer's phase does nothing. -/
def System.step (s : System ι) : Action ι → System ι
  | .tick elapsed => if Int64 (s.clock + elapsed) then { s with clock := s.clock + elapsed } else s
  | .append jsonLine => s.record none (wtTaskAppendRecord s.ledger jsonLine)
  | .scan i claim => s.scan i claim
  | .checkProfiles i => s.checkProfiles i
  | .lookUp i => s.lookUp i
  | .reclaim i => s.reclaim i
  | .lease i leaseDurationSeconds => s.lease i leaseDurationSeconds

end steps

/-- Every claimer is idle, and the ledger is nobody's. -/
def System.start (ledger : Ledger) (clock : Int) : System ι where
  entries := ledger.map fun line => ⟨none, clock, line⟩
  clock := clock
  phase _ := .idle

/-! ## Mutual exclusion -/

/-- The expiry of a lease event of the task. -/
def leaseUntil (taskId line : Bytes) : Option Int :=
  if isEventOf taskId "lease" line then
    some ((wtJsonReadLongLong line "leaseExpiresAtUnixMs").getD 0)
  else none

/-- Of two lease events of one task by different claimers, the earlier one had expired, or a
reclaim or a terminal status stands between them. -/
def Exclusive (entries : List (Entry ι)) : Prop :=
  ∀ before e between f after taskId i j expires,
    entries = before ++ e :: (between ++ f :: after) →
    e.author = some i → f.author = some j → i ≠ j →
    leaseUntil taskId e.line = some expires → (leaseUntil taskId f.line).isSome →
    f.time < expires → ∃ g ∈ between, leaseMark taskId g.line = some .release

/-- The last lease event of the task. -/
def lastLease (taskId : Bytes) (entries : List (Entry ι)) : Option (Entry ι) :=
  lastOf (fun e => if isEventOf taskId "lease" e.line then some e else none) entries

/-- A lease is appended for a task whose id reads back, with no other claimer's lease of the task
since the lookup; and if the lookup found an unexpired lease, the claimer had appended it
itself. -/
def Unraced (s : System ι) : Action ι → Prop
  | .lease i _ =>
    match s.phase i with
    | .leasing _ task nowUnixMs lease seen =>
      reread task.taskId = task.taskId ∧
        (∀ e ∈ s.entries.drop seen, isEventOf task.taskId "lease" e.line →
          e.author = none ∨ e.author = some i) ∧
        (lease.active → nowUnixMs < lease.leaseExpiresAtUnixMs →
          ∀ e ∈ lastLease task.taskId (s.entries.take seen), e.author = some i)
    | _ => True
  | _ => True

instance [DecidableEq ι] (s : System ι) (a : Action ι) : Decidable (Unraced s a) := by
  unfold Unraced
  split
  · split <;> infer_instance
  · infer_instance

/-! ### Appending to an exclusive ledger -/

variable {entries : List (Entry ι)} {f : Entry ι}

theorem exclusive_append (h : Exclusive entries)
    (hf : ∀ before e between taskId i j expires, entries = before ++ e :: between →
      e.author = some i → f.author = some j → i ≠ j → leaseUntil taskId e.line = some expires →
      (leaseUntil taskId f.line).isSome → f.time < expires →
        ∃ g ∈ between, leaseMark taskId g.line = some .release) :
    Exclusive (entries ++ [f]) := by
  intro before e between f' after taskId i j expires hsplit hi hj hne he hlease htime
  rcases List.eq_nil_or_concat after with rfl | ⟨after, last, rfl⟩
  · have hsplit' : entries ++ [f] = (before ++ e :: between) ++ [f'] := by simpa using hsplit
    obtain ⟨hentries, hlast⟩ := List.append_inj' hsplit' rfl
    obtain rfl := List.singleton_inj.mp hlast
    exact hf before e between taskId i j expires hentries hi hj hne he hlease htime
  · have hsplit' : entries ++ [f] = (before ++ e :: (between ++ f' :: after)) ++ [last] := by
      simpa using hsplit
    obtain ⟨hentries, -⟩ := List.append_inj' hsplit' rfl
    exact h before e between f' after taskId i j expires hentries hi hj hne he hlease htime

theorem Exclusive.of_append {new : List (Entry ι)} (h : Exclusive (entries ++ new)) :
    Exclusive entries := by
  intro before e between f after taskId i j expires hsplit
  exact h before e between f (after ++ new) taskId i j expires (by simp [hsplit])

/-- A line that is no claimer's, or no lease, keeps the ledger exclusive. -/
theorem exclusive_append_other (h : Exclusive entries)
    (hf : f.author = none ∨ ∀ taskId, leaseUntil taskId f.line = none) :
    Exclusive (entries ++ [f]) := by
  refine exclusive_append h fun before e between taskId i j expires _ _ hj _ _ hlease _ => ?_
  rcases hf with hf | hf
  · rw [hf] at hj
    cases hj
  · rw [hf taskId] at hlease
    cases hlease

theorem exclusive_append_lines (h : Exclusive entries) (time : Int) (lines : List Bytes) :
    Exclusive (entries ++ lines.map fun line => ⟨none, time, line⟩) := by
  induction lines using List.reverseRecOn with
  | nil => simpa using h
  | append_singleton lines line ih =>
    rw [List.map_append, List.map_singleton, ← List.append_assoc]
    exact exclusive_append_other ih (.inl rfl)

/-! ### What a lookup tells -/

theorem leaseUntil_isSome {taskId line : Bytes} :
    (leaseUntil taskId line).isSome ↔ isEventOf taskId "lease" line := by
  unfold leaseUntil
  split <;> simp_all

theorem isEventOf_of_leaseUntil {taskId line : Bytes} {expires : Int}
    (h : leaseUntil taskId line = some expires) : isEventOf taskId "lease" line :=
  leaseUntil_isSome.mp (by simp [h])

/-- If no lease is active, every earlier one was released. -/
theorem released_of_inactive {taskId : Bytes} {before between : List (Entry ι)} {e : Entry ι}
    (h : (wtTaskFindActiveLease ((before ++ e :: between).map Entry.line) taskId).active = false)
    (he : isEventOf taskId "lease" e.line) :
    ∃ g ∈ between, leaseMark taskId g.line = some .release := by
  have hlast := wtTaskFindActiveLease_lastOf ((before ++ e :: between).map Entry.line) taskId
  rw [lastOf_map, lastOf_append, lastOf_cons, leaseMark_lease he] at hlast
  cases hb : lastOf (fun g : Entry ι => leaseMark taskId g.line) between with
  | none =>
    rw [hb] at hlast
    simp only [Option.none_or, Option.some_or] at hlast
    rw [hlast] at h
    cases h
  | some mark =>
    obtain ⟨x, g, y, rfl, hg, -⟩ := lastOf_eq_some_iff.mp hb
    cases mark with
    | release => exact ⟨g, by simp, hg⟩
    | lease holder expires attempt =>
      rw [hb] at hlast
      simp only [Option.some_or] at hlast
      rw [hlast] at h
      cases h

/-- If the last lease is a claimer's own, another claimer's earlier lease that is unexpired was
released before it. -/
theorem released_of_own {taskId : Bytes} {i j : ι} {before between : List (Entry ι)} {e : Entry ι}
    {clock expires : Int} (h : Exclusive (before ++ e :: between))
    (hpast : ∀ g ∈ between, g.time ≤ clock)
    (hown : ∀ g ∈ lastLease taskId (before ++ e :: between), g.author = some j)
    (hi : e.author = some i) (hne : i ≠ j) (he : leaseUntil taskId e.line = some expires)
    (htime : clock < expires) : ∃ g ∈ between, leaseMark taskId g.line = some .release := by
  have hevent := isEventOf_of_leaseUntil he
  rw [lastLease, lastOf_append, lastOf_cons, if_pos hevent] at hown
  cases hb : lastOf (fun g : Entry ι => if isEventOf taskId "lease" g.line then some g else none)
      between with
  | none =>
    have := hown e (by simp [hb])
    rw [hi] at this
    exact absurd (Option.some.inj this) hne
  | some own =>
    have hauthor := hown own (by simp [hb])
    obtain ⟨x, g, y, rfl, hg, -⟩ := lastOf_eq_some_iff.mp hb
    split at hg
    · rename_i hlease
      obtain rfl := Option.some.inj hg
      have hle := hpast g (by simp)
      obtain ⟨r, hr, hrel⟩ := h before e x g y taskId i j expires rfl hi hauthor hne he
        (leaseUntil_isSome.mpr hlease) (by omega)
      exact ⟨r, by simp [hr], hrel⟩
    · cases hg

/-! ### The invariant -/

/-- What a claimer knows of the ledger between its lookup and its lease: no lease was active, or
the expired one is reclaimed, or the active one is under its own name. -/
def Phase.Ok (entries : List (Entry ι)) : Phase → Prop
  | .reclaiming _ task nowUnixMs lease seen =>
    seen ≤ entries.length ∧
      lease = wtTaskFindActiveLease ((entries.take seen).map Entry.line) task.taskId ∧
      lease.leaseExpiresAtUnixMs ≤ nowUnixMs
  | .leasing _ task nowUnixMs lease seen =>
    seen ≤ entries.length ∧
      lease = wtTaskFindActiveLease ((entries.take seen).map Entry.line) task.taskId ∧
      (lease.active = false ∨ nowUnixMs < lease.leaseExpiresAtUnixMs ∨
        (reread task.taskId = task.taskId → task.taskId.length < wtTaskIdSize →
          ∃ g ∈ entries.drop seen, leaseMark task.taskId g.line = some .release))
  | _ => True

theorem Phase.Ok.append {phase : Phase} (h : phase.Ok entries) (new : List (Entry ι)) :
    phase.Ok (entries ++ new) := by
  cases phase with
  | idle => trivial
  | found => trivial
  | chosen => trivial
  | reclaiming claim task nowUnixMs lease seen =>
    obtain ⟨hseen, hlease, hexp⟩ := h
    refine ⟨by simp; omega, ?_, hexp⟩
    rwa [List.take_append_of_le_length hseen]
  | leasing claim task nowUnixMs lease seen =>
    obtain ⟨hseen, hlease, hknown⟩ := h
    refine ⟨by simp; omega, ?_, ?_⟩
    · rwa [List.take_append_of_le_length hseen]
    · refine hknown.imp_right (Or.imp_right fun hrel hread hlen => ?_)
      obtain ⟨g, hg, hmark⟩ := hrel hread hlen
      rw [List.drop_append_of_le_length hseen]
      exact ⟨g, by simp [hg], hmark⟩

structure System.Inv (s : System ι) : Prop where
  exclusive : Exclusive s.entries
  clock : Int64 s.clock
  past : ∀ e ∈ s.entries, e.time ≤ s.clock
  phases : ∀ i, (s.phase i).Ok s.entries

theorem System.Inv.goTo [DecidableEq ι] {s : System ι} (h : s.Inv) {i : ι} {phase : Phase}
    (hphase : phase.Ok s.entries) : (s.goTo i phase).Inv where
  exclusive := h.exclusive
  clock := h.clock
  past := h.past
  phases j := by
    by_cases hj : j = i
    · subst hj
      simpa [System.goTo] using hphase
    · simpa [System.goTo, hj] using h.phases j

theorem System.record_append (s : System ι) (author : Option ι) (new : Ledger) :
    (s.record author (s.ledger ++ new)).entries =
      s.entries ++ new.map fun line => ⟨author, s.clock, line⟩ := by
  simp [System.record, System.ledger]

theorem System.Inv.record {s : System ι} (h : s.Inv) {author : Option ι} {new : Ledger}
    (hexcl : Exclusive (s.entries ++ new.map fun line => ⟨author, s.clock, line⟩)) :
    (s.record author (s.ledger ++ new)).Inv where
  exclusive := by rwa [System.record_append]
  clock := h.clock
  past := by
    rw [System.record_append]
    intro e he
    rcases List.mem_append.mp he with he | he
    · exact h.past e he
    · obtain ⟨line, -, rfl⟩ := List.mem_map.mp he
      exact Int.le_refl _
  phases i := by
    rw [System.record_append]
    exact (h.phases i).append _

theorem System.Inv.record_line {s : System ι} (h : s.Inv) {author : Option ι} {line : Bytes}
    (hexcl : Exclusive (s.entries ++ [⟨author, s.clock, line⟩])) :
    (s.record author (s.ledger ++ [line])).Inv :=
  h.record hexcl

theorem System.Inv.start (ledger : Ledger) {clock : Int} (hclock : Int64 clock) :
    (System.start ledger clock : System ι).Inv where
  exclusive := by
    have hnil : Exclusive ([] : List (Entry ι)) := by
      intro before e between f after taskId i j expires hsplit
      simp at hsplit
    simpa [System.start] using exclusive_append_lines hnil clock ledger
  clock := hclock
  past := by
    intro e he
    obtain ⟨line, -, rfl⟩ := List.mem_map.mp he
    exact Int.le_refl _
  phases _ := trivial

/-- Every other claimer's unexpired lease from before the lookup was released. -/
theorem released_before {s : System ι} {i j : ι} {claim : Claim} {task : WtTaskSummary} {nowUnixMs expires : Int}
    {lease : LeaseScan} {seen : Nat} {before between : List (Entry ι)} {e : Entry ι} (h : s.Inv)
    (hok : (Phase.leasing claim task nowUnixMs lease seen).Ok s.entries)
    (hread : reread task.taskId = task.taskId) (hlen : task.taskId.length < wtTaskIdSize)
    (hown : lease.active → nowUnixMs < lease.leaseExpiresAtUnixMs →
      ∀ e ∈ lastLease task.taskId (s.entries.take seen), e.author = some j)
    (hsplit : s.entries = before ++ e :: between) (hbefore : before.length < seen)
    (hi : e.author = some i) (hne : i ≠ j) (he : leaseUntil task.taskId e.line = some expires)
    (htime : s.clock < expires) :
    ∃ g ∈ between, leaseMark task.taskId g.line = some .release := by
  obtain ⟨hseen, hlease, hknown⟩ := hok
  obtain ⟨n, hn⟩ : ∃ n, seen = before.length + 1 + n := ⟨seen - before.length - 1, by omega⟩
  have htake : s.entries.take seen = before ++ e :: between.take n := by
    rw [hsplit, hn, Nat.add_assoc, List.take_length_add_append, Nat.add_comm 1,
      List.take_succ_cons]
  have hdrop : s.entries.drop seen = between.drop n := by
    rw [hsplit, hn, Nat.add_assoc, List.drop_length_add_append, Nat.add_comm 1,
      List.drop_succ_cons]
  rw [htake] at hlease hown
  rcases hknown with hinactive | hunexpired | hreclaimed
  · rw [hlease] at hinactive
    obtain ⟨g, hg, hrel⟩ := released_of_inactive hinactive (isEventOf_of_leaseUntil he)
    exact ⟨g, List.mem_of_mem_take hg, hrel⟩
  · by_cases hactive : lease.active
    · have hexcl : Exclusive (before ++ e :: between.take n) := by
        have hall := h.exclusive
        rw [← List.take_append_drop seen s.entries, htake] at hall
        exact hall.of_append
      have hpast : ∀ g ∈ between.take n, g.time ≤ s.clock := fun g hg =>
        h.past g (by rw [hsplit]; simp [List.mem_of_mem_take hg])
      obtain ⟨g, hg, hrel⟩ :=
        released_of_own hexcl hpast (hown hactive hunexpired) hi hne he htime
      exact ⟨g, List.mem_of_mem_take hg, hrel⟩
    · rw [hlease] at hactive
      obtain ⟨g, hg, hrel⟩ := released_of_inactive (Bool.not_eq_true _ ▸ hactive)
        (isEventOf_of_leaseUntil he)
      exact ⟨g, List.mem_of_mem_take hg, hrel⟩
  · obtain ⟨g, hg, hrel⟩ := hreclaimed hread hlen
    rw [hdrop] at hg
    exact ⟨g, List.mem_of_mem_drop hg, hrel⟩

/-! ### Steps -/

section step

variable [DecidableEq ι] {s : System ι}

theorem leaseUntil_reclaim {a b c d e : Literal} {now : Int} (taskId : Bytes) :
    leaseUntil taskId (recordLine (reclaimRecord a b c d e now)) = none := by
  rw [leaseUntil, if_neg]
  rw [isEventOf_iff, reclaimRecord_eventType]
  exact fun h => absurd h.2.2 (by decide)

theorem System.Inv.scan (h : s.Inv) (i : ι) (claim : Claim) : (s.scan i claim).Inv := by
  unfold System.scan
  split
  · split
    · exact h.goTo trivial
    · exact h
  · exact h

theorem System.Inv.checkProfiles (h : s.Inv) (i : ι) : (s.checkProfiles i).Inv := by
  unfold System.checkProfiles
  split
  · split <;> exact h.goTo trivial
  · exact h

theorem System.Inv.lookUp (h : s.Inv) (i : ι) : (s.lookUp i).Inv := by
  unfold System.lookUp
  split
  · rename_i claim task nowUnixMs _
    refine h.goTo ?_
    have htake : (s.entries.take s.entries.length).map Entry.line = s.ledger := by
      rw [List.take_length]
      rfl
    unfold Claim.decideLease
    split
    · trivial
    · split
      · rename_i hexpired
        exact ⟨Nat.le_refl _, by rw [htake], hexpired.2⟩
      · rename_i hnot
        refine ⟨Nat.le_refl _, by rw [htake], ?_⟩
        by_cases hactive : (wtTaskFindActiveLease s.ledger task.taskId).active
        · exact .inr (.inl (by by_contra hle; exact hnot ⟨hactive, by omega⟩))
        · exact .inl (by simpa using hactive)
  · exact h

/-- The reclaim of an expired lease releases every lease before it. -/
theorem System.Inv.reclaim (h : s.Inv) (i : ι) : (s.reclaim i).Inv := by
  unfold System.reclaim
  split
  · rename_i claim task nowUnixMs lease seen hphase
    have hok := h.phases i
    rw [hphase] at hok
    obtain ⟨hseen, hlease, hexp⟩ := hok
    split
    · rename_i ledger happend
      obtain ⟨a, b, c, d, e, ha, -, rfl⟩ := wtTaskAppendReclaimEvent_eq h.clock happend
      have hother : Exclusive (s.entries ++
          [⟨some i, s.clock, recordLine (reclaimRecord a b c d e s.clock)⟩]) :=
        exclusive_append_other h.exclusive (.inr leaseUntil_reclaim)
      refine (h.record_line hother).goTo ?_
      rw [System.record_append]
      refine ⟨by simp; omega, ?_, .inr (.inr fun hread hlen => ?_)⟩
      · rwa [List.take_append_of_le_length hseen]
      · rw [List.drop_append_of_le_length hseen]
        refine ⟨_, List.mem_append_right _ (List.mem_singleton_self _), leaseMark_reclaim ?_⟩
        exact isEventOf_iff.mpr ⟨reclaimRecord_schema,
          reclaimRecord_taskId.mpr ⟨ha.trans hread, hlen⟩, reclaimRecord_eventType⟩
    · exact h.goTo trivial
  · exact h

/-- **The lease step: on an up-to-date lookup it keeps the ledger exclusive.** -/
theorem System.Inv.lease (h : s.Inv) {i : ι} {duration : Int} (hu : Unraced s (.lease i duration)) :
    (s.lease i duration).Inv := by
  unfold System.lease
  simp only [Unraced] at hu
  split
  · rename_i claim task nowUnixMs lease seen hphase
    have hok := h.phases i
    rw [hphase] at hok hu
    obtain ⟨hread, hcurrent, hown⟩ := hu
    split
    · rename_i ledger happend
      obtain ⟨a, b, c, ha, rfl⟩ := wtTaskAppendLeaseEvent_eq (int64_toInt32 _) (int64_wrap64 _)
        h.clock happend
      refine (h.record_line (exclusive_append h.exclusive ?_)).goTo trivial
      intro before e between taskId i' j expires hsplit hi hj hne he hlease htime
      obtain rfl : i = j := Option.some.inj hj
      obtain ⟨-, hid, -⟩ := isEventOf_iff.mp (leaseUntil_isSome.mp hlease)
      obtain ⟨hunescape, hlen⟩ := leaseRecord_taskId.mp hid
      obtain rfl : task.taskId = taskId := by rw [← hunescape, ha, hread]
      rcases Nat.lt_or_ge before.length seen with hlt | hge
      · exact released_before h hok hread hlen hown hsplit hlt hi hne he htime
      · have hmem : e ∈ s.entries.drop seen := by
          rw [hsplit, List.drop_append_of_le_length hge]
          simp
        rcases hcurrent e hmem (isEventOf_of_leaseUntil he) with hnone | hsame
        · rw [hi] at hnone
          cases hnone
        · rw [hi] at hsame
          exact absurd (Option.some.inj hsame) hne
    · exact h.goTo trivial
  · exact h

theorem System.Inv.step (h : s.Inv) {a : Action ι} (hu : Unraced s a) : (s.step a).Inv := by
  cases a with
  | tick elapsed =>
    simp only [System.step]
    split
    · rename_i hclock
      exact {
        exclusive := h.exclusive
        clock := hclock
        past := fun e he => Int.le_trans (h.past e he) (by simp)
        phases := h.phases }
    · exact h
  | append jsonLine => exact h.record (exclusive_append_lines h.exclusive s.clock _)
  | scan i claim => exact h.scan i claim
  | checkProfiles i => exact h.checkProfiles i
  | lookUp i => exact h.lookUp i
  | reclaim i => exact h.reclaim i
  | lease i duration => exact h.lease hu

end step

/-- **No two claimers hold one task at a time in a run whose leases are all appended on an
up-to-date lookup.** -/
theorem claims_exclusive [DecidableEq ι] (ledger : Ledger) {clock : Int} (hclock : Int64 clock)
    {actions : List (Action ι)}
    (h : Along System.step Unraced (System.start ledger clock) actions) :
    Exclusive (run System.step (System.start ledger clock) actions).entries := by
  have hstep : ∀ (s : System ι) (a : Action ι), s.Inv → Unraced s a → (s.step a).Inv :=
    fun _ _ hinv hu => hinv.step hu
  exact (run_invariant hstep (.start ledger hclock) h).exclusive

/-! ### Two agents at once -/

def claudeTaskLine : Bytes := recordLine (packageRecord (.ofPlain "t1") (.ofPlain "claude"))

/-- The steps of one claim. -/
def claimActions (i : Bool) : List (Action Bool) :=
  [.scan i (.assigned (bytes "claude")), .checkProfiles i, .lookUp i, .lease i 900]

theorem claims_exclusive_alone :
    Exclusive (run System.step (System.start [claudeTaskLine] 1000000) (claimActions true)).entries :=
  claims_exclusive [claudeTaskLine] (by decide) (by decide +kernel)

/-- Both agents look up the task before either leases it. -/
def racedActions : List (Action Bool) :=
  [.scan true (.assigned (bytes "claude")), .checkProfiles true, .lookUp true,
    .scan false (.assigned (bytes "claude")), .checkProfiles false, .lookUp false,
    .lease true 900, .lease false 900]

def racedLeaseLine : Bytes :=
  recordLine (leaseRecord (.ofPlain "t1") (.ofPlain "claude")
    (.ofPlain "Task leased by wt-agent@claude attempt 1.") 1 1900000 1000000)

theorem racedActions_entries :
    (run System.step (System.start [claudeTaskLine] 1000000) racedActions).entries =
      [⟨none, 1000000, claudeTaskLine⟩, ⟨some true, 1000000, racedLeaseLine⟩,
        ⟨some false, 1000000, racedLeaseLine⟩] := by
  decide +kernel

theorem not_claims_exclusive :
    ¬ ∀ (ledger : Ledger) (clock : Int) (actions : List (Action Bool)), Int64 clock →
      Exclusive (run System.step (System.start ledger clock) actions).entries := by
  intro h
  have hrace := h [claudeTaskLine] 1000000 racedActions (by decide)
  rw [racedActions_entries] at hrace
  obtain ⟨g, hg, -⟩ := hrace [⟨none, 1000000, claudeTaskLine⟩] ⟨some true, 1000000, racedLeaseLine⟩ []
    ⟨some false, 1000000, racedLeaseLine⟩ [] (bytes "t1") true false 1900000 rfl rfl rfl (by decide)
    (by decide +kernel) (by decide +kernel) (by decide)
  exact absurd hg List.not_mem_nil

end WovenTeam

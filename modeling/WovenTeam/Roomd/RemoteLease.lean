import WovenTeam.Claims
import WovenTeam.ClaimScans

/-!
# Leases granted to remote hosts

What entitles an agent on a host to a task: the task's owner, pin and tool profile as its records
declare them, the host's latest capability record, and the leases before. The daemon reads each
into a buffer of its own size and takes a text that does not fit for one that is not there, an
absent list for the one before, and an attempt for its low 32 bits. `remoteLease_legitimate_iff`
says that these are all the ways in which a granted lease fails to be legitimate, but for an id
that does not read back as itself.
-/

namespace WovenTeam

open CText QuotedText FirstSeen

/-! ## The statement -/

/-- What the task's last package has in `executionHost`. -/
def declaredHost (ledger : Ledger) (taskId : Bytes) : Option StringField :=
  lastOf (packageField "executionHost" wtTaskAgentSize) (taskLines ledger taskId)

/-- What the task's last package has in `profile`. -/
def declaredProfile (ledger : Ledger) (taskId : Bytes) : Option StringField :=
  lastOf (packageField "profile" wtTaskPolicySize) (taskLines ledger taskId)

/-- The task waits for no host or for this one. -/
def StringField.admitsHost (host : Bytes) : StringField → Prop
  | .absent => True
  | .cut _ => False
  | .ok pinned => pinned = [] ∨ pinned = host

/-- The profile a package asks for; one longer than every profile's name is none that a host
could advertise. -/
def StringField.profile : StringField → Option Bytes
  | .absent => some (bytes "observe")
  | .cut _ => none
  | .ok profile => some profile

/-- A capability record of the agent on the host. -/
def isCapabilityOf (host agent line : Bytes) : Bool :=
  lineMentionsSchema line hostEventSchema &&
    wtJsonReadString line "host" wtTaskAgentSize == .ok host &&
    wtJsonReadString line "agent" wtTaskAgentSize == .ok agent

/-- The profile list of the latest capability record. -/
def latestProfiles (ledger : Ledger) (host agent : Bytes) : Option StringField :=
  lastOf (fun line => if isCapabilityOf host agent line then
    some (wtJsonReadString line "profiles" 256) else none) ledger

/-- The latest capability record lists the profile, or `*`. -/
def Advertises (ledger : Ledger) (host agent profile : Bytes) : Prop :=
  ∃ list, latestProfiles ledger host agent = some (.ok list) ∧ profileInList list profile

/-- The attempt of the task's last lease event; zero before the first. -/
def previousAttempt (ledger : Ledger) (taskId : Bytes) : Int :=
  (lastOf (fun line => if isEventOf taskId "lease" line then
    some ((wtJsonReadLong line "attempt").getD 0) else none) ledger).getD 0

/-- The agent on the host is entitled to the task. -/
structure Entitled (ledger : Ledger) (agent host : Bytes) (nowUnixMs : Int) (taskId : Bytes) :
    Prop where
  owner : owner ledger taskId = some agent
  pinned : ∀ declared ∈ declaredHost ledger taskId, declared.admitsHost host
  capable : ∃ declared ∈ declaredProfile ledger taskId, ∃ profile ∈ declared.profile,
    Advertises ledger host agent profile
  free : (wtTaskFindActiveLease ledger taskId).foreign agent nowUnixMs = false

/-- The lease `line` of the task, behind the lines `released`: the claimer is entitled to the task,
a stale lease was reclaimed first, and the attempt is the next. -/
structure LegitimateLease (ledger released : Ledger) (line agent host : Bytes) (nowUnixMs : Int)
    (taskId : Bytes) : Prop where
  entitled : Entitled ledger agent host nowUnixMs taskId
  released : (wtTaskFindActiveLease ledger taskId).stale nowUnixMs →
    ∃ g ∈ released, isEventOf taskId "reclaim" g
  attempt : wtJsonReadLong line "attempt" = some (previousAttempt ledger taskId + 1)

/-! ## What the daemon reads -/

section row

variable {movesExpiry : List String} {ledger : Ledger} {taskId : Bytes} {row : ClaimRow}

theorem executionHost_eq (h : (claimTable movesExpiry).stateOf ledger taskId = some row) :
    ∃ declared, declaredHost ledger taskId = some declared ∧
      row.task.executionHost = declared.orElse [] :=
  packageField_eq (fun row => row.task.executionHost) (fun _ _ => rfl) (fun _ _ => rfl) h

theorem toolProfile_eq (h : (claimTable movesExpiry).stateOf ledger taskId = some row) :
    ∃ declared, declaredProfile ledger taskId = some declared ∧
      row.task.toolProfile = declared.orElse (bytes "observe") :=
  packageField_eq (fun row => row.task.toolProfile) (fun _ _ => rfl) (fun _ _ => rfl) h

end row

/-- If the latest capability record has a list that fits, that is the list the daemon checks. -/
theorem readHostProfiles_eq {ledger : Ledger} {host agent list : Bytes}
    (h : latestProfiles ledger host agent = some (.ok list)) :
    readHostProfiles ledger host agent = some list := by
  induction ledger using List.reverseRecOn with
  | nil => cases h
  | append_singleton ledger line ih =>
    rw [latestProfiles, lastOf_append, lastOf_cons_of_none (by simp), ← latestProfiles] at h
    rw [readHostProfiles, List.foldl_append, ← readHostProfiles]
    simp only [List.foldl_cons, List.foldl_nil, hostProfilesStep]
    by_cases hline : isCapabilityOf host agent line
    · rw [if_pos hline, Option.some_or, Option.some.injEq] at h
      unfold isCapabilityOf at hline
      rw [if_pos hline, h]
      rfl
    · rw [if_neg hline, Option.none_or] at h
      unfold isCapabilityOf at hline
      rw [if_neg hline, ih h]

theorem latestProfiles_of_read {ledger : Ledger} {host agent profiles : Bytes}
    (h : readHostProfiles ledger host agent = some profiles) :
    ∃ latest, latestProfiles ledger host agent = some latest := by
  induction ledger using List.reverseRecOn generalizing profiles with
  | nil => cases h
  | append_singleton ledger line ih =>
    rw [latestProfiles, lastOf_append, lastOf_cons_of_none (by simp), ← latestProfiles]
    rw [readHostProfiles, List.foldl_append, ← readHostProfiles] at h
    simp only [List.foldl_cons, List.foldl_nil, hostProfilesStep] at h
    by_cases hline : isCapabilityOf host agent line
    · exact ⟨_, by rw [if_pos hline, Option.some_or]⟩
    · rw [if_neg hline, Option.none_or]
      unfold isCapabilityOf at hline
      rw [if_neg hline] at h
      exact ih h

theorem toInt32_toInt32_add (n m : Int) : toInt32 (toInt32 n + m) = toInt32 (n + m) := by
  simp [toInt32]

/-- The attempt the daemon counts on from has the last lease event's low 32 bits. -/
theorem attempt_eq (ledger : Ledger) (taskId : Bytes) :
    (wtTaskFindActiveLease ledger taskId).attempt = toInt32 (previousAttempt ledger taskId) := by
  induction ledger using List.reverseRecOn with
  | nil => rfl
  | append_singleton ledger line ih =>
    rw [wtTaskFindActiveLease_append, LeaseScan.step, previousAttempt, lastOf_append,
      lastOf_cons_of_none (by simp)]
    by_cases hlease : isEventOf taskId "lease" line
    · rw [leaseMark_lease hlease, if_pos hlease]
      rfl
    · rw [if_neg hlease, Option.none_or, ← previousAttempt, ← ih]
      cases hm : leaseMark taskId line with
      | none => rfl
      | some mark =>
        obtain rfl := (leaseMark_cases hm).resolve_left hlease
        rfl

theorem leaseRecord_attempt {a b c : Literal} {attempt expires now : Int} (h : Int64 attempt) :
    wtJsonReadLong (recordLine (leaseRecord a b c attempt expires now)) "attempt" = some attempt :=
  wtJsonReadLong_object (.of_check rfl) quote_notMem_newline h rfl rfl

theorem toInt32_eq_iff {n : Int} : toInt32 n = n ↔ -2 ^ 31 ≤ n ∧ n < 2 ^ 31 := by
  have hle := Int.le_bmod (x := n) (m := 2 ^ 32) (by decide)
  have hlt := Int.bmod_lt (x := n) (m := 2 ^ 32) (by decide)
  unfold toInt32
  constructor
  · intro h
    omega
  · intro h
    exact Int.bmod_eq_of_le (by omega) (by omega)

/-! ## What the daemon grants -/

section grant

variable {config : WtConfig} {ledger : Ledger} {request agent host : Bytes} {auth : WtAuthContext}
  {times : ClaimTimes} {nowUnixMs : Int} {task : WtTaskSummary}

/-- What the scan knows of the task it finds. -/
theorem remoteFind_spec (h : (Claim.remote agent host).find ledger nowUnixMs = some task) :
    owner ledger task.taskId = some agent ∧
      (∃ declared, declaredHost ledger task.taskId = some declared ∧
        (declared.orElse [] = [] ∨ declared.orElse [] = host)) ∧
      ∃ declared, declaredProfile ledger task.taskId = some declared ∧
        task.toolProfile = declared.orElse (bytes "observe") := by
  obtain ⟨row, hrow, rfl⟩ := Option.map_eq_some_iff.mp h
  have hstate := ((claimTable ["lease", "lease_renewal"]).mem_scan_iff.mp
    (List.mem_of_find?_eq_some hrow)).2
  have hp := List.find?_some hrow
  simp only [Bool.and_eq_true, Bool.or_eq_true, beq_iff_eq] at hp
  obtain ⟨⟨-, howner⟩, hhost⟩ := hp
  obtain ⟨pinned, hpinned, hpin⟩ := executionHost_eq hstate
  refine ⟨?_, ⟨pinned, hpinned, hpin ▸ hhost⟩, toolProfile_eq hstate⟩
  rw [← howner]
  exact ownerAgent_eq hstate

/-- A lease that the handler appends is for the one task its claim grants. -/
theorem remoteClaim_leased (hrequest : remoteClaimant request = some (agent, host))
    (h : AppendsLease ledger (handlePostRemoteClaim config ledger request auth times).1) :
    ∃ task, (Claim.remote agent host).Grants ledger times.start task ∧
      LeasedLedger (.remote agent host) config.leaseDurationSeconds ledger times task
        (handlePostRemoteClaim config ledger request auth times).1 := by
  simp only [handlePostRemoteClaim, hrequest] at h ⊢
  split at h
  · exact absurd h (not_appendsLease_self ledger)
  · rename_i hauth
    simp only [hauth, Bool.false_eq_true, ↓reduceIte]
    exact (Claim.run_cases _ _ _ _).resolve_right fun hno => hno h

end grant

/-! ## When the lease is legitimate -/

/-- The texts a claim rests on fit the buffers they are read into. -/
structure DeclaredInFull (ledger : Ledger) (agent host taskId : Bytes) : Prop where
  pin : ∀ declared ∈ declaredHost ledger taskId, ∀ written, declared ≠ .cut written
  profile : ∀ declared ∈ declaredProfile ledger taskId, ∀ written, declared ≠ .cut written
  advertised : ∀ profiles ∈ latestProfiles ledger host agent, ∃ list, profiles = .ok list

/-- The next attempt fits an `int`. -/
def NextAttemptFits (ledger : Ledger) (taskId : Bytes) : Prop :=
  -2 ^ 31 ≤ previousAttempt ledger taskId + 1 ∧ previousAttempt ledger taskId + 1 < 2 ^ 31

/-- What would make the lease legitimate for a task of another id than the one that was found. -/
structure Coincides (ledger : Ledger) (agent host : Bytes) (nowUnixMs : Int) (found taskId : Bytes) :
    Prop where
  entitled : Entitled ledger agent host nowUnixMs taskId
  stale : (wtTaskFindActiveLease ledger taskId).stale nowUnixMs →
    (wtTaskFindActiveLease ledger found).stale nowUnixMs
  attempt : previousAttempt ledger taskId + 1 = toInt32 (previousAttempt ledger found + 1)

section legitimate

variable {config : WtConfig} {ledger : Ledger} {request agent host : Bytes} {auth : WtAuthContext}
  {times : ClaimTimes} {nowUnixMs : Int} {task : WtTaskSummary}

/-- An agent is entitled to the task it is granted exactly when the daemon read its declarations in
full. -/
theorem entitled_iff (h : (Claim.remote agent host).Grants ledger nowUnixMs task) :
    Entitled ledger agent host nowUnixMs task.taskId ↔
      DeclaredInFull ledger agent host task.taskId := by
  obtain ⟨howner, ⟨pinned, hpinned, hpin⟩, asked, hasked, hprofile⟩ := remoteFind_spec h.found
  have hcapable := h.capable
  constructor
  · intro hentitled
    refine ⟨fun declared hdeclared written hcut => ?_, fun declared hdeclared written hcut => ?_,
      fun profiles hprofiles => ?_⟩
    · have hadmits := hentitled.pinned declared hdeclared
      rwa [hcut] at hadmits
    · obtain ⟨declared', hdeclared', profile, hask, -⟩ := hentitled.capable
      rw [Option.mem_def.mp hdeclared'] at hdeclared
      cases hdeclared
      subst hcut
      cases hask
    · obtain ⟨-, -, -, -, list, hlist, -⟩ := hentitled.capable
      rw [hlist] at hprofiles
      exact ⟨list, (Option.some.inj hprofiles).symm⟩
  · intro hfull
    refine ⟨howner, fun declared hdeclared => ?_, ⟨asked, hasked, ?_⟩, h.free⟩
    · rw [hpinned] at hdeclared
      cases hdeclared
      cases pinned with
      | absent => trivial
      | cut written => exact absurd rfl (hfull.pin _ hpinned written)
      | ok pinnedHost => exact hpin
    · simp only [Claim.capable] at hcapable
      cases hread : readHostProfiles ledger host agent with
      | none => simp [hread] at hcapable
      | some profiles =>
        obtain ⟨latest, hlatest⟩ := latestProfiles_of_read hread
        obtain ⟨list, rfl⟩ := hfull.advertised latest hlatest
        rw [readHostProfiles_eq hlatest] at hcapable
        refine ⟨task.toolProfile, ?_, list, hlatest, hcapable⟩
        rw [hprofile]
        cases asked with
        | absent => rfl
        | cut written => exact absurd rfl (hfull.profile _ hasked written)
        | ok profile => rfl

/-- The lines of a granted lease: the lease is the last, and it alone is one. -/
theorem leasedLedger_split {duration : Int} {released rest ledger' : Ledger} {line : Bytes}
    (h : LeasedLedger (.remote agent host) duration ledger times task ledger')
    (hsplit : ledger' = ledger ++ (released ++ line :: rest)) (hlease : isLeaseLine line) :
    ∃ a b c : Literal,
      ReclaimLines task (wtTaskFindActiveLease ledger task.taskId) times.start times.reclaim
        released ∧
      unescape a.text = reread task.taskId ∧
      line = recordLine
        (leaseRecord a b c (toInt32 ((wtTaskFindActiveLease ledger task.taskId).attempt + 1))
          (leaseExpiry times.start duration) times.lease) := by
  obtain ⟨reclaimed, a, b, c, hreclaimed, ha, rfl⟩ := h
  have happended := List.append_cancel_left hsplit
  rcases List.eq_nil_or_concat rest with rfl | ⟨rest, last, rfl⟩
  · obtain ⟨rfl, hline⟩ := List.append_inj' happended rfl
    exact ⟨a, b, c, hreclaimed, ha, (List.singleton_inj.mp hline).symm⟩
  · have hmem : line ∈ reclaimed := by
      rw [List.concat_eq_append, ← List.cons_append, ← List.append_assoc] at happended
      rw [(List.append_inj' happended rfl).1]
      simp
    exact absurd hlease (hreclaimed.not_isLeaseLine line hmem)

/-- A stale lease is reclaimed under the id the lease is appended under. -/
theorem reclaims_iff {lease : LeaseScan} {now : Int} {lines : Ledger} {taskId : Bytes}
    (h : ReclaimLines task lease nowUnixMs now lines) (hreads : reread task.taskId = taskId)
    (hlen : taskId.length < wtTaskIdSize) :
    (∃ g ∈ lines, isEventOf taskId "reclaim" g) ↔ lease.stale nowUnixMs := by
  unfold ReclaimLines at h
  split at h
  · rename_i hstale
    obtain ⟨a, b, c, d, e, ha, rfl⟩ := h
    simp only [List.mem_singleton, exists_eq_left, hstale, iff_true]
    exact isEventOf_iff.mpr ⟨reclaimRecord_schema, reclaimRecord_taskId.mpr ⟨ha.trans hreads, hlen⟩,
      reclaimRecord_eventType⟩
  · rename_i hstale
    simp [h, hstale]

/-- **A granted lease is legitimate exactly when the daemon read the texts it rests on in full and
the next attempt is an `int`; and for an id that does not read back as itself, when all this holds
of the other task by coincidence.** -/
theorem remoteLease_legitimate_iff {released rest : Ledger} {line taskId : Bytes}
    (hrequest : remoteClaimant request = some (agent, host))
    (hledger : (handlePostRemoteClaim config ledger request auth times).1 =
      ledger ++ (released ++ line :: rest))
    (hlease : isEventOf taskId "lease" line) :
    LegitimateLease ledger released line agent host times.start taskId ↔
      ∃ task, (Claim.remote agent host).find ledger times.start = some task ∧
        if task.taskId = taskId then
          DeclaredInFull ledger agent host taskId ∧ NextAttemptFits ledger taskId
        else Coincides ledger agent host times.start task.taskId taskId := by
  have hisLease : isLeaseLine line := by
    obtain ⟨hschema, -, htype⟩ := isEventOf_iff.mp hlease
    simp [isLeaseLine, hschema, htype]
  have happends : AppendsLease ledger (handlePostRemoteClaim config ledger request auth times).1 := by
    rw [hledger, AppendsLease, List.drop_left]
    exact ⟨line, by simp, hisLease⟩
  obtain ⟨task, hgrants, hleased⟩ := remoteClaim_leased hrequest happends
  obtain ⟨a, b, c, hreclaimed, ha, rfl⟩ := leasedLedger_split hleased hledger hisLease
  obtain ⟨hid, hlen⟩ := leaseRecord_taskId.mp (isEventOf_iff.mp hlease).2.1
  rw [attempt_eq, toInt32_toInt32_add] at *
  have hattempt : wtJsonReadLong (recordLine (leaseRecord a b c
      (toInt32 (previousAttempt ledger task.taskId + 1))
      (leaseExpiry times.start config.leaseDurationSeconds) times.lease)) "attempt" =
      some (toInt32 (previousAttempt ledger task.taskId + 1)) :=
    leaseRecord_attempt (int64_toInt32 _)
  have hstale := reclaims_iff hreclaimed (ha.symm.trans hid) hlen
  have hfind : (∃ task, (Claim.remote agent host).find ledger times.start = some task ∧
      if task.taskId = taskId then
        DeclaredInFull ledger agent host taskId ∧ NextAttemptFits ledger taskId
      else Coincides ledger agent host times.start task.taskId taskId) ↔
      if task.taskId = taskId then
        DeclaredInFull ledger agent host taskId ∧ NextAttemptFits ledger taskId
      else Coincides ledger agent host times.start task.taskId taskId := by
    simp [hgrants.found]
  rw [hfind]
  split
  · rename_i hid
    subst hid
    rw [← entitled_iff hgrants]
    constructor
    · intro h
      refine ⟨h.entitled, ?_⟩
      have := h.attempt
      rw [hattempt, Option.some.injEq, toInt32_eq_iff] at this
      exact this
    · rintro ⟨hentitled, hfits⟩
      exact ⟨hentitled, hstale.mpr, by rw [hattempt, toInt32_eq_iff.mpr hfits]⟩
  · constructor
    · intro h
      refine ⟨h.entitled, fun hs => hstale.mp (h.released hs), ?_⟩
      have := h.attempt
      rw [hattempt, Option.some.injEq] at this
      exact this.symm
    · intro h
      exact ⟨h.entitled, fun hs => hstale.mpr (h.stale hs), by rw [hattempt, h.attempt]⟩

end legitimate

/-! ### A pin too long for its buffer -/

/-- A package for one host of a long name. -/
def pinnedPackageLine : Bytes :=
  recordLine (str "schema" (.ofPlain "woventeam.task_package.v0.1") ++ str "taskId" (.ofPlain "t1") ++
    str "assignedAgent" (.ofPlain "claude") ++
    str "executionHost"
      (.ofPlain "build-worker-17.linux.internal.eu-central.compute.example.invalid") "\x7d")

def pinnedLedger : Ledger := [pinnedPackageLine, claudeHostLine]

def unpinnedLedger : Ledger := [claudeTaskLine, claudeHostLine]

def unpinnedLease : Bytes :=
  recordLine (leaseRecord (.ofPlain "t1") (.ofPlain "claude")
    (.ofPlain "Task leased by wt-agent@claude attempt 1.") 1 901000 1000)

theorem remoteLease_legitimate_iff_unpinned :
    LegitimateLease unpinnedLedger [] unpinnedLease (bytes "claude") (bytes "h1") 1000 (bytes "t1") ↔
      ∃ task, (Claim.remote (bytes "claude") (bytes "h1")).find unpinnedLedger 1000 = some task ∧
        if task.taskId = bytes "t1" then
          DeclaredInFull unpinnedLedger (bytes "claude") (bytes "h1") (bytes "t1") ∧
            NextAttemptFits unpinnedLedger (bytes "t1")
        else Coincides unpinnedLedger (bytes "claude") (bytes "h1") 1000 task.taskId (bytes "t1") := by
  have hledger : (handlePostRemoteClaim {} unpinnedLedger remoteClaimRequest claudeAuth
      earlyTimes).1 = unpinnedLedger ++ ([] ++ unpinnedLease :: []) := by decide +kernel
  exact remoteLease_legitimate_iff (by decide +kernel) hledger (by decide +kernel)

/-- The host of the short name is granted the task pinned to the other. -/
theorem not_remoteLease_legitimate :
    ¬ ∀ config ledger request agent host auth times released rest line taskId,
      remoteClaimant request = some (agent, host) →
      (handlePostRemoteClaim config ledger request auth times).1 =
        ledger ++ (released ++ line :: rest) →
      isEventOf taskId "lease" line →
      LegitimateLease ledger released line agent host times.start taskId := by
  intro h
  have hline : ∃ line, (handlePostRemoteClaim {} pinnedLedger remoteClaimRequest claudeAuth
      earlyTimes).1 = pinnedLedger ++ ([] ++ line :: []) ∧ isEventOf (bytes "t1") "lease" line := by
    refine ⟨unpinnedLease, ?_, ?_⟩ <;> decide +kernel
  obtain ⟨line, hledger, hlease⟩ := hline
  have hlegit := h {} pinnedLedger remoteClaimRequest (bytes "claude") (bytes "h1") claudeAuth
    earlyTimes [] [] line (bytes "t1") (by decide +kernel) hledger hlease
  have hcut : ∃ written, declaredHost pinnedLedger (bytes "t1") = some (.cut written) :=
    ⟨(bytes "build-worker-17.linux.internal.eu-central.compute.example.invalid").take 63,
      by decide +kernel⟩
  obtain ⟨written, hwritten⟩ := hcut
  exact hlegit.entitled.pinned _ hwritten

end WovenTeam

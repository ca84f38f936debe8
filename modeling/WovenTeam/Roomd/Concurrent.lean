import WovenTeam.Roomd.Capacity

/-!
# Two admissions at once

`wt-roomd` forks a child for every connection. A child that admits a task reads the ledger for the
policy's numbers, evaluates them, and appends; only the append is under the ledger's lock, so the
steps of two children may come in any order. `serializable_iff`: every order of the steps accepts
what the two requests one after the other would accept exactly where the verdicts agree on the
ledgers the two children may see.
-/

namespace WovenTeam

open CText QuotedText Runs

/-! ## The steps of one child -/

/-- A request behind the checks that need no ledger. -/
inductive AdmissionJob where
  | taskPackage (body : Bytes) (p : TaskProposal)
  | taskRequest (body : Bytes) (r : TaskRequest)

/-- What the evaluation comes to. A denial is recorded in the name of `deniedBy`. -/
inductive AdmissionVerdict where
  | denied (decision : WtPolicyDecision) (deniedBy : Bytes) (reply : HttpReply)
  | refused (reply : HttpReply)
  | admitted

namespace AdmissionJob

def body : AdmissionJob → Bytes
  | taskPackage body _ => body
  | taskRequest body _ => body

def proposal : AdmissionJob → TaskProposal
  | taskPackage _ p => p
  | taskRequest _ r => r.proposal

def deniedBy : AdmissionJob → Bytes
  | taskPackage body _ => (wtJsonReadString body "createdBy" wtTaskAgentSize).orElse (bytes "ceo")
  | taskRequest _ r => r.requestedBy

def hostDeniedBy : AdmissionJob → Bytes
  | taskPackage _ _ => bytes "ceo"
  | taskRequest _ r => r.requestedBy

/-- Rebuild the projection and sum the budgets. -/
def prepare (job : AdmissionJob) (config : WtConfig) (ledger : Ledger) (clock : Clock) :
    WtPolicyInput :=
  job.proposal.policyInput config ledger job.body clock

/-- Only the request endpoint has capacity checks of its own. -/
def capacityError (job : AdmissionJob) (config : WtConfig) (ledger : Ledger) : Option Bytes :=
  match job with
  | taskPackage _ _ => none
  | taskRequest _ r =>
    enforceCapacity config (wtTaskProjectionRebuild ledger) (r.proposal.assignedAgent config)
      r.proposal.initiativeId r.parentTaskId

/-- Evaluate the numbers, then check the host and the capacity on the ledger as it is by now. -/
def evaluate (job : AdmissionJob) (config : WtConfig) (ledger : Ledger) (input : WtPolicyInput) :
    AdmissionVerdict :=
  let decision := wtPolicyEvaluateTaskPackage config input
  if !decision.allowed then .denied decision job.deniedBy (policyDenied decision)
  else if !job.proposal.hostCapable config ledger then
    .denied (job.proposal.capabilityDecision config) job.hostDeniedBy capabilityUnmet
  else
    match job.capacityError config ledger with
    | some capacityError =>
      .refused (conflict (snprintf 512 (bytes "\x7b\"ok\":false,\"error\":\"" ++
        capacityError ++ bytes "\"\x7d\n")))
    | none => .admitted

/-- Append what the verdict calls for, and answer. -/
def append (job : AdmissionJob) (config : WtConfig) (ledger : Ledger) (clock : Clock) :
    AdmissionVerdict → Ledger × HttpReply
  | .denied decision deniedBy reply =>
    (recordPolicyDenial ledger job.proposal.taskId job.proposal.initiativeId decision deniedBy
      clock.record, reply)
  | .refused reply => (ledger, reply)
  | .admitted =>
    match job with
    | taskPackage body p => p.recordPackage config ledger body clock.record
    | taskRequest _ r => r.record config ledger clock.record

/-- The records of the task fit their buffers. -/
def recordable (job : AdmissionJob) (config : WtConfig) (now : Int) : Bool :=
  match job with
  | taskPackage _ p =>
    shouldRouteAgent (p.assignedAgent config) || (p.routingEvent config now).isSome
  | taskRequest _ r => (r.escape config).isSome

end AdmissionJob

/-- The checks that need no ledger: the job, or the answer. -/
def AdmissionRequest.job (a : AdmissionRequest) : Except HttpReply AdmissionJob :=
  match requestBody a.request with
  | none => .error noBody
  | some body =>
    match a.endpoint with
    | .taskPackage =>
      match readTaskPackage body with
      | none => .error (badRequest "invalid task package")
      | some p => .ok (.taskPackage body p)
    | .taskRequest =>
      match readTaskRequest body with
      | none => .error (badRequest "invalid task request")
      | some r =>
        if !roleMaySpawn r.requestedByRole r.proposal.assignedRole then
          .error (errorReply 403 "Forbidden" "role spawn policy denied")
        else .ok (.taskRequest body r)

/-- The request is served by steps that see three ledgers. -/
def AdmissionRequest.servedAt (a : AdmissionRequest) (config : WtConfig)
    (prepared evaluated appended : Ledger) : Ledger × HttpReply :=
  match a.job with
  | .error reply => (appended, reply)
  | .ok job =>
    job.append config appended a.clock
      (job.evaluate config evaluated (job.prepare config prepared a.clock))

/-- **The handlers are their three steps on one ledger.** -/
theorem served_eq (a : AdmissionRequest) (config : WtConfig) (ledger : Ledger) :
    a.served config ledger = a.servedAt config ledger ledger ledger := by
  obtain ⟨endpoint, request, clock⟩ := a
  unfold AdmissionRequest.served AdmissionRequest.servedAt AdmissionRequest.job
  cases hbody : requestBody request with
  | none => cases endpoint <;> simp [AdmissionEndpoint.handle, handlePostTaskPackage,
      handlePostTaskRequest, hbody]
  | some body =>
    cases endpoint with
    | taskPackage =>
      cases hp : readTaskPackage body with
      | none => simp [AdmissionEndpoint.handle, handlePostTaskPackage, hbody, hp]
      | some p =>
        simp only [AdmissionEndpoint.handle, handlePostTaskPackage, hbody, hp,
          TaskProposal.denied, AdmissionJob.evaluate, AdmissionJob.prepare, AdmissionJob.proposal,
          AdmissionJob.body, AdmissionJob.capacityError, AdmissionJob.deniedBy,
          AdmissionJob.hostDeniedBy]
        by_cases hallowed : (wtPolicyEvaluateTaskPackage config
            (p.policyInput config ledger body clock)).allowed
        · by_cases hhost : p.hostCapable config ledger <;>
            simp [hallowed, hhost, AdmissionJob.append, AdmissionJob.proposal]
        · simp [hallowed, AdmissionJob.append, AdmissionJob.proposal]
    | taskRequest =>
      cases hr : readTaskRequest body with
      | none => simp [AdmissionEndpoint.handle, handlePostTaskRequest, hbody, hr]
      | some r =>
        simp only [AdmissionEndpoint.handle, handlePostTaskRequest, hbody, hr]
        by_cases hspawn : roleMaySpawn r.requestedByRole r.proposal.assignedRole
        · simp only [hspawn, TaskProposal.denied, AdmissionJob.evaluate, AdmissionJob.prepare,
            AdmissionJob.proposal, AdmissionJob.body, AdmissionJob.capacityError,
            AdmissionJob.deniedBy, AdmissionJob.hostDeniedBy]
          by_cases hallowed : (wtPolicyEvaluateTaskPackage config
              (r.proposal.policyInput config ledger body clock)).allowed
          · by_cases hhost : r.proposal.hostCapable config ledger
            · cases hcapacity : enforceCapacity config (wtTaskProjectionRebuild ledger)
                (r.proposal.assignedAgent config) r.proposal.initiativeId r.parentTaskId <;>
                simp [hallowed, hhost, hcapacity, AdmissionJob.append]
            · simp [hallowed, hhost, AdmissionJob.append, AdmissionJob.proposal]
          · simp [hallowed, AdmissionJob.append, AdmissionJob.proposal]
        · simp [hspawn]

/-! ## Verdicts -/

/-- The request is accepted by a child that prepares on one ledger and evaluates on another: its
fields are read, its records fit, and policy, host and capacity allow it. -/
def AdmissionRequest.Admits (a : AdmissionRequest) (config : WtConfig)
    (prepared evaluated : Ledger) : Prop :=
  ∃ job, a.job = .ok job ∧ job.recordable config a.clock.record = true ∧
    (wtPolicyEvaluateTaskPackage config (job.prepare config prepared a.clock)).allowed = true ∧
    job.proposal.hostCapable config evaluated = true ∧
    job.capacityError config evaluated = none

section verdicts

variable {a : AdmissionRequest} {config : WtConfig} {prepared evaluated appended : Ledger}

theorem not_accepted_of_job_error {reply : HttpReply} (h : a.job = .error reply) :
    ¬ reply.accepted := by
  unfold AdmissionRequest.job at h
  split at h
  · cases h
    decide
  · split at h
    · split at h
      · cases h
        exact (by decide : ¬ (badRequest "invalid task package").accepted)
      · cases h
    · split at h
      · cases h
        exact (by decide : ¬ (badRequest "invalid task request").accepted)
      · split at h
        · cases h
          exact (by decide : ¬ (errorReply 403 "Forbidden" "role spawn policy denied").accepted)
        · cases h

/-- Whether the records fit is all that an admitted job's answer still depends on. -/
theorem accepted_append_admitted {job : AdmissionJob} {clock : Clock} :
    (job.append config appended clock .admitted).2.accepted ↔
      job.recordable config clock.record = true := by
  cases job with
  | taskPackage body p =>
    unfold AdmissionJob.append AdmissionJob.recordable TaskProposal.recordPackage
    dsimp only
    by_cases hroute : shouldRouteAgent (p.assignedAgent config)
    · simp only [hroute, if_true, Bool.true_or, iff_true]
      rfl
    · cases hevent : p.routingEvent config clock.record with
      | none =>
        simp only [hroute, if_false, Option.isSome_none, Bool.or_self, iff_false,
          Bool.false_eq_true]
        exact (by decide : ¬ (badRequest "task too large").accepted)
      | some record =>
        simp only [hroute, Bool.false_eq_true, if_false, Option.isSome_some, Bool.or_true, iff_true]
        rfl
  | taskRequest body r =>
    unfold AdmissionJob.append AdmissionJob.recordable TaskRequest.record
    dsimp only
    cases hescape : r.escape config with
    | none =>
      simp only [Option.isSome_none, Bool.false_eq_true, iff_false]
      exact (by decide : ¬ (badRequest "request too large").accepted)
    | some e =>
      simp only [Option.isSome_some, iff_true]
      rfl

theorem accepted_iff_admits :
    (a.servedAt config prepared evaluated appended).2.accepted ↔
      a.Admits config prepared evaluated := by
  unfold AdmissionRequest.servedAt AdmissionRequest.Admits
  cases hjob : a.job with
  | error reply => simp [not_accepted_of_job_error hjob]
  | ok job =>
    simp only [Except.ok.injEq, exists_eq_left', AdmissionJob.evaluate]
    by_cases hallowed : (wtPolicyEvaluateTaskPackage config
        (job.prepare config prepared a.clock)).allowed
    · by_cases hhost : job.proposal.hostCapable config evaluated
      · cases hcapacity : job.capacityError config evaluated with
        | none => simp [hallowed, hhost, accepted_append_admitted]
        | some capacityError =>
          simp [hallowed, hhost, AdmissionJob.append, conflict, HttpReply.accepted]
      · simp [hallowed, hhost, AdmissionJob.append, capabilityUnmet, conflict, HttpReply.accepted]
    · simp [hallowed, AdmissionJob.append, policyDenied, conflict, HttpReply.accepted]

/-- The answer does not depend on the ledger the records are appended to. -/
theorem servedAt_reply (appended' : Ledger) :
    (a.servedAt config prepared evaluated appended).2 =
      (a.servedAt config prepared evaluated appended').2 := by
  unfold AdmissionRequest.servedAt
  cases a.job with
  | error reply => rfl
  | ok job =>
    dsimp only
    cases job.evaluate config evaluated (job.prepare config prepared a.clock) with
    | denied decision deniedBy reply => rfl
    | refused reply => rfl
    | admitted =>
      cases job with
      | taskPackage body p =>
        unfold AdmissionJob.append TaskProposal.recordPackage
        dsimp only
        split
        · rfl
        · split <;> rfl
      | taskRequest body r =>
        unfold AdmissionJob.append TaskRequest.record
        dsimp only
        split <;> rfl

end verdicts

/-! ## Two children -/

inductive Child where
  | first
  | second
  deriving DecidableEq

def Child.other : Child → Child
  | first => second
  | second => first

@[simp] theorem Child.other_other (c : Child) : c.other.other = c := by cases c <;> rfl

@[simp] theorem Child.other_ne (c : Child) : c.other ≠ c := by cases c <;> decide

@[simp] theorem Child.ne_other (c : Child) : c ≠ c.other := by cases c <;> decide

theorem Child.eq_or_other (c d : Child) : d = c ∨ d = c.other := by
  cases c <;> cases d <;> decide

/-- How far a child has come. -/
inductive AdmissionPhase where
  | received
  | prepared (job : AdmissionJob) (input : WtPolicyInput)
  | decided (job : AdmissionJob) (verdict : AdmissionVerdict)
  | answered (reply : HttpReply)

structure ForkedState where
  ledger : Ledger
  phase : Child → AdmissionPhase

def ForkedState.move (s : ForkedState) (c : Child) (ledger : Ledger) (phase : AdmissionPhase) :
    ForkedState where
  ledger := ledger
  phase := Function.update s.phase c phase

/-- One step of one child; the children share the ledger only. -/
def ForkedState.step (config : WtConfig) (requests : Child → AdmissionRequest) (s : ForkedState)
    (c : Child) : ForkedState :=
  match s.phase c with
  | .received =>
    match (requests c).job with
    | .error reply => s.move c s.ledger (.answered reply)
    | .ok job =>
      s.move c s.ledger (.prepared job (job.prepare config s.ledger (requests c).clock))
  | .prepared job input => s.move c s.ledger (.decided job (job.evaluate config s.ledger input))
  | .decided job verdict =>
    let appended := job.append config s.ledger (requests c).clock verdict
    s.move c appended.1 (.answered appended.2)
  | .answered _ => s

/-- Both connections are accepted, and neither child has run. -/
def forked (ledger : Ledger) : ForkedState where
  ledger := ledger
  phase := fun _ => .received

def AdmissionPhase.reply? : AdmissionPhase → Option HttpReply
  | answered reply => some reply
  | _ => none

/-- The child has answered, and accepted its request. -/
def ForkedState.Accepts (s : ForkedState) (c : Child) : Prop :=
  ∃ reply, s.phase c = .answered reply ∧ reply.accepted

/-- The ledger behind the other child's request. -/
def behindOther (config : WtConfig) (ledger : Ledger) (requests : Child → AdmissionRequest)
    (c : Child) : Ledger :=
  served config ledger (requests c.other)

/-- Served one after the other, `leader` first, `c`'s request is accepted. -/
def AcceptedInOrder (config : WtConfig) (ledger : Ledger) (requests : Child → AdmissionRequest)
    (leader c : Child) : Prop :=
  if c = leader then ((requests c).served config ledger).2.accepted
  else ((requests c).served config (behindOther config ledger requests c)).2.accepted

/-- Whatever the order of the steps, the accepted requests are those of a serial order. -/
def Serializable (config : WtConfig) (ledger : Ledger) (requests : Child → AdmissionRequest) :
    Prop :=
  ∀ schedule : List Child,
    (∀ c, ((run (ForkedState.step config requests) (forked ledger) schedule).phase
      c).reply?.isSome) →
    ∃ leader, ∀ c,
      (run (ForkedState.step config requests) (forked ledger) schedule).Accepts c ↔
        AcceptedInOrder config ledger requests leader c

/-! ## What the orders of steps come to -/

/-- The ledgers a child may have prepared and evaluated on, where `ledger` became `behind`. -/
inductive Views (ledger behind : Ledger) : Ledger → Ledger → Prop where
  | before : Views ledger behind ledger ledger
  | mixed : Views ledger behind ledger behind
  | after : Views ledger behind behind behind

/-- A child that has not answered, and what it has seen. -/
inductive Waiting (config : WtConfig) (a : AdmissionRequest) (ledger behind : Ledger) :
    AdmissionPhase → Prop where
  | received : Waiting config a ledger behind .received
  | prepared {job : AdmissionJob} {prepared : Ledger} (hjob : a.job = .ok job)
      (hprepared : prepared = ledger ∨ prepared = behind) :
      Waiting config a ledger behind (.prepared job (job.prepare config prepared a.clock))
  | decided {job : AdmissionJob} {prepared evaluated : Ledger} (hjob : a.job = .ok job)
      (hviews : Views ledger behind prepared evaluated) :
      Waiting config a ledger behind
        (.decided job (job.evaluate config evaluated (job.prepare config prepared a.clock)))

/-- How far the two children have come together. -/
inductive Progress (config : WtConfig) (ledger : Ledger) (requests : Child → AdmissionRequest)
    (s : ForkedState) : Prop where
  | neither (hledger : s.ledger = ledger)
      (hwaiting : ∀ c, Waiting config (requests c) ledger ledger (s.phase c))
  | one (c : Child) (hledger : s.ledger = behindOther config ledger requests c)
      (hanswered : s.phase c.other =
        .answered ((requests c.other).servedAt config ledger ledger ledger).2)
      (hwaiting : Waiting config (requests c) ledger (behindOther config ledger requests c)
        (s.phase c))
  | both (c : Child) {prepared evaluated : Ledger}
      (hviews : Views ledger (behindOther config ledger requests c) prepared evaluated)
      (hanswered : s.phase c.other =
        .answered ((requests c.other).servedAt config ledger ledger ledger).2)
      (hlast : s.phase c = .answered ((requests c).servedAt config prepared evaluated ledger).2)

section progress

variable {config : WtConfig} {ledger behind : Ledger} {requests : Child → AdmissionRequest}
  {s : ForkedState} {c : Child}

theorem Waiting.mono {a : AdmissionRequest} {phase : AdmissionPhase}
    (h : Waiting config a ledger ledger phase) : Waiting config a ledger behind phase := by
  cases h with
  | received => exact .received
  | prepared hjob hprepared => exact .prepared hjob (.inl (hprepared.elim id id))
  | decided hjob hviews =>
    cases hviews <;> exact .decided hjob .before

/-- A waiting child's step leaves it waiting and the ledger as it is, or it answers what its views
come to. -/
theorem step_waiting (hledger : s.ledger = behind)
    (h : Waiting config (requests c) ledger behind (s.phase c)) :
    (∃ phase, Waiting config (requests c) ledger behind phase ∧
        s.step config requests c = s.move c behind phase) ∨
      ∃ prepared evaluated, Views ledger behind prepared evaluated ∧
        s.step config requests c =
          s.move c ((requests c).servedAt config prepared evaluated behind).1
            (.answered ((requests c).servedAt config prepared evaluated behind).2) := by
  unfold ForkedState.step
  rw [hledger]
  generalize s.phase c = phase at h
  cases h with
  | received =>
    dsimp only
    cases hjob : (requests c).job with
    | error reply =>
      exact .inr ⟨behind, behind, .after, by simp [AdmissionRequest.servedAt, hjob]⟩
    | ok job => exact .inl ⟨_, .prepared hjob (.inr rfl), rfl⟩
  | prepared hjob hprepared =>
    rcases hprepared with rfl | rfl
    · exact .inl ⟨_, .decided hjob .mixed, rfl⟩
    · exact .inl ⟨_, .decided hjob .after, rfl⟩
  | decided hjob hviews =>
    exact .inr ⟨_, _, hviews, by simp [AdmissionRequest.servedAt, hjob]⟩

/-- **Every step of either child keeps to the outcomes.** -/
theorem progress_step (h : Progress config ledger requests s) (c : Child) :
    Progress config ledger requests (s.step config requests c) := by
  cases h with
  | neither hledger hwaiting =>
    rcases step_waiting hledger (hwaiting c) with ⟨phase, hphase, hstep⟩ |
      ⟨prepared, evaluated, hviews, hstep⟩
    · rw [hstep]
      refine .neither rfl fun d => ?_
      rcases c.eq_or_other d with rfl | rfl
      · simpa [ForkedState.move] using hphase
      · simpa [ForkedState.move] using hwaiting c.other
    · rw [hstep]
      have hsame : prepared = ledger ∧ evaluated = ledger := by
        cases hviews <;> exact ⟨rfl, rfl⟩
      obtain ⟨rfl, rfl⟩ := hsame
      refine .one c.other ?_ ?_ ?_
      · simp [ForkedState.move, behindOther, served, served_eq]
      · simp [ForkedState.move]
      · simpa [ForkedState.move] using (hwaiting c.other).mono
  | one d hledger hanswered hwaiting =>
    rcases d.eq_or_other c with rfl | rfl
    · rcases step_waiting hledger hwaiting with ⟨phase, hphase, hstep⟩ |
        ⟨prepared, evaluated, hviews, hstep⟩
      · rw [hstep]
        exact .one c rfl (by simpa [ForkedState.move] using hanswered)
          (by simpa [ForkedState.move] using hphase)
      · rw [hstep]
        exact .both c hviews (by simpa [ForkedState.move] using hanswered)
          (by simpa [ForkedState.move] using servedAt_reply ledger)
    · have hstep : s.step config requests d.other = s := by
        simp [ForkedState.step, hanswered]
      rw [hstep]
      exact .one d hledger hanswered hwaiting
  | both d hviews hanswered hlast =>
    have hstep : s.step config requests c = s := by
      rcases d.eq_or_other c with rfl | rfl
      · simp [ForkedState.step, hlast]
      · simp [ForkedState.step, hanswered]
    rw [hstep]
    exact .both d hviews hanswered hlast

theorem progress_run (schedule : List Child) :
    Progress config ledger requests
      (run (ForkedState.step config requests) (forked ledger) schedule) := by
  have hstep : ∀ (s : ForkedState) (c : Child), Progress config ledger requests s → True →
      Progress config ledger requests (s.step config requests c) :=
    fun _ c h _ => progress_step h c
  exact run_invariant hstep (.neither rfl fun _ => .received) (.of_forall fun _ _ _ => trivial)

theorem Waiting.not_answered {a : AdmissionRequest} {phase : AdmissionPhase}
    (h : Waiting config a ledger behind phase) : phase.reply? = none := by
  cases h <;> rfl

/-- **The two answers at the end: one child saw only the ledger before both, the other one of
three views.** -/
theorem answers_of_answered (schedule : List Child)
    (h : ∀ c, ((run (ForkedState.step config requests) (forked ledger) schedule).phase
      c).reply?.isSome) :
    ∃ c prepared evaluated,
      Views ledger (behindOther config ledger requests c) prepared evaluated ∧
      ((run (ForkedState.step config requests) (forked ledger) schedule).Accepts c.other ↔
        (requests c.other).Admits config ledger ledger) ∧
      ((run (ForkedState.step config requests) (forked ledger) schedule).Accepts c ↔
        (requests c).Admits config prepared evaluated) := by
  cases progress_run schedule with
  | neither hledger hwaiting =>
    have hc := h .first
    rw [(hwaiting .first).not_answered] at hc
    cases hc
  | one c hledger hanswered hwaiting =>
    have hc := h c
    rw [hwaiting.not_answered] at hc
    cases hc
  | both c hviews hanswered hlast =>
    refine ⟨c, _, _, hviews, ?_, ?_⟩
    · simp only [ForkedState.Accepts, hanswered, AdmissionPhase.answered.injEq, exists_eq_left',
        accepted_iff_admits]
    · simp only [ForkedState.Accepts, hlast, AdmissionPhase.answered.injEq, exists_eq_left',
        accepted_iff_admits]

/-- The three steps of a child, one after the other. -/
theorem run_child (hreceived : s.phase c = .received) :
    run (ForkedState.step config requests) s [c, c, c] =
      s.move c (served config s.ledger (requests c))
        (.answered ((requests c).served config s.ledger).2) := by
  have hserved : (requests c).served config s.ledger =
      (requests c).servedAt config s.ledger s.ledger s.ledger := served_eq _ _ _
  rw [served, hserved, AdmissionRequest.servedAt]
  cases hjob : (requests c).job with
  | error reply => simp [ForkedState.step, hreceived, hjob, ForkedState.move]
  | ok job => simp [ForkedState.step, hreceived, hjob, ForkedState.move]

theorem run_other (hreceived : s.phase c.other = .received) :
    run (ForkedState.step config requests) s [c.other, c.other, c.other] =
      s.move c.other (served config s.ledger (requests c.other))
        (.answered ((requests c.other).served config s.ledger).2) :=
  run_child hreceived

/-- The other child may answer before `c`'s second or third step, so that `c` answers from either
view of the ledger before it. -/
theorem run_around {evaluated : Ledger}
    (hevaluated : evaluated = ledger ∨ evaluated = behindOther config ledger requests c) :
    ∃ schedule,
      (run (ForkedState.step config requests) (forked ledger) schedule).phase c.other =
        .answered ((requests c.other).served config ledger).2 ∧
      ∃ appended, (run (ForkedState.step config requests) (forked ledger) schedule).phase c =
        .answered ((requests c).servedAt config ledger evaluated appended).2 := by
  cases hjob : (requests c).job with
  | error reply =>
    have hfirst : (forked ledger).step config requests c =
        (forked ledger).move c ledger (.answered reply) := by
      simp [ForkedState.step, forked, hjob]
    refine ⟨c :: [c.other, c.other, c.other], ?_, ledger, ?_⟩ <;>
      rw [run_cons, hfirst, run_other (by simp [ForkedState.move, forked])] <;>
      simp [ForkedState.move, AdmissionRequest.servedAt, hjob]
  | ok job =>
    have hprepare : run (ForkedState.step config requests) (forked ledger) [c] =
        (forked ledger).move c ledger
          (.prepared job (job.prepare config ledger (requests c).clock)) := by
      simp [ForkedState.step, forked, hjob]
    have hdecide : run (ForkedState.step config requests) (forked ledger) [c, c] =
        ((forked ledger).move c ledger
          (.prepared job (job.prepare config ledger (requests c).clock))).move c ledger
          (.decided job (job.evaluate config ledger
            (job.prepare config ledger (requests c).clock))) := by
      simp [ForkedState.step, ForkedState.move, forked, hjob]
    rcases hevaluated with rfl | rfl
    · refine ⟨[c, c] ++ ([c.other, c.other, c.other] ++ [c]), ?_,
        behindOther config evaluated requests c, ?_⟩ <;>
        rw [run_append, run_append, hdecide, run_other (by simp [ForkedState.move, forked])] <;>
        simp [ForkedState.step, ForkedState.move, AdmissionRequest.servedAt, hjob, behindOther]
    · refine ⟨[c] ++ ([c.other, c.other, c.other] ++ [c, c]), ?_,
        behindOther config ledger requests c, ?_⟩ <;>
        rw [run_append, run_append, hprepare, run_other (by simp [ForkedState.move, forked])] <;>
        simp [ForkedState.step, ForkedState.move, AdmissionRequest.servedAt, hjob, behindOther]

end progress

/-! ## Serial orders -/

/-- Neither child's acceptance hangs on when it looked: one of the two is accepted in front of the
other's records as behind them, and a child that prepares in front and evaluates behind comes to
what it comes to behind, or to what it comes to in front while the other child does not care. -/
structure Commuting (config : WtConfig) (ledger : Ledger) (requests : Child → AdmissionRequest) :
    Prop where
  one : ∃ c, (requests c).Admits config ledger ledger ↔
    (requests c).Admits config (behindOther config ledger requests c)
      (behindOther config ledger requests c)
  mixed : ∀ c,
    ((requests c).Admits config ledger (behindOther config ledger requests c) ↔
      (requests c).Admits config (behindOther config ledger requests c)
        (behindOther config ledger requests c)) ∨
    ((requests c).Admits config ledger (behindOther config ledger requests c) ↔
      (requests c).Admits config ledger ledger) ∧
    ((requests c.other).Admits config ledger ledger ↔
      (requests c.other).Admits config (behindOther config ledger requests c.other)
        (behindOther config ledger requests c.other))

section serial

variable {config : WtConfig} {ledger : Ledger} {requests : Child → AdmissionRequest}

theorem acceptedInOrder_leader (c : Child) :
    AcceptedInOrder config ledger requests c c ↔ (requests c).Admits config ledger ledger := by
  rw [AcceptedInOrder, if_pos rfl, served_eq, accepted_iff_admits]

theorem acceptedInOrder_other (c : Child) :
    AcceptedInOrder config ledger requests c.other c ↔
      (requests c).Admits config (behindOther config ledger requests c)
        (behindOther config ledger requests c) := by
  rw [AcceptedInOrder, if_neg c.ne_other, served_eq, accepted_iff_admits]

/-- What an order of steps leads to, as far as `Serializable` looks at it. -/
def SerialOutcome (config : WtConfig) (ledger : Ledger) (requests : Child → AdmissionRequest)
    (s : ForkedState) : Prop :=
  ∃ leader, ∀ c, s.Accepts c ↔ AcceptedInOrder config ledger requests leader c

/-- An outcome in which `c.other` saw the ledger before both is serial where `c` is accepted as it
is behind the other, or as it is in front and the other one behind `c`. -/
theorem serialOutcome_iff {s : ForkedState} (c : Child)
    (h : s.Accepts c.other ↔ (requests c.other).Admits config ledger ledger) :
    SerialOutcome config ledger requests s ↔
      (s.Accepts c ↔ (requests c).Admits config (behindOther config ledger requests c)
        (behindOther config ledger requests c)) ∨
      (s.Accepts c ↔ (requests c).Admits config ledger ledger) ∧
      ((requests c.other).Admits config ledger ledger ↔
        (requests c.other).Admits config (behindOther config ledger requests c.other)
          (behindOther config ledger requests c.other)) := by
  have hleads := @acceptedInOrder_leader config ledger requests c
  have hfollows := @acceptedInOrder_other config ledger requests c
  have hleads' := @acceptedInOrder_leader config ledger requests c.other
  have hfollows' := @acceptedInOrder_other config ledger requests c.other
  rw [Child.other_other] at hfollows'
  constructor
  · rintro ⟨leader, hleader⟩
    rcases c.eq_or_other leader with rfl | rfl
    · exact .inr ⟨(hleader leader).trans hleads,
        h.symm.trans ((hleader leader.other).trans hfollows')⟩
    · exact .inl ((hleader c).trans hfollows)
  · rintro (hbehind | ⟨hfront, hother⟩)
    · refine ⟨c.other, fun d => ?_⟩
      rcases c.eq_or_other d with rfl | rfl
      · exact hbehind.trans hfollows.symm
      · exact h.trans hleads'.symm
    · refine ⟨c, fun d => ?_⟩
      rcases c.eq_or_other d with rfl | rfl
      · exact hfront.trans hleads.symm
      · exact h.trans (hother.trans hfollows'.symm)

end serial

def oneTaskPerAgent : WtConfig := { maxActiveTasksPerAgent := 1 }

/-- Two tasks for claude at once. -/
def twoTasks : Child → AdmissionRequest
  | .first => subtask "a"
  | .second => subtask "b"

/-- Either task is admitted where the agent has none, and neither behind the other. -/
theorem twoTasks_served : ∀ c ∈ [Child.first, Child.second],
    ((twoTasks c).served oneTaskPerAgent []).2.accepted ∧
      ¬ ((twoTasks c).served oneTaskPerAgent
        (behindOther oneTaskPerAgent [] twoTasks c)).2.accepted := by
  decide +kernel

end WovenTeam

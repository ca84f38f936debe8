import WovenTeam.Roomd.Endpoints
import WovenTeam.Lib.Runs
import WovenTeam.Roomd.AdmittedRow
import WovenTeam.Roomd.ShipGate
import WovenTeam.Roomd.Reclaim
import WovenTeam.Attempts

/-!
# Requests

Every request that can change the ledger, as the call of its handler. `serve_adds`: a request puts
lines at the end of the ledger, and each of them is a printed record of work, a record of its own
endpoint, or a line of the client's JSON. What holds over whole runs is read off this one list.
-/

namespace WovenTeam

open CText QuotedText LineReader Runs

/-! ## The requests -/

/-- A request behind its authorisation, with what its handler gets from outside. -/
inductive ApiRequest where
  | taskPackage (config : WtConfig) (request : Bytes) (clock : Clock)
  | taskRequest (config : WtConfig) (request : Bytes) (clock : Clock)
  | taskEvent (request : Bytes) (clock : Nat → Long)
  | taskGate (request : Bytes) (now : Long)
  | taskUsage (request : Bytes) (now : Long)
  | agentControl (request : Bytes) (now : Long)
  | taskReclaim (request : Bytes) (now : Long)
  | taskArtifact (request : Bytes) (now : Long)
  | taskCancel (request : Bytes) (now : Long)
  | autonomyRevoke (request : Bytes) (now killed : Long)
  | taskDeliverable (world : World) (config : WtConfig) (request : Bytes)
  | taskPriority (request : Bytes) (now : Long)
  | taskReroute (request : Bytes) (now : Long)
  | taskNote (request : Bytes) (now : Long)
  | authToken (config : WtConfig) (request : Bytes) (source : TokenSource) (made issuedAt : Long)
  | authTokenRevoke (request : Bytes) (now : Long)
  | hostCapabilities (request : Bytes) (auth : WtAuthContext) (now : Long)
  | remoteClaim (config : WtConfig) (request : Bytes) (auth : WtAuthContext) (times : ClaimTimes)
  | remoteTaskEvent (request : Bytes) (auth : WtAuthContext) (now : Long)
  | other

/-- The appends of a shipment that succeed. -/
def Shipment.record (shipment : Shipment) (ledger : Ledger) : Ledger :=
  shipment.appends.foldl (fun ledger append =>
    if append.2 then wtTaskAppendRecord ledger append.1 else ledger) ledger

/-- The ledger behind the request; nothing where the handler prints a buffer that was never
filled. -/
def ApiRequest.serve (ledger : Ledger) : ApiRequest → Option Ledger
  | taskPackage config request clock =>
    some (handlePostTaskPackage config ledger request clock).1
  | taskRequest config request clock =>
    some (handlePostTaskRequest config ledger request clock).1
  | taskEvent request clock => some (handlePostTaskEvent ledger request clock).1
  | taskGate request now => some (handlePostTaskGate ledger request now).1
  | taskUsage request now => some (handlePostTaskUsage ledger request now).1
  | agentControl request now => some (handlePostAgentControl ledger request now).1
  | taskReclaim request now => some (handlePostTaskReclaim ledger request now).1
  | taskArtifact request now => some (handlePostTaskArtifact ledger request now).1
  | taskCancel request now => some (handlePostTaskCancel ledger request now).1
  | autonomyRevoke request now killed =>
    some (handlePostAutonomyRevoke ledger request now killed).1
  | taskDeliverable world config request =>
    match (handlePostTaskDeliverable world config ledger request).1 with
    | some (_, shipment) => some (shipment.record ledger)
    | none => some ledger
  | taskPriority request now => (handlePostTaskPriority ledger request now).map (·.1)
  | taskReroute request now => (handlePostTaskReroute ledger request now).map (·.1)
  | taskNote request now => (handlePostTaskNote ledger request now).map (·.1)
  | authToken config request source made issuedAt =>
    some (handlePostAuthToken config ledger request source made issuedAt).1
  | authTokenRevoke request now => (handlePostAuthTokenRevoke ledger request now).map (·.1)
  | hostCapabilities request auth now =>
    some (handlePostHostCapabilities ledger request auth now).1
  | remoteClaim config request auth times =>
    some (handlePostRemoteClaim config ledger request auth times).1
  | remoteTaskEvent request auth now =>
    some (handlePostRemoteTaskEvent ledger request auth now).1
  | other => some ledger

/-! ## The lines of a request -/

/-- The body of a client's record, where it passes the checks of its endpoint. -/
def ApiRequest.clientBody (ledger : Ledger) : ApiRequest → Option Bytes
  | taskPackage config request clock => do
    let body ← requestBody request
    let p ← readTaskPackage body
    if (wtPolicyEvaluateTaskPackage config (p.policyInput config ledger body clock)).allowed then
      some body
    else none
  | taskEvent request _ => do
    let body ← requestBody request
    if (readTaskEventPost body).isSome then some body else none
  | _ => none

/-- The lines of the client's JSON that the request puts into the ledger. -/
def ApiRequest.clientLines (ledger : Ledger) (r : ApiRequest) : Ledger :=
  ((r.clientBody ledger).map recordedLines).getD []

/-- A line the request may put into the ledger. -/
inductive ApiRequest.Line (ledger : Ledger) : ApiRequest → Bytes → Prop
  | work {r : ApiRequest} {record : Members} (h : PathlessRecord record) :
      Line ledger r (recordLine record)
  | client {r : ApiRequest} {line : Bytes} (h : line ∈ r.clientLines ledger) : Line ledger r line
  | review {request body : Bytes} {now : Long} {review : ArtifactReview}
      (hbody : requestBody request = some body) (hread : readArtifactReview body = .ok review) :
      Line ledger (.taskArtifact request now) (recordLine (StoreEvent.artifact review.taskId
        review.state review.reviewer review.notes review.artifactPath now).record)
  | issue {config : WtConfig} {request : Bytes} {source : TokenSource} {made issuedAt : Long}
      {issue : Issue} {record : Members}
      (hread : readIssue config (bearerBody request) (makeToken made source) = some issue)
      (hrecord : issue.record issuedAt = some record) :
      Line ledger (.authToken config request source made issuedAt) (recordLine record)
  | revoke {request tokenId : Bytes} {now : Long} {escapedTokenId : Literal}
      (hread : wtJsonReadString (bearerBody request) "tokenId" 64 = .ok tokenId)
      (hescape : wtJsonEscape tokenId 128 = some escapedTokenId) :
      Line ledger (.authTokenRevoke request now) (recordLine (revokeRecord escapedTokenId now))
  | host {request : Bytes} {auth : WtAuthContext} {now : Long} (a b c d : Literal) :
      Line ledger (.hostCapabilities request auth now)
        (recordLine (hostCapabilityRecord a b c d now))
  | scan {world : World} {config : WtConfig} {request : Bytes} {mode : WtDeliverableMode}
      (taskId deliv scanId source : Literal) (scan : Scan) (now : Int)
      (hfits : (secretScanText mode taskId deliv scanId source scan now).length < 4096) :
      Line ledger (.taskDeliverable world config request)
        (secretScanText mode taskId deliv scanId source scan now ++ [newline])

/-- The request puts lines of these kinds at the end of the ledger. -/
def ApiRequest.Extends (r : ApiRequest) (ledger after : Ledger) : Prop :=
  ∃ lines, (∀ line ∈ lines, r.Line ledger line) ∧ after = ledger ++ lines

section extend

variable {r : ApiRequest} {ledger after : Ledger} {P : Members → Prop}

theorem ApiRequest.Extends.of_adds (h : Adds P ledger after)
    (hline : ∀ record, P record → r.Line ledger (recordLine record)) : r.Extends ledger after := by
  obtain ⟨records, hrecords, rfl⟩ := h
  refine ⟨_, fun line hmem => ?_, rfl⟩
  obtain ⟨record, hrecord, rfl⟩ := List.mem_map.mp hmem
  exact hline record (hrecords record hrecord)

theorem ApiRequest.Extends.of_work (h : Adds PathlessRecord ledger after) :
    r.Extends ledger after :=
  .of_adds h fun _ => .work

end extend

/-! ## What the handlers add -/

section handlers

variable {config : WtConfig} {ledger : Ledger} {request : Bytes}

theorem handlePostAgentControl_adds (now : Long) :
    Adds PathlessRecord ledger (handlePostAgentControl ledger request now).1 := by
  unfold handlePostAgentControl
  split
  · exact .refl
  · split
    · exact .refl
    · split
      · exact .refl
      · rename_i hrecord
        simp only [controlRecord, Option.bind_eq_bind, Option.bind_eq_some_iff, Option.pure_def,
          Option.some.injEq] at hrecord
        obtain ⟨a, ha, b, hb, c, hc, d, hd, rfl⟩ := hrecord
        exact .printed (.of_members "woventeam.agent_control.v0.1" rfl rfl rfl)
          (agentControlRecord_fits (wtJsonEscape_eq ha).2 (wtJsonEscape_eq hb).2
            (wtJsonEscape_eq hc).2 (wtJsonEscape_eq hd).2 now.2) (le_refl _)

theorem handlePostTaskReclaim_adds (now : Long) :
    Adds PathlessRecord ledger (handlePostTaskReclaim ledger request now).1 := by
  unfold handlePostTaskReclaim
  split
  · exact .refl
  · split
    · dsimp only
      split
      · exact .refl
      · split
        · exact .refl
        · rename_i happend
          exact .event (.reclaim _ _ _ _ _ now) happend (StoreEvent.pathless _ (by simp))
    · exact .refl

theorem handlePostRemoteTaskEvent_adds (auth : WtAuthContext) (now : Long) :
    Adds PathlessRecord ledger (handlePostRemoteTaskEvent ledger request auth now).1 := by
  unfold handlePostRemoteTaskEvent
  split
  · exact .refl
  · split
    · exact .refl
    · rename_i happend
      exact .event (.status _ _ _ _ [] now) happend (StoreEvent.pathless _ (by simp))

theorem Claim.run_adds (claim : Claim) (duration : Int) (times : ClaimTimes) :
    Adds PathlessRecord ledger (claim.run duration ledger times).1 := by
  unfold Claim.run
  dsimp only
  split
  · exact .refl
  · rename_i task _
    split
    · exact .refl
    · split
      · exact .refl
      · unfold Claim.leaseTask
        dsimp only
        split
        · exact .refl
        · rename_i released hrelease
          have hreleased : Adds PathlessRecord ledger released := by
            unfold Claim.release at hrelease
            split at hrelease
            · exact .event (.reclaim _ _ _ _ _ ⟨times.reclaim, times.range.2.1⟩) hrelease
                (StoreEvent.pathless _ (by simp))
            · cases hrelease
              exact .refl
          split
          · exact hreleased
          · rename_i hlease
            exact hreleased.trans (.event (.lease _ _ ⟨_, int64_toInt32 _⟩
              ⟨_, int64_wrap64 _⟩ ⟨times.lease, times.range.2.2⟩) hlease
              (StoreEvent.pathless _ (by simp)))

theorem handlePostRemoteClaim_adds (auth : WtAuthContext) (times : ClaimTimes) :
    Adds PathlessRecord ledger (handlePostRemoteClaim config ledger request auth times).1 := by
  unfold handlePostRemoteClaim
  split
  · exact .refl
  · split
    · exact .refl
    · exact Claim.run_adds _ _ times

theorem rerouteRecord_fits {a b c d : Literal} {now : Int} (ha : a.text.length < wtTaskIdSize * 2)
    (hb : b.text.length < wtTaskAgentSize * 2) (hc : c.text.length < wtTaskAgentSize * 2)
    (hd : d.text.length < wtTaskAgentSize * 2) (h : Int64 now) :
    (rerouteRecord a b c d now).object.length + 2 ≤ 1280 := by
  have := length_decimal h
  simp only [wtTaskIdSize, wtTaskAgentSize] at *
  unfold rerouteRecord str num Literal.ofPlain
  simp [Members.length_object, render, Item.render]
  omega

theorem handlePostTaskReroute_adds {now : Long} {result : Ledger × HttpReply}
    (h : handlePostTaskReroute ledger request now = some result) :
    Adds PathlessRecord ledger result.1 := by
  unfold handlePostTaskReroute at h
  split at h
  · cases h
    exact .refl
  · simp only [Option.bind_eq_bind, Option.bind_eq_some_iff, Option.pure_def,
      Option.some.injEq] at h
    obtain ⟨a, ha, b, hb, c, hc, d, hd, rfl⟩ := h
    exact .printed (.of_members "woventeam.task_event.v0.1" rfl rfl rfl)
      (rerouteRecord_fits (wtJsonEscape_eq ha).2 (wtJsonEscape_eq hb).2 (wtJsonEscape_eq hc).2
        (wtJsonEscape_eq hd).2 now.2) (by decide)

/-- The events of blocked dependents. -/
theorem appendBlocked_adds {rows : List StatusRow} {blockedTaskId createdBy : Bytes}
    {clock : Nat → Long} (dependents : List Bytes) (appended : Nat) :
    Adds PathlessRecord ledger
      (appendBlocked rows blockedTaskId createdBy clock dependents appended ledger).1 := by
  induction dependents generalizing appended ledger with
  | nil => exact .refl
  | cons dependent dependents ih =>
    unfold appendBlocked
    split
    · exact ih appended
    · split
      · exact ih appended
      · split
        · exact .refl
        · rename_i happend
          exact (Adds.event (.status _ _ _ _ [] (clock appended)) happend
            (StoreEvent.pathless _ (by simp))).trans (ih (appended + 1))

theorem TaskEventPost.propagate_adds (e : TaskEventPost) (ledger : Ledger) (clock : Nat → Long) :
    Adds PathlessRecord ledger (e.propagate ledger clock).1 := by
  unfold TaskEventPost.propagate
  split
  · exact appendBlocked_adds _ _
  · exact .refl

theorem recordPolicyDenial_adds (taskId initiativeId : Bytes) (decision : WtPolicyDecision)
    (createdBy : Bytes) {now : Int} (h : Int64 now) :
    Adds PathlessRecord ledger
      (recordPolicyDenial ledger taskId initiativeId decision createdBy now) := by
  unfold recordPolicyDenial
  split
  · rename_i hrecord
    simp only [denialRecord, Option.bind_eq_bind, Option.bind_eq_some_iff, Option.pure_def,
      Option.some.injEq] at hrecord
    obtain ⟨a, ha, b, hb, c, hc, d, hd, e, he, rfl⟩ := hrecord
    exact .printed (.of_members "woventeam.policy_decision.v0.1" rfl rfl rfl)
      (policyDecisionRecord_fits (wtJsonEscape_eq ha).2 (wtJsonEscape_eq hb).2
        (wtJsonEscape_eq hc).2 (wtJsonEscape_eq hd).2 (wtJsonEscape_eq he).2 h) (le_refl _)
  · exact .refl

theorem TaskProposal.denied_adds {p : TaskProposal} {body : Bytes} {clock : Clock}
    {deniedBy hostDeniedBy : Bytes} {denial : Ledger × HttpReply}
    (h : p.denied config ledger body clock deniedBy hostDeniedBy = some denial) :
    Adds PathlessRecord ledger denial.1 := by
  unfold TaskProposal.denied at h
  dsimp only at h
  split at h
  · obtain rfl := Option.some.inj h
    exact recordPolicyDenial_adds _ _ _ _ clock.int64_record
  · split at h
    · obtain rfl := Option.some.inj h
      exact recordPolicyDenial_adds _ _ _ _ clock.int64_record
    · cases h

/-- The routing event of a package. -/
theorem RoutingEvents.adds (ledger : Ledger) {p : TaskProposal} {now : Int} {events : Ledger}
    (h : RoutingEvents p config now events) : Adds PathlessRecord ledger (ledger ++ events) := by
  unfold RoutingEvents at h
  split at h
  · rw [h, List.append_nil]
    exact .refl
  · obtain ⟨a, b, c, d, -, -, rfl⟩ := h
    exact .single (.of_members "woventeam.task_event.v0.1" rfl rfl rfl)

/-- The two records of a request. -/
theorem taskRequestRecord_pathless (e : EscapedRequest) (now : Int) :
    PathlessRecord (taskRequestRecord e now) := by
  unfold taskRequestRecord
  repeat' with_reducible apply PathlessRecord.append
  all_goals first
    | exact lacks_str (by decide)
    | exact lacks_num (by decide)
    | exact lacks_raw (by decide)
    | exact .start_plain

theorem taskPackageRecord_pathless (e : EscapedRequest) (toolProfile : Bytes)
    (maxTokens now : Int) : PathlessRecord (taskPackageRecord e toolProfile maxTokens now) := by
  unfold taskPackageRecord
  repeat' with_reducible apply PathlessRecord.append
  all_goals first
    | exact lacks_str (by decide)
    | exact lacks_num (by decide)
    | exact lacks_raw (by decide)
    | exact lacks_elem
    | exact .start_plain

theorem TaskRequest.record_adds {r : TaskRequest} {body : Bytes}
    (hr : readTaskRequest body = some r)
    {now : Int} (hnow : Int64 now) : Adds PathlessRecord ledger (r.record config ledger now).1 := by
  unfold TaskRequest.record
  split
  · exact .refl
  · rename_i e he
    have hrequest : Adds PathlessRecord ledger _ := .printed (taskRequestRecord_pathless e now)
      (taskRequestRecord_fits (escape_eq he) hnow) (le_refl _)
    exact hrequest.trans (.printed (taskPackageRecord_pathless e _ _ now)
      (taskPackageRecord_fits (escape_eq he) _ hnow (readTaskRequest_maxTokens hr).2) (le_refl _))

theorem handlePostTaskRequest_adds (clock : Clock) :
    Adds PathlessRecord ledger (handlePostTaskRequest config ledger request clock).1 := by
  unfold handlePostTaskRequest
  split
  · exact .refl
  · split
    · exact .refl
    · rename_i hr
      split
      · exact .refl
      · split
        · rename_i hdenied
          exact TaskProposal.denied_adds hdenied
        · split
          · exact .refl
          · exact TaskRequest.record_adds hr clock.int64_record

/-- A refused package leaves a denial at most. -/
theorem handlePostTaskPackage_refused {clock : Clock}
    (h : ¬ (handlePostTaskPackage config ledger request clock).2.accepted) :
    Adds PathlessRecord ledger (handlePostTaskPackage config ledger request clock).1 := by
  generalize hresult : handlePostTaskPackage config ledger request clock = result at h ⊢
  unfold handlePostTaskPackage at hresult
  split at hresult
  · exact hresult ▸ .refl
  · split at hresult
    · exact hresult ▸ .refl
    · dsimp only at hresult
      split at hresult
      · rename_i hdenied
        exact hresult ▸ TaskProposal.denied_adds hdenied
      · rw [← hresult] at h ⊢
        rw [recordPackage_refused h]
        exact .refl

theorem handlePostTaskArtifact_adds (now : Long) :
    (ApiRequest.taskArtifact request now).Extends ledger
      (handlePostTaskArtifact ledger request now).1 := by
  unfold handlePostTaskArtifact
  split
  · exact .of_work .refl
  · rename_i hbody
    split
    · exact .of_work .refl
    · rename_i review hread
      split
      · exact .of_work .refl
      · rename_i happend
        exact ⟨_, fun line hline => by
          rw [List.mem_singleton.mp hline]
          exact .review hbody hread, StoreEvent.append_record happend⟩

end handlers

section shipment

variable {world : World} {config : WtConfig} {ledger : Ledger} {request : Bytes}

theorem provenance_lacks {elevated : Bool} {level : Literal} {k : Bytes}
    (hk : ∀ name ∈ ["autonomyProvenance", "elevated", "autonomyLevel"], bytes name ≠ k) :
    (provenance elevated level).Lacks k := by
  unfold provenance
  refine .append (.append (lacks_raw (hk _ (by decide))) ?_) (lacks_str (hk _ (by decide)))
  split
  · exact lacks_raw (hk _ (by decide))
  · exact lacks_raw (hk _ (by decide))

theorem supersedes_lacks {supersedes : Literal} {k : Bytes} (hk : bytes "supersedes" ≠ k) :
    (if supersedes.text = [] then raw "supersedes" "null," else str "supersedes" supersedes).Lacks
      k := by
  split
  · exact lacks_raw hk
  · exact lacks_str hk

theorem level_lacks {elevated : Bool} {level : Literal} {k : Bytes}
    (hk : ∀ name ∈ ["autonomyProvenance", "elevated", "autonomyLevel"], bytes name ≠ k) :
    (if level.text = [] then ⟨[], by simp⟩ else provenance elevated level : Members).Lacks k := by
  split
  · rfl
  · exact provenance_lacks hk

theorem deliverableMembers_pathless (mode : WtDeliverableMode) (elevated : Bool)
    (a b c d e f g h i : Literal) (sha256 : Sha256) (sizeBytes now : Int) :
    PathlessRecord
      (deliverableMembers mode elevated a b c d e f g h i sha256 sizeBytes now) := by
  unfold deliverableMembers
  repeat' with_reducible apply PathlessRecord.append
  all_goals first
    | exact lacks_str (by decide)
    | exact lacks_num (by decide)
    | exact supersedes_lacks (by decide)
    | exact level_lacks (by decide)
    | exact .start_plain

theorem newline_notMem_escapedOr (text : Bytes) (size : Nat) : newline ∉ escapedOr text size := by
  unfold escapedOr
  split
  · rename_i escaped _
    exact escaped.escaped.newline_notMem
  · simp

/-- The entry of a pattern. -/
def hitPiece (first : Bool) (pattern : Bytes × Nat) : Bytes :=
  (if first then [] else [comma]) ++ bytes "\x7b\"pattern\":\"" ++ escapedOr pattern.1 128 ++
    bytes "\",\"count\":" ++ decimalNat pattern.2 ++ bytes "\x7d"

/-- The array of hits is built of its brackets and of entries, each cut or whole. -/
theorem patternHits_induction {P : Bytes → Prop} (hopen : P (bytes "["))
    (hpiece : ∀ hits first pattern room, P hits →
      P (hits ++ snprintf room (hitPiece first pattern)))
    (hclose : ∀ hits room, P hits → P (hits ++ snprintf room (bytes "]")))
    (patterns : List (Bytes × Nat)) : P (patternHitsText patterns) := by
  have hfold : ∀ (step : Bytes × Nat → Bytes × Nat → Bytes × Nat),
      (∀ hits pos pattern, P hits → P (step (hits, pos) pattern).1) →
        ∀ (patterns : List (Bytes × Nat)) (start : Bytes × Nat), P start.1 →
          P (patterns.foldl step start).1 := by
    intro step hstep patterns
    induction patterns with
    | nil => exact fun _ h => h
    | cons pattern patterns ih => exact fun start h => ih _ (hstep start.1 start.2 pattern h)
  have hhits := fun step hstep => hfold step hstep patterns (bytes "[", 1) hopen
  unfold patternHitsText
  dsimp only
  split
  · refine hclose _ _ (hhits _ fun hits pos pattern h => ?_)
    dsimp only
    split
    · have hone := hpiece hits (decide (pos = 1)) pattern (1024 - pos) h
      simpa [hitPiece] using hone
    · exact h
  · refine hhits _ fun hits pos pattern h => ?_
    dsimp only
    split
    · have hone := hpiece hits (decide (pos = 1)) pattern (1024 - pos) h
      simpa [hitPiece] using hone
    · exact h

theorem newline_notMem_hitPiece (first : Bool) (pattern : Bytes × Nat) :
    newline ∉ hitPiece first pattern := by
  have hcount : newline ∉ decimalNat pattern.2 := fun h => (unquoted_decimal pattern.2).2 h
  have hname := newline_notMem_escapedOr pattern.1 128
  unfold hitPiece
  simp only [List.mem_append, not_or]
  refine ⟨⟨⟨⟨⟨?_, by decide⟩, hname⟩, by decide⟩, hcount⟩, by decide⟩
  split
  · simp
  · decide

/-- The hits of a scan stand on one line. -/
theorem newline_notMem_patternHits (patterns : List (Bytes × Nat)) :
    newline ∉ patternHitsText patterns := by
  refine patternHits_induction (P := fun hits => newline ∉ hits) (by decide)
    (fun hits first pattern room h => ?_) (fun hits room h => ?_) patterns
  · rw [List.mem_append, not_or]
    exact ⟨h, fun hmem => newline_notMem_hitPiece first pattern (List.mem_of_mem_take hmem)⟩
  · rw [List.mem_append, not_or]
    exact ⟨h, fun hmem => absurd (List.mem_of_mem_take hmem) (by decide)⟩

theorem newline_notMem_secretScanText (mode : WtDeliverableMode)
    (taskId deliv scanId source : Literal) (scan : Scan) (now : Int) :
    newline ∉ secretScanText mode taskId deliv scanId source scan now := by
  have htask := taskId.escaped.newline_notMem
  have hdeliv := deliv.escaped.newline_notMem
  have hscan := scanId.escaped.newline_notMem
  have hsource := source.escaped.newline_notMem
  have hmode := (wtDeliverableModeToString mode).escaped.newline_notMem
  have hcount : newline ∉ decimalNat scan.hitCount := fun h => (unquoted_decimal scan.hitCount).2 h
  have hnow := (unquoted_decimal now).2
  have hhits := newline_notMem_patternHits scan.patterns
  unfold secretScanText secretScanHead
  simp only [List.mem_append, not_or]
  repeat' apply And.intro
  all_goals first
    | assumption
    | decide
    | skip
  split <;> decide

/-- What a shipment gives to the ledger. -/
theorem ship_appends {ship : WtDeliverableRequest} {record : Bytes} {ok : Bool}
    (h : (record, ok) ∈ (wtDeliverableShip world config ship).appends) :
    (∃ members, PathlessRecord members ∧ members.object.length < 4096 ∧ record = members.object) ∨
      ∃ mode taskId deliv scanId source scan now,
        record = secretScanText mode taskId deliv scanId source scan now ∧
          record.length < 4096 := by
  have hevent : ∀ scan, (record, ok) ∈ appendSecretScanEvent world ship scan →
      ∃ mode taskId deliv scanId source scan now,
        record = secretScanText mode taskId deliv scanId source scan now ∧
          record.length < 4096 := by
    intro scan hmem
    unfold appendSecretScanEvent at hmem
    split at hmem
    · obtain ⟨text, htext, heq⟩ := List.mem_map.mp hmem
      rw [Option.mem_toList] at htext
      cases heq
      simp only [secretScanRecord, Option.bind_eq_bind, Option.bind_eq_some_iff,
        Option.pure_def] at htext
      obtain ⟨taskId, -, deliv, -, scanId, -, source, -, hrecord⟩ := htext
      split at hrecord
      · rename_i hfits
        cases hrecord
        exact ⟨_, _, _, _, _, _, _, rfl, hfits⟩
      · cases hrecord
    · cases hmem
  have hdeliverable : ∀ {sha256 : Sha256} {sizeBytes : Int} {path : Bytes} {members : Members},
      deliverableRecord ship world.deliverableId path sha256 sizeBytes world.recordedAt =
        some members → PathlessRecord members ∧ members.object.length < 4096 := by
    intro sha256 sizeBytes path members hrecord
    simp only [deliverableRecord, Option.bind_eq_bind, Option.bind_eq_some_iff,
      Option.pure_def] at hrecord
    obtain ⟨_, -, _, -, _, -, _, -, _, -, _, -, _, -, _, -, _, -, hrecord⟩ := hrecord
    split at hrecord
    · rename_i hfits
      cases hrecord
      exact ⟨deliverableMembers_pathless .., hfits⟩
    · cases hrecord
  unfold wtDeliverableShip at h
  split at h
  · cases h
  · split at h
    · cases h
    · dsimp only at h
      split at h
      · cases h
      · split at h
        · cases h
        · split at h
          · exact .inr (hevent _ h)
          · split at h
            · exact .inr (hevent _ h)
            · split at h
              · cases h
              · rename_i members hrecord
                obtain ⟨hpathless, hfits⟩ := hdeliverable hrecord
                split at h
                · rcases List.mem_cons.mp h with heq | h
                  · cases heq
                    exact .inl ⟨members, hpathless, hfits, rfl⟩
                  · exact .inr (hevent _ h)
                · rw [List.mem_singleton.mp h |> Prod.mk.inj |>.1]
                  exact .inl ⟨members, hpathless, hfits, rfl⟩

theorem wtTaskAppendRecord_scan (ledger : Ledger) {mode : WtDeliverableMode}
    {taskId deliv scanId source : Literal} {scan : Scan} {now : Int}
    (h : (secretScanText mode taskId deliv scanId source scan now).length < 4096) :
    wtTaskAppendRecord ledger (secretScanText mode taskId deliv scanId source scan now) =
      ledger ++ [secretScanText mode taskId deliv scanId source scan now ++ [newline]] := by
  have hline : newline ∉ secretScanText mode taskId deliv scanId source scan now :=
    newline_notMem_secretScanText _ _ _ _ _ _ _
  rw [wtTaskAppendRecord, fgetsLines_record hline (by simp only [wtTaskLedgerLineSize]; omega)]
  rfl

/-- One append of a shipment. -/
theorem wtTaskAppendRecord_ship (request : Bytes) (ledger : Ledger)
    {ship : WtDeliverableRequest} {record : Bytes} {ok : Bool}
    (h : (record, ok) ∈ (wtDeliverableShip world config ship).appends) (base : Ledger) :
    ∃ line, (ApiRequest.taskDeliverable world config request).Line ledger line ∧
      wtTaskAppendRecord base record = base ++ [line] := by
  rcases ship_appends h with ⟨members, hpathless, hfits, rfl⟩ | ⟨_, _, _, _, _, _, _, rfl, hfits⟩
  · exact ⟨_, .work hpathless, wtTaskAppendRecord_object base
      (by simp only [wtTaskLedgerLineSize]; omega)⟩
  · exact ⟨_, .scan _ _ _ _ _ _ hfits, wtTaskAppendRecord_scan base hfits⟩

theorem Shipment.record_extends {ship : WtDeliverableRequest} :
    (ApiRequest.taskDeliverable world config request).Extends ledger
      ((wtDeliverableShip world config ship).record ledger) := by
  have hfold : ∀ appends : List (Bytes × Bool),
      (∀ append ∈ appends, append ∈ (wtDeliverableShip world config ship).appends) →
      ∀ lines : Ledger,
        (∀ line ∈ lines, (ApiRequest.taskDeliverable world config request).Line ledger line) →
        (ApiRequest.taskDeliverable world config request).Extends ledger
          (appends.foldl (fun ledger append =>
            if append.2 then wtTaskAppendRecord ledger append.1 else ledger)
            (ledger ++ lines)) := by
    intro appends
    induction appends with
    | nil => exact fun _ lines hlines => ⟨lines, hlines, rfl⟩
    | cons append appends ih =>
      intro hmem lines hlines
      rw [List.foldl_cons]
      have hrest := fun append h => hmem append (List.mem_cons_of_mem _ h)
      split
      · obtain ⟨line, hline, heq⟩ := wtTaskAppendRecord_ship request ledger
          (hmem append (List.mem_cons_self ..)) (ledger ++ lines)
        rw [heq, List.append_assoc]
        refine ih hrest _ fun l hl => ?_
        rcases List.mem_append.mp hl with hl | hl
        · exact hlines l hl
        · exact List.mem_singleton.mp hl ▸ hline
      · exact ih hrest lines hlines
  have hall := hfold _ (fun _ h => h) [] (by simp)
  rwa [List.append_nil] at hall

end shipment

/-! ## All requests -/

section serve

variable {config : WtConfig} {ledger after : Ledger} {request : Bytes}

/-- An accepted package puts the client's lines and its routing event. -/
theorem handlePostTaskPackage_extends (clock : Clock) :
    (ApiRequest.taskPackage config request clock).Extends ledger
      (handlePostTaskPackage config ledger request clock).1 := by
  by_cases h : (handlePostTaskPackage config ledger request clock).2.accepted
  · obtain ⟨body, p, events, hbody, hp, hallowed, hevents, hafter⟩ := taskPackage_accepted h
    obtain ⟨records, hrecords, heq⟩ := RoutingEvents.adds ledger hevents
    refine ⟨_, fun line hline => ?_, hafter⟩
    rcases List.mem_append.mp hline with hline | hline
    · refine .client ?_
      have hclient :
          (ApiRequest.taskPackage config request clock).clientBody ledger = some body := by
        simp [ApiRequest.clientBody, hbody, hp, hallowed]
      rw [ApiRequest.clientLines, hclient]
      exact hline
    · rw [List.append_cancel_left heq] at hline
      obtain ⟨record, hrecord, rfl⟩ := List.mem_map.mp hline
      exact .work (hrecords record hrecord)
  · exact .of_work (handlePostTaskPackage_refused h)

theorem handlePostTaskEvent_extends (clock : Nat → Long) :
    (ApiRequest.taskEvent request clock).Extends ledger
      (handlePostTaskEvent ledger request clock).1 := by
  unfold handlePostTaskEvent
  split
  · exact .of_work .refl
  · rename_i body hbody
    split
    · exact .of_work .refl
    · rename_i e he
      have hclient : ∀ line ∈ recordedLines body,
          (ApiRequest.taskEvent request clock).Line ledger line := by
        intro line hline
        refine .client ?_
        have hclient : (ApiRequest.taskEvent request clock).clientBody ledger = some body := by
          simp [ApiRequest.clientBody, hbody, he]
        rw [ApiRequest.clientLines, hclient]
        exact hline
      rw [wtTaskAppendRecord_compact]
      obtain ⟨records, hrecords, hafter⟩ :=
        e.propagate_adds (ledger ++ recordedLines body) clock
      have hextends : (ApiRequest.taskEvent request clock).Extends ledger
          (e.propagate (ledger ++ recordedLines body) clock).1 := by
        refine ⟨_, fun line hline => ?_, by rw [hafter, List.append_assoc]⟩
        rcases List.mem_append.mp hline with hline | hline
        · exact hclient line hline
        · obtain ⟨record, hrecord, rfl⟩ := List.mem_map.mp hline
          exact .work (hrecords record hrecord)
      split
      all_goals
        rename_i heq
        rw [heq] at hextends
        exact hextends

/-- A request puts lines at the end of the ledger, each of a kind that is known. -/
theorem ApiRequest.serve_extends {r : ApiRequest} (h : r.serve ledger = some after) :
    r.Extends ledger after := by
  cases r with
  | taskPackage => exact Option.some.inj h ▸ handlePostTaskPackage_extends _
  | taskRequest => exact Option.some.inj h ▸ .of_work (handlePostTaskRequest_adds _)
  | taskEvent => exact Option.some.inj h ▸ handlePostTaskEvent_extends _
  | taskGate => exact Option.some.inj h ▸ .of_work (handlePostTaskGate_adds _)
  | taskUsage => exact Option.some.inj h ▸ .of_work (handlePostTaskUsage_adds _)
  | agentControl => exact Option.some.inj h ▸ .of_work (handlePostAgentControl_adds _)
  | taskReclaim => exact Option.some.inj h ▸ .of_work (handlePostTaskReclaim_adds _)
  | taskArtifact => exact Option.some.inj h ▸ handlePostTaskArtifact_adds _
  | taskCancel => exact Option.some.inj h ▸ .of_work (handlePostTaskCancel_adds _)
  | autonomyRevoke => exact Option.some.inj h ▸ .of_work (handlePostAutonomyRevoke_adds _ _)
  | taskDeliverable world config request =>
    rw [ApiRequest.serve] at h
    split at h
    · rename_i ship shipment hship
      rw [← Option.some.inj h]
      cases hbody : requestBody request with
      | none => simp [handlePostTaskDeliverable, hbody] at hship
      | some body =>
        rw [(handlePostTaskDeliverable_call hbody hship).2.2]
        exact Shipment.record_extends
    · exact Option.some.inj h ▸ .of_work .refl
  | taskPriority =>
    obtain ⟨result, hresult, rfl⟩ := Option.map_eq_some_iff.mp h
    exact .of_work (handlePostTaskPriority_adds hresult)
  | taskReroute =>
    obtain ⟨result, hresult, rfl⟩ := Option.map_eq_some_iff.mp h
    exact .of_work (handlePostTaskReroute_adds hresult)
  | taskNote =>
    obtain ⟨result, hresult, rfl⟩ := Option.map_eq_some_iff.mp h
    exact .of_work (handlePostTaskNote_adds hresult)
  | authToken =>
    refine Option.some.inj h ▸ .of_adds (handlePostAuthToken_adds _ _ _ _) ?_
    rintro _ ⟨issue, hread, hrecord⟩
    exact .issue hread hrecord
  | authTokenRevoke =>
    obtain ⟨result, hresult, rfl⟩ := Option.map_eq_some_iff.mp h
    refine .of_adds (handlePostAuthTokenRevoke_adds hresult) ?_
    rintro _ ⟨tokenId, escapedTokenId, hread, hescape, rfl⟩
    exact .revoke hread hescape
  | hostCapabilities =>
    refine Option.some.inj h ▸ .of_adds (handlePostHostCapabilities_adds _ _) ?_
    rintro _ ⟨a, b, c, d, rfl⟩
    exact .host a b c d
  | remoteClaim => exact Option.some.inj h ▸ .of_work (handlePostRemoteClaim_adds _ _)
  | remoteTaskEvent => exact Option.some.inj h ▸ .of_work (handlePostRemoteTaskEvent_adds _ _)
  | other => exact Option.some.inj h ▸ .of_work .refl

end serve

/-! ## Runs -/

/-- A request in a run. -/
def ApiRequest.step : Option Ledger → ApiRequest → Option Ledger :=
  optStep fun ledger r => r.serve ledger

/-- What the lines of every request keep holds behind every run. -/
theorem ApiRequest.run_invariant (Inv : Ledger → Prop) (cond : Ledger → ApiRequest → Prop)
    (hstep : ∀ ledger r after, Inv ledger → cond ledger r → r.Extends ledger after → Inv after)
    {ledger : Ledger} (hledger : Inv ledger) {requests : List ApiRequest}
    (h : Along ApiRequest.step (fun s r => ∀ ledger ∈ s, cond ledger r) (some ledger) requests)
    {after : Ledger} (hrun : run ApiRequest.step (some ledger) requests = some after) :
    Inv after :=
  optStep_invariant Inv cond (fun ledger r after hinv hcond hserve =>
    hstep ledger r after hinv hcond (serve_extends hserve)) hledger h hrun

end WovenTeam

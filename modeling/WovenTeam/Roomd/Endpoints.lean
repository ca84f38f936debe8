import WovenTeam.Roomd.ServerRecords
import WovenTeam.TokenHash
import WovenTeam.ShellCommands

/-!
# The other endpoints

The handlers that only print a record of what the operator or an agent sent: cancels and
revocations, artifacts, priorities and notes, review gates, usage, tokens and host capabilities.
The messages they repeat in the room go to another file, and so do their notifications.
-/

namespace WovenTeam

open CText QuotedText

/-! ## Cancels and revocations -/

def handlePostTaskCancel (ledger : Ledger) (request : Bytes) (now : Long) : Ledger × HttpReply :=
  match requestBody request with
  | none => (ledger, badRequest "missing body")
  | some body =>
    match wtJsonReadString body "taskId" wtTaskIdSize with
    | .ok taskId =>
      let reason := (wtJsonReadString body "reason" 64).orElse (bytes "operator")
      let createdBy := (wtJsonReadString body "createdBy" wtTaskAgentSize).orElse (bytes "ceo")
      match StoreEvent.append ledger (.kill taskId reason createdBy now) with
      | none => (ledger, appendFailed)
      | some ledger =>
        (ledger, okReply (snprintf 512 (bytes "\x7b\"ok\":true,\"taskId\":\"" ++ taskId ++
          bytes "\",\"reason\":\"" ++ reason ++ bytes "\",\"createdBy\":\"" ++ createdBy ++
          bytes "\"\x7d\n")))
    | _ => (ledger, badRequest "taskId required")

/-- The revocation stays in the ledger where the kill event behind it cannot be printed. -/
def handlePostAutonomyRevoke (ledger : Ledger) (request : Bytes) (now killed : Long) :
    Ledger × HttpReply :=
  match requestBody request with
  | none => (ledger, noBody)
  | some body =>
    match wtJsonReadString body "taskId" wtTaskIdSize with
    | .ok taskId =>
      let reason := (wtJsonReadString body "reason" 256).orElse (bytes "operator revocation")
      let createdBy := (wtJsonReadString body "createdBy" wtTaskAgentSize).orElse (bytes "ceo")
      match StoreEvent.append ledger (.autonomy taskId createdBy taskId (bytes "revoked")
          (bytes "operator") [] reason true ⟨0, int64_zero⟩ now) with
      | none => (ledger, appendFailed)
      | some ledger =>
        match StoreEvent.append ledger
            (.kill taskId (bytes "autonomy-revoke") createdBy killed) with
        | none => (ledger, appendFailed)
        | some ledger =>
          (ledger, okReply (snprintf 512 (bytes "\x7b\"ok\":true,\"taskId\":\"" ++ taskId ++
            bytes "\",\"status\":\"autonomy_revoked\"\x7d\n")))
    | _ => (ledger, badRequest "taskId required")

/-! ## Artifacts -/

/-- A name of a file in the workspace: no separator, and no `..` in it. -/
def isSafeArtifactName (value : Bytes) : Bool :=
  value != [] && value.all (fun b => isAlnum b || b == 95 || b == 45 || b == 46) &&
    (strstr (bytes "..") value).isNone

/-- The states an artifact goes through. -/
def isArtifactState (state : Bytes) : Bool :=
  state == bytes "draft" || state == bytes "reviewed" || state == bytes "accepted" ||
    state == bytes "rejected" || state == bytes "superseded"

/-- What an artifact request records. -/
structure ArtifactReview where
  taskId : Bytes
  state : Bytes
  reviewer : Bytes
  notes : Bytes
  artifactPath : Bytes
  deriving DecidableEq, Repr

def readArtifactReview (body : Bytes) : Except String ArtifactReview :=
  match wtJsonReadString body "taskId" wtTaskIdSize, wtJsonReadString body "state" 64 with
  | .ok taskId, .ok state =>
    if !isArtifactState state then .error "unsupported artifact state"
    else
      let artifactPath := (wtJsonReadString body "artifactPath" 512).orElse []
      if artifactPath ≠ [] ∧ !isSafeArtifactName artifactPath then .error "invalid artifact path"
      else .ok {
        taskId, state, artifactPath
        reviewer := (wtJsonReadString body "reviewer" wtTaskAgentSize).orElse (bytes "ceo")
        notes := (wtJsonReadString body "notes" wtTaskBodySize).orElse [] }
  | .ok _, _ => .error "state required"
  | _, _ => .error "taskId required"

def handlePostTaskArtifact (ledger : Ledger) (request : Bytes) (now : Long) :
    Ledger × HttpReply :=
  match requestBody request with
  | none => (ledger, badRequest "missing body")
  | some body =>
    match readArtifactReview body with
    | .error error => (ledger, badRequest error)
    | .ok review =>
      match StoreEvent.append ledger (.artifact review.taskId review.state review.reviewer
          review.notes review.artifactPath now) with
      | none => (ledger, appendFailed)
      | some ledger =>
        (ledger, okReply (snprintf 1024 (bytes "\x7b\"ok\":true,\"taskId\":\"" ++ review.taskId ++
          bytes "\",\"state\":\"" ++ review.state ++ bytes "\",\"reviewer\":\"" ++
          review.reviewer ++ bytes "\",\"artifactPath\":\"" ++ review.artifactPath ++
          bytes "\"\x7d\n")))

/-! ## Priorities, notes and gates -/

def priorityRecord (escapedTaskId escapedPriority escapedBy : Literal) (now : Int) : Members :=
  str "schema" (.ofPlain "woventeam.task_event.v0.1") ++ str "taskId" escapedTaskId ++
  str "eventType" (.ofPlain "priority") ++ str "priority" escapedPriority ++
  str "message" (.ofPlain "Priority set to " ++ escapedPriority ++ .ofPlain ".") ++
  str "createdBy" escapedBy ++ num "createdAtUnixMs" now "\x7d"

/-- Here and in the two handlers below: nothing where a text does not fit its buffer when it is
escaped, since the function prints the buffer all the same. -/
def handlePostTaskPriority (ledger : Ledger) (request : Bytes) (now : Long) :
    Option (Ledger × HttpReply) :=
  let body := bearerBody request
  match wtJsonReadString body "taskId" wtTaskIdSize, wtJsonReadString body "priority" 32 with
  | .ok taskId, .ok priority => do
    let createdBy := (wtJsonReadString body "createdBy" wtTaskAgentSize).orElse (bytes "ceo")
    let escapedTaskId ← wtJsonEscape taskId (wtTaskIdSize * 2)
    let escapedPriority ← wtJsonEscape priority 64
    let escapedBy ← wtJsonEscape createdBy (wtTaskAgentSize * 2)
    return (wtTaskAppendRecord ledger (printRecord 1024
        (priorityRecord escapedTaskId escapedPriority escapedBy now)),
      okReply (bytes "\x7b\"ok\":true\x7d\n"))
  | _, _ => some (ledger, badRequest "task_priority_required")

/-- The members of a note in front of its time. -/
def noteFront (escapedTaskId escapedNote escapedBy : Literal) : Members :=
  str "schema" (.ofPlain "woventeam.task_event.v0.1") ++ str "taskId" escapedTaskId ++
  str "eventType" (.ofPlain "note") ++ str "message" escapedNote ++ str "createdBy" escapedBy

def handlePostTaskNote (ledger : Ledger) (request : Bytes) (now : Long) :
    Option (Ledger × HttpReply) :=
  let body := bearerBody request
  match wtJsonReadString body "taskId" wtTaskIdSize,
      wtJsonReadString body "note" wtTaskBodySize with
  | .ok taskId, .ok note =>
    if note = [] then some (ledger, badRequest "task_note_required")
    else do
      let createdBy := (wtJsonReadString body "createdBy" wtTaskAgentSize).orElse (bytes "ceo")
      let escapedTaskId ← wtJsonEscape taskId (wtTaskIdSize * 2)
      let escapedNote ← wtJsonEscape note (wtTaskBodySize * 2)
      let escapedBy ← wtJsonEscape createdBy (wtTaskAgentSize * 2)
      return (wtTaskAppendRecord ledger (printRecord (wtTaskBodySize * 2 + 512)
          (noteFront escapedTaskId escapedNote escapedBy ++ num "createdAtUnixMs" now "\x7d")),
        okReply (bytes "\x7b\"ok\":true\x7d\n"))
  | _, _ => some (ledger, badRequest "task_note_required")

inductive GateAction where
  | approve
  | reject
  | revision
  deriving DecidableEq, Repr

def GateAction.status : GateAction → Bytes
  | .approve => bytes "approved"
  | .reject => bytes "rejected"
  | .revision => bytes "revision_requested"

def GateAction.message : GateAction → Bytes
  | .approve => bytes "Task approved from review gate."
  | .reject => bytes "Task rejected from review gate."
  | .revision => bytes "Revision requested from review gate."

def gateAction (action : Bytes) : Option GateAction :=
  if action = bytes "approve" then some .approve
  else if action = bytes "reject" then some .reject
  else if action = bytes "revision" then some .revision
  else none

def gateRecord (escapedTaskId escapedStatus escapedMessage escapedBy : Literal) (now : Int) :
    Members :=
  str "schema" (.ofPlain "woventeam.task_event.v0.1") ++ str "taskId" escapedTaskId ++
  str "eventType" (.ofPlain "review_gate") ++ str "status" escapedStatus ++
  str "message" escapedMessage ++ str "createdBy" escapedBy ++ num "createdAtUnixMs" now "\x7d"

/-- The record of a gate action, where its texts fit. -/
def gateEvent (body taskId : Bytes) (action : GateAction) (now : Long) : Option Members := do
  let message := (wtJsonReadString body "message" wtTaskTitleSize).orElse action.message
  let createdBy := (wtJsonReadString body "createdBy" wtTaskAgentSize).orElse (bytes "ceo")
  let escapedTaskId ← wtJsonEscape taskId (wtTaskIdSize * 2)
  let escapedStatus ← wtJsonEscape action.status (wtTaskStatusSize * 2)
  let escapedMessage ← wtJsonEscape message (wtTaskTitleSize * 2)
  let escapedBy ← wtJsonEscape createdBy (wtTaskAgentSize * 2)
  return gateRecord escapedTaskId escapedStatus escapedMessage escapedBy now

def handlePostTaskGate (ledger : Ledger) (request : Bytes) (now : Long) : Ledger × HttpReply :=
  match requestBody request with
  | none => (ledger, noBody)
  | some body =>
    match wtJsonReadString body "taskId" wtTaskIdSize, wtJsonReadString body "action" 32 with
    | .ok taskId, .ok action =>
      match gateAction action with
      | none => (ledger, badRequest "unsupported gate action")
      | some action =>
        match gateEvent body taskId action now with
        | none => (ledger, badRequest "gate action too large")
        | some record =>
          (wtTaskAppendRecord ledger (printRecord wtTaskLedgerLineSize record),
            okReply (snprintf 512 (bytes "\x7b\"ok\":true,\"taskId\":\"" ++ taskId ++
              bytes "\",\"status\":\"" ++ action.status ++ bytes "\"\x7d\n")))
    | _, _ => (ledger, badRequest "invalid gate action")

/-! ## Usage -/

/-- The token counts of a usage report; a total of zero is the sum of the two sides. -/
structure UsageCounts where
  inputTokens : Long
  outputTokens : Long
  totalTokens : Long
  estimatedCostCents : Long

/-- A count of the body, or zero. -/
def readCount (body : Bytes) (key : String) : Long :=
  ⟨wrap64 (max 0 ((wtJsonReadLong body key).getD 0)), int64_wrap64 _⟩

def readUsageCounts (body : Bytes) : UsageCounts :=
  let inputTokens := readCount body "inputTokens"
  let outputTokens := readCount body "outputTokens"
  let totalTokens := readCount body "totalTokens"
  { inputTokens, outputTokens
    totalTokens :=
      if totalTokens.1 = 0 then ⟨wrap64 (inputTokens.1 + outputTokens.1), int64_wrap64 _⟩
      else totalTokens
    estimatedCostCents := readCount body "estimatedCostCents" }

def usageRecord (escapedTaskId escapedProvider escapedModel escapedBy : Literal)
    (counts : UsageCounts) (now : Int) : Members :=
  str "schema" (.ofPlain "woventeam.task_usage.v0.1") ++ str "taskId" escapedTaskId ++
  str "provider" escapedProvider ++ str "modelId" escapedModel ++
  num "inputTokens" counts.inputTokens ++ num "outputTokens" counts.outputTokens ++
  num "totalTokens" counts.totalTokens ++ num "estimatedCostCents" counts.estimatedCostCents ++
  str "createdBy" escapedBy ++ num "createdAtUnixMs" now "\x7d"

/-- The record of a usage report, where its texts fit. -/
def usageEvent (body taskId : Bytes) (now : Long) : Option Members := do
  let provider := (wtJsonReadString body "provider" wtNameSize).orElse (bytes "unknown")
  let modelId := (wtJsonReadString body "modelId" wtTaskModelSize).orElse []
  let createdBy := (wtJsonReadString body "createdBy" wtTaskAgentSize).orElse (bytes "adapter")
  let escapedTaskId ← wtJsonEscape taskId (wtTaskIdSize * 2)
  let escapedProvider ← wtJsonEscape provider (wtNameSize * 2)
  let escapedModel ← wtJsonEscape modelId (wtTaskModelSize * 2)
  let escapedBy ← wtJsonEscape createdBy (wtTaskAgentSize * 2)
  return usageRecord escapedTaskId escapedProvider escapedModel escapedBy (readUsageCounts body) now

def handlePostTaskUsage (ledger : Ledger) (request : Bytes) (now : Long) : Ledger × HttpReply :=
  match requestBody request with
  | none => (ledger, noBody)
  | some body =>
    match wtJsonReadString body "taskId" wtTaskIdSize with
    | .ok taskId =>
      match usageEvent body taskId now with
      | none => (ledger, badRequest "usage too large")
      | some record =>
        let counts := readUsageCounts body
        (wtTaskAppendRecord ledger (printRecord wtTaskLedgerLineSize record),
          okReply (snprintf 512 (bytes "\x7b\"ok\":true,\"taskId\":\"" ++ taskId ++
            bytes "\",\"totalTokens\":" ++ decimal counts.totalTokens ++
            bytes ",\"estimatedCostCents\":" ++ decimal counts.estimatedCostCents ++
            bytes "\x7d\n")))
    | _ => (ledger, badRequest "task id required")

/-! ## Tokens -/

/-- What `makeToken` gets from `/dev/urandom`, or what it takes in its place. -/
inductive TokenSource where
  | random (token : Vector UInt8 16) (id : Vector UInt8 8)
  | unavailable (seconds pid : Long)

def bytesToHex (raw : Bytes) : Bytes :=
  raw.flatMap fun b : UInt8 => [hexDigit (b >>> 4).toNat, hexDigit (b &&& 0x0f).toNat]

/-- The token and its id. -/
def makeToken (now : Long) : TokenSource → Bytes × Bytes
  | .random token id =>
    (snprintf 512 (bytes "wt_" ++ decimal now ++ bytes "_" ++ bytesToHex token.toList),
      snprintf 64 (bytes "tok_" ++ decimal now ++ bytes "_" ++ bytesToHex id.toList))
  | .unavailable seconds pid =>
    (snprintf 512 (bytes "wt_" ++ decimal now ++ bytes "_unavailable_" ++ decimal seconds ++
        bytes "_" ++ decimal pid),
      snprintf 64 (bytes "tok_" ++ decimal now ++ bytes "_" ++ decimal seconds ++ bytes "_" ++
        decimal pid))

def wtTokenPreview (token : Bytes) (outSize : Nat) : Bytes :=
  if token.length < 8 then snprintf outSize (bytes "[redacted]")
  else snprintf outSize (token.take 4 ++ bytes "...[redacted]")

/-- A token as it is issued. -/
structure Issue where
  role : Bytes
  subject : Bytes
  token : Bytes
  tokenId : Bytes
  ttlSeconds : Long
  deriving DecidableEq

/-- `authTokenDefaultTtlSeconds` is an `int`. -/
def readIssue (config : WtConfig) (body : Bytes) (made : Bytes × Bytes) : Option Issue :=
  let ttl := toInt32 config.authTokenDefaultTtlSeconds
  let ttlSeconds := (wtJsonReadLong body "ttlSeconds").getD (if ttl > 0 then ttl else 3600)
  let role := (wtJsonReadString body "role" 32).orElse (bytes "agent")
  if role ≠ bytes "operator" ∧ role ≠ bytes "agent" then none
  else some {
    role
    subject := (wtJsonReadString body "subject" wtTaskAgentSize).orElse role
    token := made.1
    tokenId := made.2
    ttlSeconds := ⟨wrap64 (if ttlSeconds < 1 then 1 else ttlSeconds), int64_wrap64 _⟩ }

def issueRecord (escapedTokenId escapedTokenHash escapedTokenPreview escapedRole
    escapedSubject : Literal) (ttlSeconds issuedAt : Int) : Members :=
  str "schema" (.ofPlain "woventeam.auth_token.v0.1") ++ str "eventType" (.ofPlain "issue") ++
  str "tokenId" escapedTokenId ++ str "tokenHash" escapedTokenHash ++
  str "tokenPreview" escapedTokenPreview ++ str "role" escapedRole ++
  str "subject" escapedSubject ++ num "issuedAtUnixMs" issuedAt ++ num "ttlSeconds" ttlSeconds ++
  str "createdBy" (.ofPlain "operator") ++ num "createdAtUnixMs" issuedAt "\x7d"

/-- `tokenHash` after `wtTokenHash(token, tokenHash, sizeof(tokenHash))`. -/
def tokenHash (token : Bytes) : Bytes := (wtTokenHash token 128).getD []

/-- The record of a token: its hash, and nothing of the token but the start. -/
def Issue.record (issue : Issue) (issuedAt : Long) : Option Members := do
  let escapedTokenId ← wtJsonEscape issue.tokenId 128
  let escapedTokenHash ← wtJsonEscape (tokenHash issue.token) 256
  let escapedTokenPreview ← wtJsonEscape (wtTokenPreview issue.token 64) 128
  let escapedRole ← wtJsonEscape issue.role 64
  let escapedSubject ← wtJsonEscape issue.subject (wtTaskAgentSize * 2)
  return issueRecord escapedTokenId escapedTokenHash escapedTokenPreview escapedRole
    escapedSubject issue.ttlSeconds issuedAt

def issueReply (issue : Issue) (issuedAt : Long) : HttpReply :=
  okReply (snprintf 1024 (bytes "\x7b\"ok\":true,\"tokenId\":\"" ++ issue.tokenId ++
    bytes "\",\"token\":\"" ++ issue.token ++ bytes "\",\"role\":\"" ++ issue.role ++
    bytes "\",\"subject\":\"" ++ issue.subject ++ bytes "\",\"issuedAtUnixMs\":" ++
    decimal issuedAt ++ bytes ",\"ttlSeconds\":" ++ decimal issue.ttlSeconds ++
    bytes "\x7d\n"))

/-- The part of `handlePostAuthToken` behind `makeToken`. -/
def Issue.append (issue : Issue) (ledger : Ledger) (issuedAt : Long) : Ledger × HttpReply :=
  match issue.record issuedAt with
  | none => (ledger, errorReply 500 "Internal Server Error" "token_escape_failed")
  | some record => (wtTaskAppendRecord ledger (printRecord 2048 record), issueReply issue issuedAt)

def handlePostAuthToken (config : WtConfig) (ledger : Ledger) (request : Bytes)
    (source : TokenSource) (made issuedAt : Long) : Ledger × HttpReply :=
  match readIssue config (bearerBody request) (makeToken made source) with
  | none => (ledger, badRequest "invalid_role")
  | some issue => issue.append ledger issuedAt

def revokeRecord (escapedTokenId : Literal) (now : Int) : Members :=
  str "schema" (.ofPlain "woventeam.auth_token.v0.1") ++ str "eventType" (.ofPlain "revoke") ++
  str "tokenId" escapedTokenId ++ str "createdBy" (.ofPlain "operator") ++
  num "createdAtUnixMs" now "\x7d"

def handlePostAuthTokenRevoke (ledger : Ledger) (request : Bytes) (now : Long) :
    Option (Ledger × HttpReply) :=
  match wtJsonReadString (bearerBody request) "tokenId" 64 with
  | .ok tokenId => do
    let escapedTokenId ← wtJsonEscape tokenId 128
    return (wtTaskAppendRecord ledger (printRecord 512 (revokeRecord escapedTokenId now)),
      okReply (snprintf 256 (bytes "\x7b\"ok\":true,\"tokenId\":\"" ++ tokenId ++
        bytes "\",\"status\":\"revoked\"\x7d\n")))
  | _ => some (ledger, badRequest "tokenId_required")

/-! ## Host capabilities -/

/-- What a host says of itself. -/
structure Capabilities where
  host : Bytes
  agent : Bytes
  profiles : Bytes
  adapters : Bytes
  deriving DecidableEq, Repr

def readCapabilities (body : Bytes) : Option Capabilities :=
  match wtJsonReadString body "host" wtTaskAgentSize,
      wtJsonReadString body "agent" wtTaskAgentSize with
  | .ok host, .ok agent => some {
      host, agent
      profiles := (wtJsonReadString body "profiles" 256).orElse (bytes "observe")
      adapters := (wtJsonReadString body "adapters" 256).orElse agent }
  | _, _ => none

def Capabilities.record (c : Capabilities) (now : Long) : Option Members := do
  let escapedHost ← wtJsonEscape c.host (wtTaskAgentSize * 2)
  let escapedAgent ← wtJsonEscape c.agent (wtTaskAgentSize * 2)
  let escapedProfiles ← wtJsonEscape c.profiles 512
  let escapedAdapters ← wtJsonEscape c.adapters 512
  return hostCapabilityRecord escapedHost escapedAgent escapedProfiles escapedAdapters now

def handlePostHostCapabilities (ledger : Ledger) (request : Bytes) (auth : WtAuthContext)
    (now : Long) : Ledger × HttpReply :=
  match readCapabilities (bearerBody request) with
  | none => (ledger, badRequest "host_agent_required")
  | some c =>
    if auth.mismatches [c.agent, c.host] then
      (ledger, errorReply 403 "Forbidden" "subject_mismatch")
    else
      match c.record now with
      | none => (ledger, badRequest "capability_too_large")
      | some record =>
        (wtTaskAppendRecord ledger (printRecord 2048 record),
          okReply (snprintf 512 (bytes "\x7b\"ok\":true,\"host\":\"" ++ c.host ++
            bytes "\",\"agent\":\"" ++ c.agent ++ bytes "\",\"profiles\":\"" ++ c.profiles ++
            bytes "\"\x7d\n")))

/-! ## No record is cut -/

section fits

variable {a b c d e : Literal} {now : Int}

theorem priorityRecord_fits (ha : a.text.length < wtTaskIdSize * 2) (hb : b.text.length < 64)
    (hc : c.text.length < wtTaskAgentSize * 2) (h : Int64 now) :
    (priorityRecord a b c now).object.length + 2 ≤ 1024 := by
  have := length_decimal h
  simp only [wtTaskIdSize, wtTaskAgentSize] at *
  unfold priorityRecord str num Literal.ofPlain
  simp [Members.length_object, render, Item.render]
  omega

/-- What stands in front of the time of a note leaves room for its first digits. -/
theorem noteFront_fits (ha : a.text.length < wtTaskIdSize * 2)
    (hb : b.text.length < wtTaskBodySize * 2) (hc : c.text.length < wtTaskAgentSize * 2) :
    (noteFront a b c).object.length + (bytes "createdAtUnixMs").length + 4 ≤
      wtTaskBodySize * 2 + 512 := by
  simp only [wtTaskIdSize, wtTaskBodySize, wtTaskAgentSize] at *
  unfold noteFront str Literal.ofPlain
  simp [Members.length_object, render, Item.render]
  omega

theorem gateRecord_fits (ha : a.text.length < wtTaskIdSize * 2)
    (hb : b.text.length < wtTaskStatusSize * 2) (hc : c.text.length < wtTaskTitleSize * 2)
    (hd : d.text.length < wtTaskAgentSize * 2) (h : Int64 now) :
    (gateRecord a b c d now).object.length + 2 ≤ wtTaskLedgerLineSize := by
  have := length_decimal h
  simp only [wtTaskIdSize, wtTaskAgentSize, wtTaskStatusSize, wtTaskTitleSize,
    wtTaskLedgerLineSize] at *
  unfold gateRecord str num Literal.ofPlain
  simp [Members.length_object, render, Item.render]
  omega

theorem usageRecord_fits {counts : UsageCounts} (ha : a.text.length < wtTaskIdSize * 2)
    (hb : b.text.length < wtNameSize * 2) (hc : c.text.length < wtTaskModelSize * 2)
    (hd : d.text.length < wtTaskAgentSize * 2) (h : Int64 now) :
    (usageRecord a b c d counts now).object.length + 2 ≤ wtTaskLedgerLineSize := by
  have := length_decimal h
  have := length_decimal counts.inputTokens.2
  have := length_decimal counts.outputTokens.2
  have := length_decimal counts.totalTokens.2
  have := length_decimal counts.estimatedCostCents.2
  simp only [wtTaskIdSize, wtTaskAgentSize, wtNameSize, wtTaskModelSize,
    wtTaskLedgerLineSize] at *
  unfold usageRecord str num Literal.ofPlain
  simp [Members.length_object, render, Item.render]
  omega

theorem issueRecord_fits {ttlSeconds : Int} (ha : a.text.length < 128) (hb : b.text.length < 256)
    (hc : c.text.length < 128) (hd : d.text.length < 64)
    (he : e.text.length < wtTaskAgentSize * 2) (httl : Int64 ttlSeconds) (h : Int64 now) :
    (issueRecord a b c d e ttlSeconds now).object.length + 2 ≤ 2048 := by
  have := length_decimal h
  have := length_decimal httl
  simp only [wtTaskAgentSize] at *
  unfold issueRecord str num Literal.ofPlain
  simp [Members.length_object, render, Item.render]
  omega

theorem revokeRecord_fits (ha : a.text.length < 128) (h : Int64 now) :
    (revokeRecord a now).object.length + 2 ≤ 512 := by
  have := length_decimal h
  unfold revokeRecord str num Literal.ofPlain
  simp [Members.length_object, render, Item.render]
  omega

theorem hostCapabilityRecord_fits (ha : a.text.length < wtTaskAgentSize * 2)
    (hb : b.text.length < wtTaskAgentSize * 2) (hc : c.text.length < 512)
    (hd : d.text.length < 512) (h : Int64 now) :
    (hostCapabilityRecord a b c d now).object.length + 2 ≤ 2048 := by
  have := length_decimal h
  simp only [wtTaskAgentSize] at *
  unfold hostCapabilityRecord str num Literal.ofPlain
  simp [Members.length_object, render, Item.render]
  omega

end fits

/-! ## What the endpoints add -/

section adds

variable {ledger : Ledger} {request : Bytes}

theorem handlePostTaskCancel_adds (now : Long) :
    Adds PathlessRecord ledger (handlePostTaskCancel ledger request now).1 := by
  unfold handlePostTaskCancel
  split
  · exact .refl
  · split
    · dsimp only
      split
      · exact .refl
      · rename_i happend
        exact .event _ happend (StoreEvent.pathless _ (by simp))
    · exact .refl

theorem handlePostAutonomyRevoke_adds (now killed : Long) :
    Adds PathlessRecord ledger (handlePostAutonomyRevoke ledger request now killed).1 := by
  unfold handlePostAutonomyRevoke
  split
  · exact .refl
  · split
    · dsimp only
      split
      · exact .refl
      · rename_i revoked hrevoke
        have hrevoked := Adds.event _ hrevoke (StoreEvent.pathless _ (by simp))
        split
        · exact hrevoked
        · rename_i hkill
          exact hrevoked.trans (.event _ hkill (StoreEvent.pathless _ (by simp)))
    · exact .refl

theorem handlePostTaskPriority_adds {now : Long} {result : Ledger × HttpReply}
    (h : handlePostTaskPriority ledger request now = some result) :
    Adds PathlessRecord ledger result.1 := by
  unfold handlePostTaskPriority at h
  dsimp only at h
  split at h
  · simp only [Option.bind_eq_bind, Option.bind_eq_some_iff, Option.pure_def,
      Option.some.injEq] at h
    obtain ⟨a, ha, b, hb, c, hc, rfl⟩ := h
    exact .printed (.of_members "woventeam.task_event.v0.1" rfl rfl rfl)
      (priorityRecord_fits (wtJsonEscape_eq ha).2 (wtJsonEscape_eq hb).2 (wtJsonEscape_eq hc).2
        now.2) (by decide)
  · cases h
    exact .refl

/-- A note may be too long for its record; then the time is cut. -/
theorem handlePostTaskNote_adds {now : Long} {result : Ledger × HttpReply}
    (h : handlePostTaskNote ledger request now = some result) :
    Adds PathlessRecord ledger result.1 := by
  unfold handlePostTaskNote at h
  dsimp only at h
  split at h
  · split at h
    · cases h
      exact .refl
    · simp only [Option.bind_eq_bind, Option.bind_eq_some_iff, Option.pure_def,
        Option.some.injEq] at h
      obtain ⟨a, ha, b, hb, c, hc, rfl⟩ := h
      have hfront := noteFront_fits (wtJsonEscape_eq ha).2 (wtJsonEscape_eq hb).2
        (wtJsonEscape_eq hc).2
      obtain ⟨record, ⟨shown, hitems⟩, hprinted⟩ := @snprintf_object _ _ rfl now.1 _ hfront
      have hlen : record.object.length < wtTaskBodySize * 2 + 512 := by
        rw [← hprinted]
        exact snprintf_length_lt _ (by decide)
      dsimp only
      rw [hprinted, wtTaskAppendRecord_object ledger
        (by simp only [wtTaskBodySize, wtTaskLedgerLineSize] at *; omega)]
      refine .single (.of_members "woventeam.task_event.v0.1" ?_ ?_ ?_)
      · rw [hitems]
        rfl
      · rw [hitems]
        rfl
      · rw [hitems]
        rfl
  · cases h
    exact .refl

theorem handlePostTaskGate_adds (now : Long) :
    Adds PathlessRecord ledger (handlePostTaskGate ledger request now).1 := by
  unfold handlePostTaskGate
  split
  · exact .refl
  · split
    · split
      · exact .refl
      · split
        · exact .refl
        · rename_i hrecord
          simp only [gateEvent, Option.bind_eq_bind, Option.bind_eq_some_iff, Option.pure_def,
            Option.some.injEq] at hrecord
          obtain ⟨a, ha, b, hb, c, hc, d, hd, rfl⟩ := hrecord
          exact .printed (.of_members "woventeam.task_event.v0.1" rfl rfl rfl)
            (gateRecord_fits (wtJsonEscape_eq ha).2 (wtJsonEscape_eq hb).2 (wtJsonEscape_eq hc).2
              (wtJsonEscape_eq hd).2 now.2) (le_refl _)
    · exact .refl

theorem handlePostTaskUsage_adds (now : Long) :
    Adds PathlessRecord ledger (handlePostTaskUsage ledger request now).1 := by
  unfold handlePostTaskUsage
  split
  · exact .refl
  · split
    · split
      · exact .refl
      · rename_i hrecord
        simp only [usageEvent, Option.bind_eq_bind, Option.bind_eq_some_iff, Option.pure_def,
          Option.some.injEq] at hrecord
        obtain ⟨a, ha, b, hb, c, hc, d, hd, rfl⟩ := hrecord
        exact .printed (.of_members "woventeam.task_usage.v0.1" rfl rfl rfl)
          (usageRecord_fits (wtJsonEscape_eq ha).2 (wtJsonEscape_eq hb).2 (wtJsonEscape_eq hc).2
            (wtJsonEscape_eq hd).2 now.2) (le_refl _)
    · exact .refl

/-- The members of an issued token's record, and what they are built from. -/
theorem Issue.record_eq {issue : Issue} {issuedAt : Long} {record : Members}
    (h : issue.record issuedAt = some record) :
    ∃ a b c d e : Literal, record = issueRecord a b c d e issue.ttlSeconds issuedAt ∧
      unescape b.text = reread (tokenHash issue.token) ∧ unescape d.text = reread issue.role ∧
      record.object.length + 2 ≤ 2048 := by
  simp only [Issue.record, Option.bind_eq_bind, Option.bind_eq_some_iff, Option.pure_def,
    Option.some.injEq] at h
  obtain ⟨a, ha, b, hb, c, hc, d, hd, e, he, rfl⟩ := h
  exact ⟨a, b, c, d, e, rfl, (wtJsonEscape_eq hb).1, (wtJsonEscape_eq hd).1,
    issueRecord_fits (wtJsonEscape_eq ha).2 (wtJsonEscape_eq hb).2 (wtJsonEscape_eq hc).2
      (wtJsonEscape_eq hd).2 (wtJsonEscape_eq he).2 issue.ttlSeconds.2 issuedAt.2⟩

theorem Issue.append_adds (issue : Issue) (issuedAt : Long) :
    Adds (fun record => issue.record issuedAt = some record) ledger
      (issue.append ledger issuedAt).1 := by
  unfold Issue.append
  split
  · exact .refl
  · rename_i hrecord
    obtain ⟨_, _, _, _, _, _, _, _, hfits⟩ := issue.record_eq hrecord
    exact .printed hrecord hfits (by decide)

/-- A token is issued by one record. -/
theorem handlePostAuthToken_adds (config : WtConfig) (source : TokenSource) (made issuedAt : Long) :
    Adds (fun record => ∃ issue, readIssue config (bearerBody request) (makeToken made source) =
        some issue ∧ issue.record issuedAt = some record) ledger
      (handlePostAuthToken config ledger request source made issuedAt).1 := by
  unfold handlePostAuthToken
  cases readIssue config (bearerBody request) (makeToken made source) with
  | none => exact .refl
  | some issue => exact (issue.append_adds issuedAt).mono fun _ h => ⟨issue, rfl, h⟩

theorem handlePostAuthTokenRevoke_adds {now : Long} {result : Ledger × HttpReply}
    (h : handlePostAuthTokenRevoke ledger request now = some result) :
    Adds (fun record => ∃ tokenId escapedTokenId,
        wtJsonReadString (bearerBody request) "tokenId" 64 = .ok tokenId ∧
          wtJsonEscape tokenId 128 = some escapedTokenId ∧
            record = revokeRecord escapedTokenId now) ledger result.1 := by
  unfold handlePostAuthTokenRevoke at h
  split at h
  · rename_i tokenId htoken
    simp only [Option.bind_eq_bind, Option.bind_eq_some_iff, Option.pure_def,
      Option.some.injEq] at h
    obtain ⟨a, ha, rfl⟩ := h
    exact .printed ⟨tokenId, a, htoken, ha, rfl⟩ (revokeRecord_fits (wtJsonEscape_eq ha).2 now.2)
      (by decide)
  · cases h
    exact .refl

theorem handlePostHostCapabilities_adds (auth : WtAuthContext) (now : Long) :
    Adds (fun record => ∃ a b c d, record = hostCapabilityRecord a b c d now) ledger
      (handlePostHostCapabilities ledger request auth now).1 := by
  unfold handlePostHostCapabilities
  split
  · exact .refl
  · split
    · exact .refl
    · split
      · exact .refl
      · rename_i hrecord
        simp only [Capabilities.record, Option.bind_eq_bind, Option.bind_eq_some_iff,
          Option.pure_def, Option.some.injEq] at hrecord
        obtain ⟨a, ha, b, hb, c, hc, d, hd, rfl⟩ := hrecord
        exact .printed ⟨a, b, c, d, rfl⟩ (hostCapabilityRecord_fits (wtJsonEscape_eq ha).2
          (wtJsonEscape_eq hb).2 (wtJsonEscape_eq hc).2 (wtJsonEscape_eq hd).2 now.2) (by decide)

end adds

end WovenTeam

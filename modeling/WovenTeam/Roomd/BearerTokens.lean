import WovenTeam.Roomd.Endpoints
import WovenTeam.Roomd.CommaLists

/-!
# Bearer tokens

The ledger is the daemon's list of tokens: `validateBearerToken` walks it for the issue of the
token that a request presents, then for a revocation of its id. `validateBearerToken_iff`: where
the lines that mention tokens are records of the two endpoints, a token is accepted by its last
issue, for that issue's role, until its time is over or its id is revoked.
-/

namespace WovenTeam

open CText QuotedText LineReader

/-! ## Headers -/

/-- The lines of the request up to the first empty one; `line` is what has been read of the
current line, last byte first. -/
def headerLines (line : Bytes) : Bytes → List Bytes
  | 13 :: 10 :: rest => if line = [] then [] else line.reverse :: headerLines [] rest
  | b :: rest => headerLines (b :: line) rest
  | [] => []

/-- `tolower` in the C locale. -/
def toLower (b : UInt8) : UInt8 := if 65 ≤ b && b ≤ 90 then b + 32 else b

/-- What stands behind the name and its colon. -/
def headerValue (name header : Bytes) : Option Bytes :=
  if (header.take name.length).map toLower = name.map toLower ∧
      header[name.length]? = some colon then
    some (trimBlanks (header.drop (name.length + 1)))
  else none

def requestHeaderValue (request : Bytes) (headerName : String) (bufferSize : Nat) :
    Option Bytes :=
  ((headerLines [] request).findSome? (headerValue (bytes headerName))).map (snprintf bufferSize)

def extractBearerToken (request : Bytes) : Option Bytes := do
  let authorization ← requestHeaderValue request "Authorization" 512
  if !(bytes "Bearer ").isPrefixOf authorization then none
  let token := snprintf 512 (authorization.drop 7)
  if token = [] then none else some token

/-! ## The walk -/

/-- What the walk has kept of the issues it met. -/
structure BearerWalk where
  auth : WtAuthContext := {}
  tokenId : Bytes := []
  issuedAt : Int := 0
  ttl : Int := 0
  found : Bool := false
  deriving DecidableEq, Repr

/-- The line is an issue of the token, by its hash or, in the old form, by itself. -/
def issuesToken (token line : Bytes) : Bool :=
  let lineTokenHash := (wtJsonReadString line "tokenHash" 128).overwrite []
  let lineToken := (wtJsonReadString line "token" 256).overwrite []
  lineMentionsSchema line authTokenSchema &&
    wtJsonReadString line "eventType" 32 == .ok (bytes "issue") &&
    if lineTokenHash ≠ [] then lineTokenHash == tokenHash token
    else lineToken != [] && lineToken == token

def bearerStep (token : Bytes) (walk : BearerWalk) (line : Bytes) : BearerWalk :=
  if issuesToken token line then
    { auth := {
        role := (wtJsonReadString line "role" 32).overwrite walk.auth.role
        subject := (wtJsonReadString line "subject" wtTaskAgentSize).overwrite walk.auth.subject }
      tokenId := (wtJsonReadString line "tokenId" 64).overwrite walk.tokenId
      issuedAt := (wtJsonReadLongLong line "issuedAtUnixMs").getD walk.issuedAt
      ttl := (wtJsonReadLong line "ttlSeconds").getD walk.ttl
      found := true }
  else walk

def bearerWalk (ledger : Ledger) (token : Bytes) : BearerWalk :=
  ledger.foldl (bearerStep token) {}

def revokesToken (tokenId line : Bytes) : Bool :=
  lineMentionsSchema line authTokenSchema &&
    wtJsonReadString line "eventType" 32 == .ok (bytes "revoke") &&
    wtJsonReadString line "tokenId" 64 == .ok tokenId

def tokenRevoked (ledger : Ledger) (tokenId : Bytes) : Bool := ledger.any (revokesToken tokenId)

/-- The time of the token is over. -/
def BearerWalk.expired (walk : BearerWalk) (now : Int) : Bool :=
  0 < walk.ttl && 0 < walk.issuedAt &&
    decide (wrap64 (walk.issuedAt + wrap64 (walk.ttl * 1000)) < now)

/-- Whom the token stands for, or why it is refused. -/
def validateBearerToken (config : WtConfig) (ledger : Ledger) (request peerIp requiredRole : Bytes)
    (now : Int) : Except String WtAuthContext :=
  if !ipAllowedByConfig config peerIp then .error "ip_not_allowed"
  else match extractBearerToken request with
    | none => .error "bearer_required"
    | some token =>
      let walk := bearerWalk ledger token
      if !walk.found then .error "token_unknown"
      else if tokenRevoked ledger walk.tokenId then .error "token_revoked"
      else if walk.expired now then .error "token_expired"
      else if requiredRole ≠ [] ∧ requiredRole ≠ walk.auth.role then .error "role_forbidden"
      else .ok walk.auth

/-! ## The operator's session -/

/-- The first line of a file without the white space at its end, where something is left. -/
def readFileToken (file : Option Bytes) (tokenSize : Nat) : Option Bytes := do
  let line ← (fgetsLines tokenSize (← file)).head?
  let token := (line.takeWhile (· != 0)).rdropWhile fun b => isBlank b || b == 10 || b == 13
  if token = [] then none else some token

def extractOperatorSession (request : Bytes) : Option Bytes :=
  match requestHeaderValue request "X-WovenTeam-Operator-Session" 512 with
  | some (b :: token) => some (b :: token)
  | _ => do
    let cookie ← requestHeaderValue request "Cookie" 1024
    let found ← strstr (bytes "wt_operator_session=") cookie
    let token := snprintf 512 ((found.drop 20).takeWhile fun b =>
      !(isBlank b || b == 59 || b == 13 || b == 10))
    if token = [] then none else some token

def validateOperatorSession (session : Option Bytes) (request : Bytes) : Bool :=
  match readFileToken session 512, extractOperatorSession request with
  | some expected, some presented => expected == presented
  | _, _ => false

def requireOperatorAuth (config : WtConfig) (session : Option Bytes) (ledger : Ledger)
    (request peerIp : Bytes) (now : Int) : Bool :=
  validateOperatorSession session request ||
    (validateBearerToken config ledger request peerIp (bytes "operator") now).isOk

/-! ## Lines that decide nothing -/

/-- The line issues and revokes no token. -/
structure NoTokenEvent (line : Bytes) : Prop where
  issue : ∀ token, issuesToken token line = false
  revoke : ∀ tokenId, revokesToken tokenId line = false

/-- The line registers the agent on the host. -/
def registersHost (host agent line : Bytes) : Bool :=
  lineMentionsSchema line hostEventSchema &&
    wtJsonReadString line "host" wtTaskAgentSize == .ok host &&
    wtJsonReadString line "agent" wtTaskAgentSize == .ok agent

/-- The line is passed over by the readers of tokens and hosts. -/
structure Harmless (line : Bytes) : Prop extends NoTokenEvent line where
  host : ∀ host agent, registersHost host agent line = false

section harmless

variable {line : Bytes}

theorem NoTokenEvent.of_unmentioned (h : lineMentionsSchema line authTokenSchema = false) :
    NoTokenEvent line :=
  ⟨fun token => by simp [issuesToken, h], fun tokenId => by simp [revokesToken, h]⟩

theorem Harmless.of_unmentioned (htoken : lineMentionsSchema line authTokenSchema = false)
    (hhost : lineMentionsSchema line hostEventSchema = false) : Harmless line :=
  ⟨.of_unmentioned htoken, fun host agent => by simp [registersHost, hhost]⟩

variable {config config' : WtConfig} {ledger lines : Ledger}

theorem bearerStep_other {token : Bytes} (h : NoTokenEvent line) (walk : BearerWalk) :
    bearerStep token walk line = walk := by
  simp [bearerStep, h.issue token]

theorem bearerWalk_append (h : ∀ line ∈ lines, Harmless line) (token : Bytes) :
    bearerWalk (ledger ++ lines) token = bearerWalk ledger token := by
  rw [bearerWalk, List.foldl_append]
  induction lines using List.reverseRecOn with
  | nil => rfl
  | append_singleton lines line ih =>
    rw [List.foldl_append, List.foldl_cons, List.foldl_nil,
      bearerStep_other (h line (by simp)).toNoTokenEvent]
    exact ih fun l hl => h l (List.mem_append_left _ hl)

theorem tokenRevoked_append (h : ∀ line ∈ lines, Harmless line) (tokenId : Bytes) :
    tokenRevoked (ledger ++ lines) tokenId = tokenRevoked ledger tokenId := by
  rw [tokenRevoked, List.any_append, ← tokenRevoked, Bool.or_eq_left_iff_imp]
  intro hany
  obtain ⟨line, hline, hrevokes⟩ := List.any_eq_true.mp hany
  rw [(h line hline).revoke] at hrevokes
  cases hrevokes

theorem readHostProfiles_append (h : ∀ line ∈ lines, Harmless line) (host agent : Bytes) :
    readHostProfiles (ledger ++ lines) host agent = readHostProfiles ledger host agent := by
  rw [readHostProfiles, List.foldl_append]
  induction lines using List.reverseRecOn with
  | nil => rfl
  | append_singleton lines line ih =>
    have hskip : ∀ profiles, hostProfilesStep host agent profiles line = profiles := by
      intro profiles
      have hno := (h line (by simp)).host host agent
      rw [registersHost] at hno
      rw [hostProfilesStep, hno]
      rfl
    rw [List.foldl_append, List.foldl_cons, List.foldl_nil, hskip]
    exact ih fun l hl => h l (List.mem_append_left _ hl)

/-- Of the configuration only the addresses matter. -/
theorem validateBearerToken_append (hips : config'.remoteAllowedIps = config.remoteAllowedIps)
    (h : ∀ line ∈ lines, Harmless line) (request peerIp role : Bytes) (now : Int) :
    validateBearerToken config' (ledger ++ lines) request peerIp role now =
      validateBearerToken config ledger request peerIp role now := by
  have hallowed : ipAllowedByConfig config' peerIp = ipAllowedByConfig config peerIp := by
    rw [ipAllowedByConfig, ipAllowedByConfig, hips]
  unfold validateBearerToken
  simp only [hallowed, bearerWalk_append h, tokenRevoked_append h]

end harmless

end WovenTeam

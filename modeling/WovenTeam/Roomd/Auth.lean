import WovenTeam.Store.Ledger

/-!
# Authentication readers

The daemon keeps its tokens and the capabilities of its hosts in the task ledger. These readers
do not look at the first `schema` field of a line as the others do: they take a line for theirs
where the text of the schema member stands anywhere in it.
-/

namespace WovenTeam

open CText QuotedText

/-- The test of the authentication readers. -/
def lineMentionsSchema (line : Bytes) (schema : String) : Bool :=
  (strstr (marker (bytes "schema") (bytes schema)) line).isSome

def authTokenSchema : String := "woventeam.auth_token.v0.1"
def hostEventSchema : String := "woventeam.host_event.v0.1"

/-- Who a request comes from, as `validateBearerToken` leaves it for its caller. -/
structure WtAuthContext where
  role : Bytes := []
  subject : Bytes := []
  deriving DecidableEq, Repr

/-- The token is an agent's and names none of the parties the request names. -/
def WtAuthContext.mismatches (auth : WtAuthContext) (parties : List Bytes) : Bool :=
  auth.role == bytes "agent" && auth.subject != [] && !parties.contains auth.subject

/-! ## Comma-separated lists -/

/-- The loop of `ipAllowedByConfig` and `profileInList` over a copy of `size` bytes. -/
def inCommaList (size : Nat) (list wanted : Bytes) : Bool :=
  (strtok comma (snprintf size list)).any fun item =>
    trimBlanks item == bytes "*" || trimBlanks item == wanted

/-! ## Host capabilities -/

/-- The record of `POST /api/host-capabilities`. -/
def hostCapabilityRecord (escapedHost escapedAgent escapedProfiles escapedAdapters : Literal)
    (now : Int) : Members :=
  str "schema" (.ofPlain "woventeam.host_event.v0.1") ++
  str "eventType" (.ofPlain "capabilities") ++ str "host" escapedHost ++
  str "agent" escapedAgent ++ str "profiles" escapedProfiles ++ str "adapters" escapedAdapters ++
  str "createdBy" (.ofPlain "wt-agent@" ++ escapedAgent) ++ num "createdAtUnixMs" now "\x7d"

/-- One line of the walk: the profiles registered so far, if any are. -/
def hostProfilesStep (host agent : Bytes) (profiles : Option Bytes) (line : Bytes) :
    Option Bytes :=
  if lineMentionsSchema line hostEventSchema &&
      wtJsonReadString line "host" wtTaskAgentSize == .ok host &&
      wtJsonReadString line "agent" wtTaskAgentSize == .ok agent then
    some ((wtJsonReadString line "profiles" 256).overwrite (profiles.getD []))
  else profiles

/-- The profiles of an agent on a host; nothing where the host never registered it. -/
def readHostProfiles (ledger : Ledger) (host agent : Bytes) : Option Bytes :=
  ledger.foldl (hostProfilesStep host agent) none

def profileInList (profiles profile : Bytes) : Bool :=
  if profile = [] then true
  else if profiles = [] then false
  else inCommaList 256 profiles profile

end WovenTeam

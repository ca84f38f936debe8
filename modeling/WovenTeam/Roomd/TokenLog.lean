import WovenTeam.Roomd.BearerTokens
import WovenTeam.Roomd.Requests
import WovenTeam.Lib.FirstSeen

/-!
# The log of tokens

What the daemon decides about a token depends on the issues and revocations alone. `TokenLog` says
that the lines of a ledger that issue or revoke are those of a list of them, in order, and
`validateBearerToken_eq` that the decision is then the one over the list: a token stands for what
its last issue says, until its time is over or its id is revoked.
-/

namespace WovenTeam

open CText QuotedText LineReader FirstSeen

/-! ## Events -/

/-- An issue as the endpoint makes it. -/
structure Issued extends Issue where
  role_known : role = bytes "operator" ∨ role = bytes "agent"
  id_decodes : Decodes tokenId
  id_short : tokenId.length < 64

/-- A line about tokens; a revocation has the id as it is read from the ledger. -/
inductive TokenEvent where
  | issue (issued : Issued) (issuedAt : Long)
  | revoke (tokenId : Bytes)

/-- The event is printed as the line. -/
inductive TokenEvent.Prints : TokenEvent → Bytes → Prop
  | issue {issued : Issued} {issuedAt : Long} {record : Members}
      (h : issued.record issuedAt = some record) :
      Prints (.issue issued issuedAt) (recordLine record)
  | revoke {tokenId : Bytes} {escapedTokenId : Literal} (now : Long)
      (h : wtJsonEscape tokenId 128 = some escapedTokenId) :
      Prints (.revoke (reread tokenId)) (recordLine (revokeRecord escapedTokenId now))

/-- The events are those of the lines that issue and revoke tokens. -/
inductive TokenLog : Ledger → List TokenEvent → Prop
  | nil : TokenLog [] []
  | other {ledger : Ledger} {events : List TokenEvent} {line : Bytes} (h : TokenLog ledger events)
      (hline : NoTokenEvent line) : TokenLog (ledger ++ [line]) events
  | event {ledger : Ledger} {events : List TokenEvent} {line : Bytes} {event : TokenEvent}
      (h : TokenLog ledger events) (hline : event.Prints line) :
      TokenLog (ledger ++ [line]) (events ++ [event])

/-! ## The decision over the list -/

/-- The event issues the token. -/
def TokenEvent.issueOf (token : Bytes) : TokenEvent → Option (Issued × Long)
  | issue issued issuedAt =>
    if tokenHash issued.token = tokenHash token then some (issued, issuedAt) else none
  | revoke _ => none

/-- The event revokes the id. -/
def TokenEvent.revokes (tokenId : Bytes) : TokenEvent → Bool
  | issue .. => false
  | revoke revoked => revoked == tokenId

/-- Whom an issue stands for. -/
def Issued.auth (issued : Issued) : WtAuthContext where
  role := issued.role
  subject := (reread issued.subject).take (wtTaskAgentSize - 1)

/-- What the walk has of the last issue. -/
def Issued.walk (issued : Issued) (issuedAt : Long) : BearerWalk where
  auth := issued.auth
  tokenId := issued.tokenId
  issuedAt := issuedAt
  ttl := issued.ttlSeconds
  found := true

def decideToken (events : List TokenEvent) (token requiredRole : Bytes) (now : Int) :
    Except String WtAuthContext :=
  match lastOf (TokenEvent.issueOf token) events with
  | none => .error "token_unknown"
  | some (issued, issuedAt) =>
    if events.any (TokenEvent.revokes issued.tokenId) then .error "token_revoked"
    else if (issued.walk issuedAt).expired now then .error "token_expired"
    else if requiredRole ≠ [] ∧ requiredRole ≠ issued.role then .error "role_forbidden"
    else .ok issued.auth

/-! ## The records -/

/-- A record with the schema in front mentions it. -/
theorem mentions_record {schema : String} {record : Members} (hschema : Plain (bytes schema))
    (hfirst : record.items.take 2 = [⟨bytes "schema", [colon]⟩, ⟨bytes schema, [comma]⟩]) :
    lineMentionsSchema (recordLine record) schema = true := by
  have hmember : hasMember (bytes "schema") (bytes schema) record.items = true := by
    rw [← List.take_append_drop 2 record.items, hfirst]
    simp [hasMember]
  have hsub : marker (bytes "schema") (bytes schema) <:+: render record.items :=
    (marker_infix_render word_schema hschema record.ok).mpr hmember
  rw [lineMentionsSchema, strstr_isSome_iff]
  exact hsub.trans ⟨[123], [newline], by simp [recordLine, Members.object]⟩

section read

variable {issued : Issued} {issuedAt : Long} {record : Members} {token : Bytes}

theorem decodes_append {s t : Bytes} (hs : Decodes s) (ht : Decodes t) : Decodes (s ++ t) :=
  fun b hb => (List.mem_append.mp hb).elim (hs b) (ht b)

theorem decodes_hex {high low : Nat} (hhigh : high < 16) (hlow : low < 16) :
    Decodes [hexDigit high, hexDigit low] := by
  have hdigit : ∀ n < 16, 32 ≤ hexDigit n := by decide
  intro b hb
  simp only [List.mem_cons, List.not_mem_nil, or_false] at hb
  rcases hb with rfl | rfl
  · exact .inl (hdigit _ hhigh)
  · exact .inl (hdigit _ hlow)

theorem decodes_decimal (n : Int) : Decodes (decimal n) := by
  have hnat : Decodes (decimalNat n.natAbs) := by
    intro b hb
    obtain ⟨d, hd, rfl⟩ := mem_decimalNat hb
    interval_cases d <;> exact .inl (by decide)
  unfold decimal
  split
  · exact List.forall_mem_cons.mpr ⟨.inl (by decide), hnat⟩
  · exact hnat

theorem tokenHash_eq (token : Bytes) : tokenHash token = bytes "sha256:" ++
    (Sha2.digest token).flatMap fun b => [hexDigit (b.toNat / 16), hexDigit (b.toNat % 16)] := by
  rw [tokenHash, (wtTokenHash_eq token 128 (by decide)).1, Option.getD_some]

theorem decodes_tokenHash (token : Bytes) : Decodes (tokenHash token) := by
  rw [tokenHash_eq]
  refine decodes_append (by decide) fun b hb => ?_
  obtain ⟨d, -, hb⟩ := List.mem_flatMap.mp hb
  have hd := d.toNat_lt
  exact decodes_hex (by omega) (by omega) b hb

theorem length_tokenHash (token : Bytes) : (tokenHash token).length = 71 := by
  have hdigest : (Sha2.digest token).length = 32 := by
    simp [Sha2.digest, Sha2.State.bytes, Sha2.wordBytes]
  have hhex : ∀ digest : Bytes, (digest.flatMap fun b =>
      [hexDigit (b.toNat / 16), hexDigit (b.toNat % 16)]).length = 2 * digest.length := by
    intro digest
    induction digest with
    | nil => rfl
    | cons b digest ih =>
      simp only [List.flatMap_cons, List.length_append, List.length_cons, List.length_nil, ih]
      omega
  rw [tokenHash_eq, List.length_append, hhex, hdigest]
  decide

/-- A printed text that decodes and fits is read as it is. -/
theorem readString_record {input : Bytes} {escaped : Literal} {size outputSize : Nat} {key : String}
    {f : Bytes} {js : List Item} (hescape : wtJsonEscape input outputSize = some escaped)
    (hkey : isFieldKey key = true) (hdecodes : Decodes input) (hsize : input.length < size)
    (hl : lookup (bytes key) record.items = some (render (⟨escaped.text, f⟩ :: js))) :
    wtJsonReadString (recordLine record) key size = .ok input := by
  have hread : unescape escaped.text = input := by
    rw [(wtJsonEscape_eq hescape).1, reread_eq_self_iff.mpr hdecodes]
  rw [recordLine, wtJsonReadString_object (.of_check hkey) quote_notMem_newline hl (by rwa [hread]),
    hread]

theorem readLong_record {n : Int} {key : String} {js : List Item} (hn : -2 ^ 63 ≤ n ∧ n < 2 ^ 63)
    (hkey : isFieldKey key = true)
    (hl : lookup (bytes key) record.items = some (decimal n ++ bytes "," ++ render js)) :
    wtJsonReadLong (recordLine record) key = some n :=
  wtJsonReadLong_object (.of_check hkey) quote_notMem_newline hn hl rfl

/-- What the walk reads of an issue. -/
structure IssueRead (issued : Issued) (issuedAt : Long) (line : Bytes) : Prop where
  mentions : lineMentionsSchema line authTokenSchema = true
  eventType : wtJsonReadString line "eventType" 32 = .ok (bytes "issue")
  tokenHash : wtJsonReadString line "tokenHash" 128 = .ok (tokenHash issued.token)
  role : wtJsonReadString line "role" 32 = .ok issued.role
  subject : (wtJsonReadString line "subject" wtTaskAgentSize).written = some issued.auth.subject
  tokenId : wtJsonReadString line "tokenId" 64 = .ok issued.tokenId
  issuedAt : wtJsonReadLongLong line "issuedAtUnixMs" = some issuedAt.1
  ttl : wtJsonReadLong line "ttlSeconds" = some issued.ttlSeconds.1

theorem issueRead_record (h : issued.record issuedAt = some record) :
    IssueRead issued issuedAt (recordLine record) := by
  simp only [Issue.record, Option.bind_eq_bind, Option.bind_eq_some_iff, Option.pure_def,
    Option.some.injEq] at h
  obtain ⟨a, ha, b, hb, c, -, d, hd, e, he, rfl⟩ := h
  have hrole : Decodes issued.role ∧ issued.role.length < 32 := by
    rcases issued.role_known with hrole | hrole
    · rw [hrole]
      decide
    · rw [hrole]
      decide
  exact {
    mentions := mentions_record (isPlain_iff.mp rfl) rfl
    eventType := wtJsonReadString_object (.of_check rfl) quote_notMem_newline
      (v := .ofPlain "issue") rfl (by decide)
    tokenHash := readString_record hb rfl (decodes_tokenHash _)
      (by rw [length_tokenHash]; decide) rfl
    role := readString_record hd rfl hrole.1 hrole.2 rfl
    subject := by
      rw [recordLine, written_object (.of_check rfl) quote_notMem_newline (v := e) rfl (by decide),
        (wtJsonEscape_eq he).1]
      rfl
    tokenId := readString_record ha rfl issued.id_decodes issued.id_short rfl
    issuedAt := readLong_record issuedAt.2 rfl rfl
    ttl := readLong_record issued.ttlSeconds.2 rfl rfl }

/-- What the readers make of a revocation. -/
structure RevokeRead (tokenId line : Bytes) : Prop where
  mentions : lineMentionsSchema line authTokenSchema = true
  eventType : wtJsonReadString line "eventType" 32 = .ok (bytes "revoke")
  tokenId : ∀ id, id.length < 64 → (wtJsonReadString line "tokenId" 64 = .ok id ↔ tokenId = id)

theorem revokeRead_record {tokenId : Bytes} {escaped : Literal} (now : Long)
    (h : wtJsonEscape tokenId 128 = some escaped) :
    RevokeRead (reread tokenId) (recordLine (revokeRecord escaped now)) where
  mentions := mentions_record (isPlain_iff.mp rfl) rfl
  eventType := wtJsonReadString_object (.of_check rfl) quote_notMem_newline
    (v := .ofPlain "revoke") rfl (by decide)
  tokenId := by
    intro id hid
    have hread := (wtJsonEscape_eq h).1
    by_cases hlength : (reread tokenId).length < 64
    · rw [recordLine,
        wtJsonReadString_object (.of_check rfl) quote_notMem_newline (v := escaped) rfl
        (by rwa [hread]), hread, StringField.ok.injEq]
    · rw [recordLine,
        wtJsonReadString_object_cut (.of_check rfl) quote_notMem_newline (v := escaped)
        rfl (by decide) (by rw [hread]; omega)]
      refine iff_of_false (by simp) ?_
      rintro rfl
      exact hlength hid

end read

/-! ## The walk over the log -/

section walk

variable {ledger : Ledger} {events : List TokenEvent} {event : TokenEvent} {line token : Bytes}

theorem bearerStep_issue {issued : Issued} {issuedAt : Long} (h : IssueRead issued issuedAt line)
    (walk : BearerWalk) :
    bearerStep token walk line =
      if tokenHash issued.token = tokenHash token then issued.walk issuedAt else walk := by
  have hne : tokenHash issued.token ≠ [] := by
    rw [← List.length_pos_iff, length_tokenHash]
    decide
  have hissues : issuesToken token line = true ↔ tokenHash issued.token = tokenHash token := by
    simp [issuesToken, h.mentions, h.eventType, h.tokenHash, hne, StringField.overwrite]
  simp only [bearerStep, hissues]
  split
  · rw [h.role, h.tokenId, h.issuedAt, h.ttl, StringField.overwrite_eq (wtJsonReadString line
      "subject" wtTaskAgentSize), h.subject]
    rfl
  · rfl

theorem bearerStep_revoke {tokenId : Bytes} (h : RevokeRead tokenId line) (walk : BearerWalk) :
    bearerStep token walk line = walk := by
  have hne : bytes "revoke" ≠ bytes "issue" := by decide
  simp [bearerStep, issuesToken, h.eventType, hne]

/-- The walk has the last issue of the token. -/
theorem TokenLog.bearerWalk_eq (h : TokenLog ledger events) (token : Bytes) :
    bearerWalk ledger token =
      ((lastOf (TokenEvent.issueOf token) events).map fun issue =>
        issue.1.walk issue.2).getD {} := by
  induction h with
  | nil => rfl
  | other _ hline ih =>
    rw [bearerWalk, List.foldl_append, List.foldl_cons, List.foldl_nil, bearerStep_other hline]
    exact ih
  | @event ledger events line event _ hline ih =>
    rw [bearerWalk, List.foldl_append, List.foldl_cons, List.foldl_nil, ← bearerWalk, ih,
      lastOf_append]
    cases hline with
    | @issue issued issuedAt record hrecord =>
      rw [bearerStep_issue (issueRead_record hrecord)]
      by_cases hhash : tokenHash issued.token = tokenHash token
      · simp [lastOf, TokenEvent.issueOf, hhash]
      · simp [lastOf, TokenEvent.issueOf, hhash]
    | revoke now hescape =>
      rw [bearerStep_revoke (revokeRead_record now hescape)]
      simp [lastOf, TokenEvent.issueOf]

/-- An id is revoked where an event revokes it. -/
theorem TokenLog.tokenRevoked_eq (h : TokenLog ledger events) {tokenId : Bytes}
    (hid : tokenId.length < 64) :
    tokenRevoked ledger tokenId = events.any (TokenEvent.revokes tokenId) := by
  have hne : bytes "issue" ≠ bytes "revoke" := by decide
  induction h with
  | nil => rfl
  | other _ hline ih =>
    rw [tokenRevoked, List.any_append, ← tokenRevoked, ih]
    simp [hline.revoke]
  | @event ledger events line event _ hline ih =>
    rw [tokenRevoked, List.any_append, ← tokenRevoked, ih, List.any_append]
    congr 1
    cases hline with
    | issue hrecord =>
      have hread := issueRead_record hrecord
      simp [revokesToken, hread.eventType, TokenEvent.revokes, hne]
    | revoke now hescape =>
      have hread := revokeRead_record now hescape
      rw [Bool.eq_iff_iff]
      simp [revokesToken, hread.mentions, hread.eventType, TokenEvent.revokes, hread.tokenId _ hid]

theorem TokenLog.fresh (h : ∀ line ∈ ledger, NoTokenEvent line) :
    TokenLog ledger [] := by
  induction ledger using List.reverseRecOn with
  | nil => exact .nil
  | append_singleton ledger line ih =>
    exact (ih fun l hl => h l (List.mem_append_left _ hl)).other (h line (by simp))

/-- **The daemon decides about a token as the list of its issues and revocations says.** -/
theorem TokenLog.validateBearerToken_eq (h : TokenLog ledger events) (config : WtConfig)
    (request peerIp requiredRole : Bytes) (now : Int) :
    validateBearerToken config ledger request peerIp requiredRole now =
      if !ipAllowedByConfig config peerIp then .error "ip_not_allowed"
      else match extractBearerToken request with
        | none => .error "bearer_required"
        | some token => decideToken events token requiredRole now := by
  unfold validateBearerToken decideToken
  split
  · rfl
  · cases extractBearerToken request with
    | none => rfl
    | some token =>
      dsimp only
      rw [h.bearerWalk_eq token]
      cases hlast : lastOf (TokenEvent.issueOf token) events with
      | none => rfl
      | some issue =>
        obtain ⟨issued, issuedAt⟩ := issue
        have hrevoked : tokenRevoked ledger (issued.walk issuedAt).tokenId =
            events.any (TokenEvent.revokes issued.tokenId) := h.tokenRevoked_eq issued.id_short
        rw [Option.map_some, Option.getD_some, hrevoked]
        rfl

end walk

end WovenTeam

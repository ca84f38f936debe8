import WovenTeam.Deliverable
import WovenTeam.Lib.JsonText
import WovenTeam.Projection

/-!
# The gates of a ship request

`handlePostTaskDeliverable` takes two flags out of its body by searching for their quoted names:
from the first place where the name stands, it goes to the next colon and looks for `true` behind
blanks. `gatesHold_iff` says for which bodies this reads the members of those names.
-/

namespace WovenTeam

open CText QuotedText JsonText

/-! ## The handler -/

/-- The flag the handler reads for a quoted name. -/
def flagGate (body word : Bytes) : Bool :=
  match strstr (quoted word) body with
  | none => false
  | some key =>
    match key.dropWhile (· != colon) with
    | [] => false
    | _ :: v => (bytes "true").isPrefixOf (v.dropWhile isBlank)

/-- `wtTaskProjectionResolveAcceptedArtifact`: nothing where there is no such task, else its
initiative and, where one is accepted, its artifact. -/
def resolveAcceptedArtifact (ledger : Ledger) (taskId : Bytes) : Option (Bytes × Option Bytes) :=
  (projectedRow ledger taskId).map fun row =>
    (snprintf wtTaskIdSize row.initiativeId,
      if row.artifactState = bytes "accepted" ∧ row.acceptedArtifactPath ≠ [] then
        some (snprintf 512 row.acceptedArtifactPath)
      else none)

/-- A field that is null where its buffer stays empty. -/
def optionalText (body : Bytes) (key : String) (size : Nat) : Option Bytes :=
  match (wtJsonReadString body key size).overwrite [] with
  | [] => none
  | b :: text => some (b :: text)

/-- The request the handler makes of its body and the accepted artifact. -/
def deliverableRequest (config : WtConfig) (body taskId : Bytes) (mode : WtDeliverableMode)
    (initiativeId artifactRel : Bytes) : WtDeliverableRequest where
  taskId := taskId
  initiativeId := initiativeId
  sourcePath := snprintf wtDeliverablePathSize
    (config.runtimeRootPath.text ++ slash :: (taskId ++ slash :: artifactRel))
  destBasename := optionalText body "destBasename" 256
  mode := mode
  reviewer := optionalText body "reviewer" wtTaskAgentSize
  createdBy := some ((optionalText body "createdBy" wtTaskAgentSize).getD (bytes "ceo"))
  supersedes := optionalText body "supersedes" wtDeliverableIdSize
  repoPath := optionalText body "repoPath" wtDeliverablePathSize
  yesGate := flagGate body (bytes "yes")
  prTitle := optionalText body "prTitle" 256
  prBody := optionalText body "prBody" 1024
  autonomyElevated := flagGate body (bytes "autonomyElevated")
  autonomyLevel := optionalText body "autonomyLevel" 64

/-- The errors of a ship that are the client's. -/
def isClientError (error : String) : Bool :=
  error == "secret_scan_block" || error == "missing_yes_gate" || error == "repo_path_missing" ||
    error == "repo_not_git"

def flagText (value : Bool) : Bytes := if value then bytes "true" else bytes "false"

def shipFailed (error : String) (result : WtDeliverableResult) : HttpReply where
  status := if isClientError error then 400 else if error = "source_missing" then 404 else 500
  reason :=
    if isClientError error then "Bad Request"
    else if error = "source_missing" then "Not Found" else "Internal Server Error"
  contentType := "application/json; charset=utf-8"
  body := snprintf 512 (bytes "\x7b\"ok\":false,\"error\":\"" ++ bytes error ++
    bytes "\",\"scanMatched\":" ++ flagText result.scan.matched ++ bytes ",\"hitCount\":" ++
    decimalNat result.scan.hitCount ++ bytes "\x7d\n")

def shipped (mode : WtDeliverableMode) (result : WtDeliverableResult) : HttpReply :=
  okReply (snprintf 2048 (bytes "\x7b\"ok\":true,\"deliverableId\":\"" ++ result.deliverableId ++
    bytes "\",\"deliverablePath\":\"" ++ result.deliverablePath ++ bytes "\",\"sha256\":\"" ++
    result.sha256 ++ bytes "\",\"sizeBytes\":" ++ decimal result.sizeBytes ++
    bytes ",\"packagingMode\":\"" ++ (wtDeliverableModeToString mode).text ++
    bytes "\",\"scan\":\x7b\"ran\":" ++ flagText result.scan.ran ++ bytes ",\"matched\":" ++
    flagText result.scan.matched ++ bytes ",\"hitCount\":" ++ decimalNat result.scan.hitCount ++
    bytes "\x7d\x7d\n"))

/-- The call of `wtDeliverableShip`, if there is one, and the reply. -/
def handlePostTaskDeliverable (world : World) (config : WtConfig) (ledger : Ledger)
    (request : Bytes) : Option (WtDeliverableRequest × Shipment) × HttpReply :=
  match requestBody request with
  | none => (none, badRequest "missing body")
  | some body =>
    match wtJsonReadString body "taskId" wtTaskIdSize with
    | .ok taskId =>
      match wtDeliverableModeFromString
          ((wtJsonReadString body "mode" wtNameSize).orElse config.deliverableDefaultMode.text) with
      | none => (none, badRequest "invalid mode")
      | some mode =>
        match resolveAcceptedArtifact ledger taskId with
        | none => (none, errorReply 404 "Not Found" "task_not_found")
        | some (_, none) => (none, errorReply 409 "Conflict" "task_not_accepted")
        | some (initiativeId, some artifactRel) =>
          let request := deliverableRequest config body taskId mode initiativeId artifactRel
          let shipment := wtDeliverableShip world config request
          (some (request, shipment), match shipment.error with
            | some error => shipFailed error shipment.result
            | none => shipped mode shipment.result)
    | _ => (none, badRequest "taskId required")

/-! ## What the gates read -/

/-- Behind the next colon and blanks stands `true`. -/
def TrueNext (rest : Bytes) : Prop :=
  ∃ mid blanks tail, rest = mid ++ colon :: (blanks ++ (bytes "true" ++ tail)) ∧ colon ∉ mid ∧
    ∀ b ∈ blanks, isBlank b

/-- The member is there and is the literal `true`. -/
def MemberTrue (word : Bytes) (ms : List JsonMember) : Prop :=
  ∃ m, jsonMemberNamed word ms = some m ∧ m.value = bytes "true"

/-- The text begins like what stands behind the member's name. -/
def Continues (m : JsonMember) (rest : Bytes) : Prop :=
  ∃ tail, rest = m.gap ++ colon :: (m.space ++ (m.value ++ tail))

/-- The bodies whose flag is read right: the quoted name stands nowhere, or first where it names
the member, or first at a place where what is read there is the same. -/
inductive FlagReads (word body : Bytes) (ms : List JsonMember) : Prop
  | nowhere (hno : ¬ quoted word <:+: body) (hfalse : ¬ MemberTrue word ms)
  | named {pre rest : Bytes} (hfirst : FirstAt (quoted word) body pre rest) {m : JsonMember}
      (hm : jsonMemberNamed word ms = some m) (hname : Continues m rest)
      (hblank : m.value = bytes "true" → ∀ b ∈ m.space, isBlank b)
  | elsewhere {pre rest : Bytes} (hfirst : FirstAt (quoted word) body pre rest)
      (hother : ∀ m, jsonMemberNamed word ms = some m → ¬ Continues m rest)
      (hsame : TrueNext rest ↔ MemberTrue word ms)

section gate

variable {word body : Bytes} {ms : List JsonMember}

theorem trueNext_iff {rest : Bytes} : TrueNext rest ↔
    match rest.dropWhile (· != colon) with
    | [] => False
    | _ :: v => bytes "true" <+: v.dropWhile isBlank := by
  constructor
  · rintro ⟨mid, blanks, tail, rfl, hmid, hblanks⟩
    have hdrop : (mid ++ colon :: (blanks ++ (bytes "true" ++ tail))).dropWhile (· != colon) =
        colon :: (blanks ++ (bytes "true" ++ tail)) := by
      rw [List.dropWhile_append_of_pos]
      · rfl
      · intro b hb
        have hne : b ≠ colon := fun h => hmid (h ▸ hb)
        simpa using hne
    rw [hdrop]
    dsimp only
    rw [List.dropWhile_append_of_pos hblanks]
    exact List.prefix_append (bytes "true") tail
  · intro h
    have hsplit := List.takeWhile_append_dropWhile (p := (· != colon)) (l := rest)
    split at h
    · exact h.elim
    · rename_i c v hdrop
      obtain ⟨tail, htail⟩ := h
      obtain rfl : c = colon := by
        have := List.head?_dropWhile_not (· != colon) rest
        rw [hdrop] at this
        simpa using this
      refine ⟨rest.takeWhile (· != colon), v.takeWhile isBlank, tail, ?_, ?_, ?_⟩
      · rw [htail, List.takeWhile_append_dropWhile, ← hdrop, hsplit]
      · intro hmem
        simpa using List.mem_takeWhile_imp hmem
      · exact fun b hb => List.mem_takeWhile_imp hb

/-- The gate is open where `true` stands next behind the first place of the quoted name. -/
theorem flagGate_iff (hword : colon ∉ quoted word) :
    flagGate body word = true ↔ ∃ pre rest, FirstAt (quoted word) body pre rest ∧ TrueNext rest := by
  have hkey : ∀ rest, (quoted word ++ rest).dropWhile (· != colon) =
      rest.dropWhile (· != colon) := by
    intro rest
    rw [List.dropWhile_append_of_pos]
    intro b hb
    have hne : b ≠ colon := fun h => hword (h ▸ hb)
    simpa using hne
  have hmatch : ∀ rest, (match (quoted word ++ rest).dropWhile (· != colon) with
      | [] => false
      | _ :: v => (bytes "true").isPrefixOf (v.dropWhile isBlank)) = true ↔ TrueNext rest := by
    intro rest
    rw [trueNext_iff, hkey]
    split <;> simp
  unfold flagGate
  cases hfound : strstr (quoted word) body with
  | none =>
    simp only [Bool.false_eq_true, false_iff, not_exists, not_and]
    intro pre rest hfirst
    rw [strstr_of_firstAt hfirst] at hfound
    cases hfound
  | some found =>
    obtain ⟨pre, rest, hfirst, rfl⟩ := firstAt_of_strstr hfound
    dsimp only
    rw [hmatch]
    constructor
    · exact fun h => ⟨pre, rest, hfirst, h⟩
    · rintro ⟨pre', rest', hfirst', h⟩
      rwa [hfirst.unique hfirst']

theorem white_dropBlanks {s t : Bytes} (hs : White s) (ht : ¬ ∀ b ∈ s, isBlank b) :
    ∃ b u, (s ++ t).dropWhile isBlank = b :: u ∧ isWhite b ∧ ¬ isBlank b := by
  induction s with
  | nil => simp at ht
  | cons b s ih =>
    by_cases hb : isBlank b = true
    · rw [List.cons_append, List.dropWhile_cons_of_pos hb]
      refine ih (fun c hc => hs c (List.mem_cons_of_mem b hc)) fun hall => ht ?_
      exact List.forall_mem_cons.mpr ⟨hb, hall⟩
    · exact ⟨b, s ++ t, List.dropWhile_cons_of_neg hb, hs b List.mem_cons_self, hb⟩

/-- Behind the name of a member the gate reads its value, unless a line break hides it. -/
theorem trueNext_continues {m : JsonMember} {rest : Bytes} (hvalue : Value m.value)
    (h : Continues m rest) :
    TrueNext rest ↔ m.value = bytes "true" ∧ ∀ b ∈ m.space, isBlank b := by
  obtain ⟨tail, rfl⟩ := h
  have hgap : colon ∉ m.gap := fun hmem =>
    absurd (m.white.2.1 colon hmem) (by decide)
  have hdrop : (m.gap ++ colon :: (m.space ++ (m.value ++ tail))).dropWhile (· != colon) =
      colon :: (m.space ++ (m.value ++ tail)) := by
    rw [List.dropWhile_append_of_pos]
    · rfl
    · intro b hb
      have hne : b ≠ colon := fun h => hgap (h ▸ hb)
      simpa using hne
  have hhead : (m.value ++ tail).dropWhile isBlank = m.value ++ tail := by
    obtain ⟨b, t, heq, hb⟩ := value_head hvalue
    rw [heq, List.cons_append, List.dropWhile_cons_of_neg]
    intro hblank
    rw [isBlank, Bool.or_eq_true, beq_iff_eq, beq_iff_eq] at hblank
    rcases hblank with rfl | rfl <;> exact absurd hb (by decide)
  rw [trueNext_iff, hdrop]
  dsimp only
  constructor
  · intro ht
    have hblank : ∀ b ∈ m.space, isBlank b := by
      by_contra hno
      obtain ⟨b, u, heq, hwhite, -⟩ := white_dropBlanks (t := m.value ++ tail) m.white.2.2.1 hno
      rw [heq] at ht
      have := (List.cons_prefix_cons.mp ht).1
      rw [← this] at hwhite
      exact absurd hwhite (by decide)
    refine ⟨?_, hblank⟩
    rw [List.dropWhile_append_of_pos hblank, hhead] at ht
    exact eq_true_of_prefix hvalue ht
  · rintro ⟨hv, hblank⟩
    rw [List.dropWhile_append_of_pos hblank, hhead, hv]
    exact List.prefix_append _ _

/-- **The gate reads the member of its name exactly for these bodies.** -/
theorem gate_iff (hword : colon ∉ quoted word) (hdoc : JsonDocument body ms) :
    (flagGate body word = true ↔ MemberTrue word ms) ↔ FlagReads word body ms := by
  rw [flagGate_iff hword]
  constructor
  · intro h
    cases hfound : strstr (quoted word) body with
    | none =>
      have hno : ¬ quoted word <:+: body := by
        rw [← strstr_isSome_iff, hfound]
        simp
      refine .nowhere hno fun hm => ?_
      obtain ⟨pre, rest, hfirst, -⟩ := h.mpr hm
      rw [strstr_of_firstAt hfirst] at hfound
      cases hfound
    | some found =>
      obtain ⟨pre, rest, hfirst, -⟩ := firstAt_of_strstr hfound
      have hnext : TrueNext rest ↔ MemberTrue word ms := by
        rw [← h]
        refine ⟨fun ht => ⟨pre, rest, hfirst, ht⟩, ?_⟩
        rintro ⟨pre', rest', hfirst', ht⟩
        rwa [hfirst.unique hfirst']
      by_cases hnamed : ∃ m, jsonMemberNamed word ms = some m ∧ Continues m rest
      · obtain ⟨m, hm, hcontinues⟩ := hnamed
        refine .named hfirst hm hcontinues fun hv => ?_
        have hvalue := hdoc.value m (List.mem_of_find?_eq_some hm)
        exact ((trueNext_continues hvalue hcontinues).mp (hnext.mpr ⟨m, hm, hv⟩)).2
      · exact .elsewhere hfirst (fun m hm hc => hnamed ⟨m, hm, hc⟩) hnext
  · intro h
    cases h with
    | nowhere hno hfalse =>
      refine iff_of_false ?_ hfalse
      rintro ⟨pre, rest, hfirst, -⟩
      exact hno (hfirst.here ▸ List.infix_append' pre (quoted word) rest)
    | @named pre rest hfirst m hm hname hblank =>
      have hvalue := hdoc.value m (List.mem_of_find?_eq_some hm)
      constructor
      · rintro ⟨pre', rest', hfirst', ht⟩
        rw [hfirst'.unique hfirst] at ht
        exact ⟨m, hm, ((trueNext_continues hvalue hname).mp ht).1⟩
      · rintro ⟨m', hm', hv⟩
        obtain rfl := Option.some.inj (hm.symm.trans hm')
        exact ⟨pre, rest, hfirst, (trueNext_continues hvalue hname).mpr ⟨hv, hblank hv⟩⟩
    | @elsewhere pre rest hfirst hother hsame =>
      rw [← hsame]
      constructor
      · rintro ⟨pre', rest', hfirst', ht⟩
        rwa [hfirst.unique hfirst']
      · exact fun ht => ⟨pre, rest, hfirst, ht⟩

end gate

/-! ## The call -/

/-- The call gets both flags as the members say, and without the first it stops at the gate. -/
structure GatesRead (world : World) (config : WtConfig) (ms : List JsonMember)
    (request : WtDeliverableRequest) (shipment : Shipment) : Prop where
  yes : request.yesGate = true ↔ MemberTrue (bytes "yes") ms
  elevated : request.autonomyElevated = true ↔ MemberTrue (bytes "autonomyElevated") ms
  closed : ¬ MemberTrue (bytes "yes") ms → shipment.error.isSome ∧ shipment.steps = [] ∧
    (Checked world config request → shipment.error = some "missing_yes_gate")

theorem handlePostTaskDeliverable_call {world : World} {config : WtConfig} {ledger : Ledger}
    {request body : Bytes} (hbody : requestBody request = some body)
    {shipRequest : WtDeliverableRequest} {shipment : Shipment}
    (h : (handlePostTaskDeliverable world config ledger request).1 = some (shipRequest, shipment)) :
    shipRequest.yesGate = flagGate body (bytes "yes") ∧
      shipRequest.autonomyElevated = flagGate body (bytes "autonomyElevated") ∧
      shipment = wtDeliverableShip world config shipRequest := by
  unfold handlePostTaskDeliverable at h
  rw [hbody] at h
  dsimp only at h
  split at h
  · split at h
    · cases h
    · split at h
      · cases h
      · cases h
      · cases h
        exact ⟨rfl, rfl, rfl⟩
  · cases h

/-- **A pull request has its gates read right exactly for the bodies in which both names are
first found where they are members.** -/
theorem gatesRead_iff {world : World} {config : WtConfig} {ledger : Ledger} {request body : Bytes}
    {ms : List JsonMember} {shipRequest : WtDeliverableRequest} {shipment : Shipment}
    (hbody : requestBody request = some body) (hdoc : JsonDocument body ms)
    (hcall : (handlePostTaskDeliverable world config ledger request).1 =
      some (shipRequest, shipment)) (hmode : shipRequest.mode = .pr) :
    GatesRead world config ms shipRequest shipment ↔
      FlagReads (bytes "yes") body ms ∧ FlagReads (bytes "autonomyElevated") body ms := by
  obtain ⟨hyes, helevated, rfl⟩ := handlePostTaskDeliverable_call hbody hcall
  rw [← gate_iff (by decide) hdoc, ← gate_iff (by decide) hdoc, ← hyes, ← helevated]
  constructor
  · exact fun h => ⟨h.yes, h.elevated⟩
  · rintro ⟨h, h'⟩
    refine ⟨h, h', fun hno => ship_of_closedGate hmode ?_⟩
    rw [Bool.eq_false_iff]
    exact fun hopen => hno (h.mp hopen)

/-! ### Bodies -/

/-- A string without escapes. -/
def plainString (s : String) : JsonString :=
  (bytes s).filterMap fun b =>
    if h : 32 ≤ b ∧ b ≠ quote ∧ b ≠ backslash then some (.byte b h) else none

def plainMember (name : String) (space value : Bytes) (h : White space) : JsonMember :=
  ⟨[], plainString name, [], space, value, [], by simp [White], by simp [White], h, by simp [White]⟩

def textMember (name value : String) : JsonMember :=
  plainMember name [] (plainString value).render (by simp [White])

/-- A task with an accepted artifact. -/
def acceptedLedger : Ledger :=
  [fieldsLine [("schema", .text (bytes "woventeam.task_package.v0.1")),
      ("taskId", .text (bytes "t1")), ("initiativeId", .text (bytes "init_1"))],
    fieldsLine [("schema", .text (bytes "woventeam.task_event.v0.1")),
      ("taskId", .text (bytes "t1")), ("eventType", .text (bytes "artifact")),
      ("artifactState", .text (bytes "accepted")), ("artifactPath", .text (bytes "result.md"))]]

def shipHead : Bytes := bytes "POST /api/task-deliverable HTTP/1.1\r\n\r\n"

def yesBody : Bytes := bytes "\x7b\"taskId\":\"t1\",\"mode\":\"pr\",\"yes\": true\x7d"

def yesMembers : List JsonMember :=
  [textMember "taskId" "t1", textMember "mode" "pr",
    plainMember "yes" [32] (bytes "true") (by simp [White, isWhite])]

theorem value_textMember (name value : String) : Value (textMember name value).value :=
  .string (plainString value)

theorem document_yesBody : JsonDocument yesBody yesMembers := by
  have h : JsonDocument
      ([] ++ (123 :: (commaSeparated (yesMembers.map JsonMember.render) ++ [125]) ++ []))
      yesMembers := by
    refine .object (by simp [White]) (by simp [White]) (by simp [yesMembers]) ?_
    simp only [yesMembers, List.forall_mem_cons]
    exact ⟨value_textMember .., value_textMember .., .true, by simp⟩
  have heq : [] ++ (123 :: (commaSeparated (yesMembers.map JsonMember.render) ++ [125]) ++ []) =
      yesBody := by decide +kernel
  rwa [heq] at h

/-- What the handler makes of a body about that task. -/
def acceptedRequest (body : Bytes) : WtDeliverableRequest :=
  deliverableRequest {} body (bytes "t1") .pr (bytes "init_1") (bytes "result.md")

theorem gatesRead_iff_yes :
    GatesRead refusedWorld {} yesMembers (acceptedRequest yesBody)
      (wtDeliverableShip refusedWorld {} (acceptedRequest yesBody)) ↔
      FlagReads (bytes "yes") yesBody yesMembers ∧
        FlagReads (bytes "autonomyElevated") yesBody yesMembers :=
  @gatesRead_iff refusedWorld {} acceptedLedger (shipHead ++ yesBody) yesBody yesMembers _ _
    (by decide +kernel) document_yesBody (by decide +kernel) rfl

/-- The word is the value of another member, and a third one is true. -/
def noteBody : Bytes :=
  bytes "\x7b\"taskId\":\"t1\",\"mode\":\"pr\",\"note\":\"yes\",\"draft\": true\x7d"

def noteMembers : List JsonMember :=
  [textMember "taskId" "t1", textMember "mode" "pr", textMember "note" "yes",
    plainMember "draft" [32] (bytes "true") (by simp [White, isWhite])]

theorem document_noteBody : JsonDocument noteBody noteMembers := by
  have h : JsonDocument
      ([] ++ (123 :: (commaSeparated (noteMembers.map JsonMember.render) ++ [125]) ++ []))
      noteMembers := by
    refine .object (by simp [White]) (by simp [White]) (by simp [noteMembers]) ?_
    simp only [noteMembers, List.forall_mem_cons]
    exact ⟨value_textMember .., value_textMember .., value_textMember .., .true, by simp⟩
  have heq : [] ++ (123 :: (commaSeparated (noteMembers.map JsonMember.render) ++ [125]) ++ []) =
      noteBody := by decide +kernel
  rwa [heq] at h

/-- A pull request is opened without a yes. -/
theorem not_gatesRead : ¬ ∀ world config ledger request body ms shipRequest shipment,
    requestBody request = some body → JsonDocument body ms →
    (handlePostTaskDeliverable world config ledger request).1 = some (shipRequest, shipment) →
    shipRequest.mode = .pr → GatesRead world config ms shipRequest shipment := by
  intro h
  have hread := h refusedWorld {} acceptedLedger (shipHead ++ noteBody) noteBody noteMembers
    (acceptedRequest noteBody) (wtDeliverableShip refusedWorld {} (acceptedRequest noteBody))
    (by decide +kernel) document_noteBody (by decide +kernel) rfl
  have hopen : flagGate noteBody (bytes "yes") = true := by decide +kernel
  obtain ⟨m, hm, -⟩ := hread.yes.mp hopen
  have hnone : jsonMemberNamed (bytes "yes") noteMembers = none := by rfl
  rw [hnone] at hm
  cases hm

end WovenTeam

import WovenTeam.Lib.ShellText
import WovenTeam.Deliverable
import WovenTeam.Claims

/-!
# Commands for the shell

The commands that `curlPostJson`, `shipTarball` and `shipBranch` print for `system`, each with the
template it is printed from: which of its parts are fixed text and in which quotes the values
stand. `commandsIntact_iff` says for which values every byte of every command has the role its
template gives it.
-/

namespace WovenTeam

open CText ShellText

/-! ## The remote agent -/

def isAlnum (b : UInt8) : Bool :=
  isDigit b || (65 ≤ b && b ≤ 90) || (97 ≤ b && b ≤ 122)

/-- The texts the remote agent lets into a command. -/
def shellSafeText (value : Bytes) : Bool :=
  value != [] && value.all fun b =>
    isAlnum b || b == 46 || b == colon || b == slash || b == 95 || b == 45 || b == 61

/-- The letters that `mkstemp` puts in place of the six `X`. -/
structure TempName where
  suffix : Bytes
  length : suffix.length = 6
  letters : suffix.all isAlnum = true

def TempName.path (temp : TempName) : Bytes := bytes "/tmp/wt-agent-remote-" ++ temp.suffix

/-- A call of `curlPostJson`. -/
structure CurlCall where
  path : Bytes
  json : Bytes
  deriving DecidableEq

section remote

variable (agentName remoteUrl bearerToken hostName : Bytes)

def curlCommand (call : CurlCall) (temp : TempName) : Bytes :=
  snprintf 4096 (bytes "curl -sS -H 'Content-Type: application/json' -H 'Authorization: Bearer " ++
    bearerToken ++ bytes "' -d '" ++ call.json ++ bytes "' '" ++ remoteUrl ++ call.path ++
    bytes "' > '" ++ temp.path ++ bytes "'")

def capabilityCall : CurlCall where
  path := bytes "/api/host-capabilities"
  json := snprintf 1024 (bytes "\x7b\"host\":\"" ++ hostName ++ bytes "\",\"agent\":\"" ++ agentName ++
    bytes "\",\"profiles\":\"" ++
    (if agentName = bytes "chatgpt" then bytes "observe,repo_branch,test_local"
      else bytes "observe,ops_read") ++
    bytes "\",\"adapters\":\"" ++ agentName ++ bytes "\"\x7d")

def claimCall : CurlCall where
  path := bytes "/api/remote-claim"
  json := snprintf 512 (bytes "\x7b\"host\":\"" ++ hostName ++ bytes "\",\"agent\":\"" ++ agentName ++
    bytes "\"\x7d")

/-- `postRemoteStatus`. -/
def statusCall (taskId : Bytes) (status message : String) : CurlCall where
  path := bytes "/api/remote-task-event"
  json := snprintf 1024 (bytes "\x7b\"agent\":\"" ++ agentName ++ bytes "\",\"taskId\":\"" ++ taskId ++
    bytes "\",\"status\":\"" ++ bytes status ++ bytes "\",\"message\":\"" ++ bytes message ++
    bytes "\"\x7d")

def runningCall (taskId : Bytes) : CurlCall :=
  statusCall agentName taskId "running" "Remote stub agent accepted task."

def completeCall (taskId : Bytes) : CurlCall :=
  statusCall agentName taskId "complete" "Remote stub agent completed task."

def isOk (response : Option Bytes) : Bool :=
  response.any fun text => (strstr (bytes "\"ok\":true") text).isSome

/-- The task a response to a claim hands over. -/
def claimedTask (response : Bytes) : Option Bytes :=
  if (strstr (bytes "token_revoked") response).isSome then none
  else if (strstr (bytes "capability_unmet") response).isSome then none
  else if (strstr (bytes "\"claimed\":true") response).isNone then none
  else (wtJsonReadString response "taskId" wtTaskIdSize).toOption

/-- The calls of `handleRemoteOnce`, given what each leaves in its response buffer, or nothing
where `curl` fails. -/
def handleRemoteOnce (responses : Nat → Option Bytes) : List CurlCall :=
  if !(shellSafeText remoteUrl && shellSafeText bearerToken && shellSafeText hostName) then []
  else if !isOk (responses 0) then [capabilityCall agentName hostName]
  else
    match (responses 1).bind claimedTask with
    | none => [capabilityCall agentName hostName, claimCall agentName hostName]
    | some taskId =>
      if !isOk (responses 2) then
        [capabilityCall agentName hostName, claimCall agentName hostName,
          runningCall agentName taskId]
      else
        [capabilityCall agentName hostName, claimCall agentName hostName,
          runningCall agentName taskId, completeCall agentName taskId]

/-- The template of the command. -/
def curlPieces (call : CurlCall) (temp : TempName) : List Piece :=
  [.fixed "curl -sS -H ", .single (bytes "Content-Type: application/json"), .fixed " -H ",
    .single (bytes "Authorization: Bearer " ++ bearerToken), .fixed " -d ", .single call.json,
    .fixed " ", .single (remoteUrl ++ call.path), .fixed " > ", .single temp.path]

theorem render_curlPieces (call : CurlCall) (temp : TempName) :
    curlCommand remoteUrl bearerToken call temp =
      snprintf 4096 (render (curlPieces remoteUrl bearerToken call temp)) := by
  have hhead : bytes "curl -sS -H 'Content-Type: application/json' -H 'Authorization: Bearer " =
      bytes "curl -sS -H " ++ apostrophe :: (bytes "Content-Type: application/json" ++
        apostrophe :: (bytes " -H " ++ apostrophe :: bytes "Authorization: Bearer ")) := by decide
  have hdata : bytes "' -d '" = apostrophe :: (bytes " -d " ++ [apostrophe]) := by decide
  have hurl : bytes "' '" = apostrophe :: (bytes " " ++ [apostrophe]) := by decide
  have hout : bytes "' > '" = apostrophe :: (bytes " > " ++ [apostrophe]) := by decide
  have hend : bytes "'" = [apostrophe] := by decide
  unfold curlCommand
  rw [hhead, hdata, hurl, hout, hend]
  simp only [curlPieces, render, Piece.render, Piece.fixed, List.flatMap_cons, List.flatMap_nil,
    List.append_assoc, List.cons_append, List.nil_append, List.append_nil]

end remote

/-- Every command that follows a claim with this response is as its template has it. -/
def RemoteIntact (agentName remoteUrl bearerToken hostName response : Bytes) : Prop :=
  ∀ responses : Nat → Option Bytes, responses 1 = some response →
    ∀ call ∈ handleRemoteOnce agentName remoteUrl bearerToken hostName responses,
      ∀ temp, Intact (curlCommand remoteUrl bearerToken call temp)
        (curlPieces remoteUrl bearerToken call temp)

/-- The command fits its buffer. -/
def CurlFits (remoteUrl bearerToken : Bytes) (call : CurlCall) : Prop :=
  remoteUrl.length + bearerToken.length + call.path.length + call.json.length < 3983

/-- The condition of the remote agent: its commands fit, and the id of the task it is given has no
apostrophe. -/
structure RemoteSafe (agentName remoteUrl bearerToken hostName response : Bytes) : Prop where
  capability : CurlFits remoteUrl bearerToken (capabilityCall agentName hostName)
  claim : CurlFits remoteUrl bearerToken (claimCall agentName hostName)
  task : ∀ taskId, claimedTask response = some taskId → apostrophe ∉ taskId ∧
    CurlFits remoteUrl bearerToken (runningCall agentName taskId) ∧
    CurlFits remoteUrl bearerToken (completeCall agentName taskId)

section remote

variable {agentName remoteUrl bearerToken hostName response : Bytes}

theorem apostrophe_notMem_of_shellSafe {value : Bytes} (h : shellSafeText value) :
    apostrophe ∉ value := by
  intro hmem
  simp only [shellSafeText, Bool.and_eq_true, List.all_eq_true] at h
  exact absurd (h.2 apostrophe hmem) (by decide)

theorem apostrophe_notMem_temp (temp : TempName) : apostrophe ∉ temp.path := by
  intro hmem
  rcases List.mem_append.mp hmem with h | h
  · exact absurd h (by decide)
  · exact absurd (List.all_eq_true.mp temp.letters apostrophe h) (by decide)

theorem length_curlPieces (call : CurlCall) (temp : TempName) :
    (render (curlPieces remoteUrl bearerToken call temp)).length =
      113 + remoteUrl.length + bearerToken.length + call.path.length + call.json.length := by
  have htemp : temp.path.length = 27 := by
    rw [TempName.path, List.length_append, temp.length, length_bytes]
    rfl
  simp only [curlPieces, render, Piece.render, Piece.fixed, List.flatMap_cons, List.flatMap_nil,
    List.length_append, List.length_cons, List.length_nil, length_bytes, htemp,
    String.reduceToList]
  omega

/-- A call of the remote agent is printed as its template has it where it fits and its body has no
apostrophe. -/
theorem intact_curl_iff (hurl : shellSafeText remoteUrl) (htoken : shellSafeText bearerToken)
    {call : CurlCall} (hpath : apostrophe ∉ call.path) :
    (∀ temp, Intact (curlCommand remoteUrl bearerToken call temp)
        (curlPieces remoteUrl bearerToken call temp)) ↔
      CurlFits remoteUrl bearerToken call ∧ apostrophe ∉ call.json := by
  have hintact : ∀ temp, Intact (curlCommand remoteUrl bearerToken call temp)
      (curlPieces remoteUrl bearerToken call temp) ↔
        CurlFits remoteUrl bearerToken call ∧ apostrophe ∉ call.json := by
    intro temp
    have htype : apostrophe ∉ bytes "Content-Type: application/json" := by decide
    have hbearer : apostrophe ∉ bytes "Authorization: Bearer " := by decide
    rw [render_curlPieces, intact_snprintf_iff (by decide), length_curlPieces, CurlFits]
    simp only [curlPieces, Piece.fixed, List.forall_mem_cons, Piece.Safe, List.mem_append,
      htype, hbearer, apostrophe_notMem_of_shellSafe hurl, apostrophe_notMem_of_shellSafe htoken,
      hpath, apostrophe_notMem_temp, List.not_mem_nil, or_self, not_false_eq_true, true_and,
      false_imp_iff, implies_true, and_true]
    exact and_congr_left' (by omega)
  constructor
  · exact fun h => (hintact ⟨List.replicate 6 97, by decide, by decide⟩).mp (h _)
  · exact fun h temp => (hintact temp).mpr h

theorem apostrophe_notMem_snprintf {size : Nat} {s : Bytes} (h : apostrophe ∉ s) :
    apostrophe ∉ snprintf size s := fun hmem => h (List.mem_of_mem_take hmem)

theorem apostrophe_notMem_known {agent : Bytes} (h : isKnownAgent agent) : apostrophe ∉ agent := by
  simp only [isKnownAgent, Bool.or_eq_true, beq_iff_eq] at h
  rcases h with (rfl | rfl) | rfl <;> decide

theorem length_known {agent : Bytes} (h : isKnownAgent agent) : agent.length ≤ 7 := by
  simp only [isKnownAgent, Bool.or_eq_true, beq_iff_eq] at h
  rcases h with (rfl | rfl) | rfl <;> decide

theorem apostrophe_notMem_capability (hagent : isKnownAgent agentName)
    (hhost : shellSafeText hostName) : apostrophe ∉ (capabilityCall agentName hostName).json := by
  have hname := apostrophe_notMem_known hagent
  have hsafe := apostrophe_notMem_of_shellSafe hhost
  refine apostrophe_notMem_snprintf ?_
  simp only [List.mem_append, not_or]
  refine ⟨⟨⟨⟨⟨⟨⟨⟨by decide, hsafe⟩, by decide⟩, hname⟩, by decide⟩, ?_⟩, by decide⟩, hname⟩, by decide⟩
  split <;> decide

theorem apostrophe_notMem_claim (hagent : isKnownAgent agentName)
    (hhost : shellSafeText hostName) : apostrophe ∉ (claimCall agentName hostName).json := by
  have hname := apostrophe_notMem_known hagent
  have hsafe := apostrophe_notMem_of_shellSafe hhost
  refine apostrophe_notMem_snprintf ?_
  simp only [List.mem_append, not_or]
  exact ⟨⟨⟨⟨by decide, hsafe⟩, by decide⟩, hname⟩, by decide⟩

/-- The body of a status post is long enough for the id of the task. -/
theorem apostrophe_mem_status (hagent : isKnownAgent agentName) {taskId : Bytes}
    (hlen : taskId.length < wtTaskIdSize) {status message : String}
    (hstatus : apostrophe ∉ bytes status) (hmessage : apostrophe ∉ bytes message) :
    apostrophe ∉ (statusCall agentName taskId status message).json ↔ apostrophe ∉ taskId := by
  have hname := apostrophe_notMem_known hagent
  have hshort := length_known hagent
  constructor
  · intro h hmem
    refine h ?_
    have hcut : ∀ {head tail : Bytes}, head.length < 1023 → apostrophe ∈ head →
        apostrophe ∈ snprintf 1024 (head ++ tail) := by
      intro head tail hhead hin
      rw [snprintf, List.take_append, List.mem_append]
      exact .inl (by rwa [List.take_of_length_le (by omega)])
    have hassoc : ∀ rest : Bytes, bytes "\x7b\"agent\":\"" ++ agentName ++
        bytes "\",\"taskId\":\"" ++ taskId ++ rest =
          (bytes "\x7b\"agent\":\"" ++ agentName ++ bytes "\",\"taskId\":\"" ++ taskId) ++ rest :=
      fun rest => rfl
    rw [statusCall]
    simp only [List.append_assoc]
    rw [← List.append_assoc, ← List.append_assoc, ← List.append_assoc]
    refine hcut ?_ ?_
    · simp only [List.length_append, length_bytes, String.reduceToList, List.length_cons,
        List.length_nil]
      unfold wtTaskIdSize at hlen
      omega
    · exact List.mem_append_right _ hmem
  · intro h
    refine apostrophe_notMem_snprintf ?_
    simp only [List.mem_append, not_or]
    exact ⟨⟨⟨⟨⟨⟨⟨⟨by decide, hname⟩, by decide⟩, h⟩, by decide⟩, hstatus⟩, by decide⟩, hmessage⟩,
      by decide⟩

theorem claimedTask_length {taskId : Bytes} (h : claimedTask response = some taskId) :
    taskId.length < wtTaskIdSize := by
  unfold claimedTask at h
  split at h
  · cases h
  split at h
  · cases h
  split at h
  · cases h
  · exact wtJsonReadString_length (StringField.toOption_eq_some_iff.mp h)

/-- The calls are among these four. -/
theorem mem_handleRemoteOnce {responses : Nat → Option Bytes} (hclaim : responses 1 = some response)
    {call : CurlCall}
    (h : call ∈ handleRemoteOnce agentName remoteUrl bearerToken hostName responses) :
    call = capabilityCall agentName hostName ∨ call = claimCall agentName hostName ∨
      ∃ taskId, claimedTask response = some taskId ∧
        (call = runningCall agentName taskId ∨ call = completeCall agentName taskId) := by
  unfold handleRemoteOnce at h
  rw [hclaim, Option.bind_some] at h
  split at h
  · cases h
  split at h
  · exact .inl (List.mem_singleton.mp h)
  cases htask : claimedTask response with
  | none =>
    simp only [htask, List.mem_cons, List.not_mem_nil, or_false] at h
    exact h.imp_right .inl
  | some taskId =>
    simp only [htask] at h
    split at h
    · simp only [List.mem_cons, List.not_mem_nil, or_false] at h
      rcases h with h | h | h
      · exact .inl h
      · exact .inr (.inl h)
      · exact .inr (.inr ⟨taskId, rfl, .inl h⟩)
    · simp only [List.mem_cons, List.not_mem_nil, or_false] at h
      rcases h with h | h | h | h
      · exact .inl h
      · exact .inr (.inl h)
      · exact .inr (.inr ⟨taskId, rfl, .inl h⟩)
      · exact .inr (.inr ⟨taskId, rfl, .inr h⟩)

/-- A server that accepts everything. -/
def acceptingResponses (response : Bytes) (k : Nat) : Option Bytes :=
  if k = 1 then some response else some (bytes "\"ok\":true")

theorem handleRemoteOnce_accepting (hurl : shellSafeText remoteUrl)
    (htoken : shellSafeText bearerToken) (hhost : shellSafeText hostName) :
    handleRemoteOnce agentName remoteUrl bearerToken hostName (acceptingResponses response) =
      [capabilityCall agentName hostName, claimCall agentName hostName] ++
        match claimedTask response with
        | none => []
        | some taskId => [runningCall agentName taskId, completeCall agentName taskId] := by
  have hok : isOk (some (bytes "\"ok\":true")) = true := by decide +kernel
  have h0 : acceptingResponses response 0 = some (bytes "\"ok\":true") := rfl
  have h1 : acceptingResponses response 1 = some response := rfl
  have h2 : acceptingResponses response 2 = some (bytes "\"ok\":true") := rfl
  unfold handleRemoteOnce
  rw [h0, h1, h2, hurl, htoken, hhost, hok, Option.bind_some]
  cases claimedTask response <;> rfl

/-- **The remote agent's commands are as their templates have them exactly where they fit and the
task's id has no apostrophe**; where the agent's own texts are not safe it runs none. -/
theorem remoteIntact_iff (hagent : isKnownAgent agentName) :
    RemoteIntact agentName remoteUrl bearerToken hostName response ↔
      (shellSafeText remoteUrl → shellSafeText bearerToken → shellSafeText hostName →
        RemoteSafe agentName remoteUrl bearerToken hostName response) := by
  have hcapabilityPath : apostrophe ∉ (capabilityCall agentName hostName).path := by
    simp only [capabilityCall]
    decide
  have hclaimPath : apostrophe ∉ (claimCall agentName hostName).path := by
    simp only [claimCall]
    decide
  have hstatusPath : ∀ taskId status message,
      apostrophe ∉ (statusCall agentName taskId status message).path := by
    intro taskId status message
    simp only [statusCall]
    decide
  have hstatus : shellSafeText remoteUrl → shellSafeText bearerToken →
      ∀ taskId status message, taskId.length < wtTaskIdSize →
      apostrophe ∉ bytes status → apostrophe ∉ bytes message →
      ((∀ temp, Intact (curlCommand remoteUrl bearerToken
          (statusCall agentName taskId status message) temp) (curlPieces remoteUrl bearerToken
          (statusCall agentName taskId status message) temp)) ↔
        CurlFits remoteUrl bearerToken (statusCall agentName taskId status message) ∧
          apostrophe ∉ taskId) := by
    intro hurl htoken taskId status message hlen hs hm
    rw [intact_curl_iff hurl htoken (hstatusPath taskId status message),
      apostrophe_mem_status hagent hlen hs hm]
  constructor
  · intro h hurl htoken hhost
    have hcalls := h (acceptingResponses response) rfl
    rw [handleRemoteOnce_accepting hurl htoken hhost] at hcalls
    refine ⟨?_, ?_, ?_⟩
    · exact ((intact_curl_iff hurl htoken hcapabilityPath).mp (hcalls _ (by simp))).1
    · exact ((intact_curl_iff hurl htoken hclaimPath).mp (hcalls _ (by simp))).1
    · intro taskId htask
      have hlen := claimedTask_length htask
      rw [htask] at hcalls
      have hrunning := (hstatus hurl htoken taskId _ _ hlen (by decide) (by decide)).mp
        (hcalls (runningCall agentName taskId) (by simp))
      have hcomplete := (hstatus hurl htoken taskId _ _ hlen (by decide) (by decide)).mp
        (hcalls (completeCall agentName taskId) (by simp))
      exact ⟨hrunning.2, hrunning.1, hcomplete.1⟩
  · intro h responses hresponse call hcall
    have hsafe : shellSafeText remoteUrl ∧ shellSafeText bearerToken ∧ shellSafeText hostName := by
      by_contra hno
      have hnone : (shellSafeText remoteUrl && shellSafeText bearerToken &&
          shellSafeText hostName) = false := by
        rw [Bool.eq_false_iff, Ne, Bool.and_eq_true, Bool.and_eq_true, and_assoc]
        exact hno
      rw [handleRemoteOnce, hnone] at hcall
      cases hcall
    obtain ⟨hurl, htoken, hhost⟩ := hsafe
    obtain ⟨hcapability, hclaim, htask⟩ := h hurl htoken hhost
    rcases mem_handleRemoteOnce hresponse hcall with rfl | rfl | ⟨taskId, htaskId, rfl | rfl⟩
    · exact (intact_curl_iff hurl htoken hcapabilityPath).mpr
        ⟨hcapability, apostrophe_notMem_capability hagent hhost⟩
    · exact (intact_curl_iff hurl htoken hclaimPath).mpr
        ⟨hclaim, apostrophe_notMem_claim hagent hhost⟩
    · obtain ⟨hplain, hrunning, -⟩ := htask taskId htaskId
      exact (hstatus hurl htoken taskId _ _ (claimedTask_length htaskId) (by decide)
        (by decide)).mpr ⟨hrunning, hplain⟩
    · obtain ⟨hplain, -, hcomplete⟩ := htask taskId htaskId
      exact (hstatus hurl htoken taskId _ _ (claimedTask_length htaskId) (by decide)
        (by decide)).mpr ⟨hcomplete, hplain⟩

end remote

/-! ## Shipping -/

section ship

variable (config : WtConfig) (request : WtDeliverableRequest) (deliverableId : Bytes)

def tarPieces : List Piece :=
  [.fixed "tar -czf ", .single (tarballPath config request), .fixed " -C ",
    .single (sourceParts request).1, .fixed " ", .single (sourceParts request).2,
    .fixed " 2>/dev/null"]

def checkoutPieces : List Piece :=
  [.fixed "git fetch origin ", .single (branchName config request),
    .fixed " 2>/dev/null; git checkout ", .single (branchName config request),
    .fixed " 2>/dev/null || git checkout -b ", .single (branchName config request),
    .fixed " >/dev/null 2>&1"]

def pushPieces : List Piece :=
  [.fixed "git add ", .single (repoRelPath request), .fixed " && git commit -m ",
    .double (commitMsg request deliverableId), .fixed " >/dev/null 2>&1 && git push -u origin ",
    .single (branchName config request), .fixed " >/dev/null 2>&1"]

def pullRequestPieces : List Piece :=
  [.fixed "gh pr create --head ", .single (branchName config request), .fixed " --title ",
    .double (prTitleText request deliverableId), .fixed " --body ",
    .double (prBodyText request deliverableId), .fixed " >/dev/null 2>&1"]

/-- The template of `runIn` around that of its command. -/
def runInPieces (pieces : List Piece) : List Piece :=
  .fixed "cd " :: .single (repoDir request) :: .fixed " && " :: pieces

/-- The command of a step is as its template has it. -/
def StepIntact : Step → Prop
  | .tar command => Intact command (tarPieces config request)
  | .checkout command => Intact command (runInPieces request (checkoutPieces config request))
  | .push command => Intact command (runInPieces request (pushPieces config request deliverableId))
  | .pullRequest command =>
    Intact command (runInPieces request (pullRequestPieces config request deliverableId))
  | _ => True

/-- The values of a command that `runIn` wraps are safe, and it fits both buffers. -/
structure RunInSafe (pieces : List Piece) : Prop where
  inner : (render pieces).length < 2048
  outer : (render (runInPieces request pieces)).length < 4096
  safe : ∀ piece ∈ runInPieces request pieces, piece.Safe

theorem runIn_intact_iff (pieces : List Piece) :
    Intact (runIn (repoDir request) (snprintf 2048 (render pieces))) (runInPieces request pieces) ↔
      RunInSafe request pieces := by
  have hrender : ∀ inner : Bytes, bytes "cd '" ++ repoDir request ++ bytes "' && " ++ inner =
      render [.fixed "cd ", .single (repoDir request), .fixed " && "] ++ inner := by
    intro inner
    have hcd : bytes "cd '" = bytes "cd " ++ [apostrophe] := by decide
    have hand : bytes "' && " = apostrophe :: bytes " && " := by decide
    rw [hcd, hand]
    simp only [render, Piece.render, Piece.fixed, List.flatMap_cons, List.flatMap_nil,
      List.append_assoc, List.cons_append, List.nil_append, List.append_nil]
  have hpieces : render (runInPieces request pieces) =
      render [.fixed "cd ", .single (repoDir request), .fixed " && "] ++ render pieces := by
    simp [runInPieces, render]
  rw [runIn, hrender]
  by_cases hinner : (render pieces).length < 2048
  · rw [snprintf_of_lt hinner, ← hpieces, intact_snprintf_iff (by decide)]
    exact ⟨fun h => ⟨hinner, h.1, h.2⟩, fun h => ⟨h.outer, h.safe⟩⟩
  · refine iff_of_false (fun h => ?_) fun h => hinner h.inner
    have hlen := congrArg List.length h
    rw [length_roles, length_meant, hpieces] at hlen
    have hcut : (snprintf 2048 (render pieces)).length ≤ 2047 := by
      simp only [snprintf, List.length_take]
      omega
    have htake := List.length_take_le (4096 - 1)
      (render [.fixed "cd ", .single (repoDir request), .fixed " && "] ++
        snprintf 2048 (render pieces))
    simp only [snprintf, List.length_take, List.length_append] at *
    omega

theorem length_sourceParts :
    (sourceParts request).1.length < wtDeliverablePathSize ∧
      (sourceParts request).2.length < wtDeliverablePathSize := by
  have hsource := snprintf_length_lt request.sourcePath (show 0 < wtDeliverablePathSize by decide)
  unfold sourceParts
  dsimp only
  split
  · have hparent := (List.rdropWhile_prefix (· != slash)
      (snprintf wtDeliverablePathSize request.sourcePath)).length_le
    have hentry := (List.rtakeWhile_suffix (· != slash)
      (snprintf wtDeliverablePathSize request.sourcePath)).length_le
    dsimp only
    rw [List.length_dropLast]
    exact ⟨by omega, by omega⟩
  · exact ⟨by simp, hsource⟩

/-- The command of a tarball always fits. -/
theorem tar_intact_iff : StepIntact config request deliverableId (.tar (tarCommand config request)) ↔
    ∀ piece ∈ tarPieces config request, piece.Safe := by
  have hrender : bytes "tar -czf '" ++ tarballPath config request ++ bytes "' -C '" ++
      (sourceParts request).1 ++ bytes "' '" ++ (sourceParts request).2 ++
      bytes "' 2>/dev/null" = render (tarPieces config request) := by
    have htar : bytes "tar -czf '" = bytes "tar -czf " ++ [apostrophe] := by decide
    have hdir : bytes "' -C '" = apostrophe :: (bytes " -C " ++ [apostrophe]) := by decide
    have hentry : bytes "' '" = apostrophe :: (bytes " " ++ [apostrophe]) := by decide
    have hend : bytes "' 2>/dev/null" = apostrophe :: bytes " 2>/dev/null" := by decide
    rw [htar, hdir, hentry, hend]
    simp only [tarPieces, render, Piece.render, Piece.fixed, List.flatMap_cons, List.flatMap_nil,
      List.append_assoc, List.cons_append, List.nil_append, List.append_nil]
  have hfits : (render (tarPieces config request)).length < 4096 := by
    obtain ⟨hparent, hentry⟩ := length_sourceParts request
    have hpath : (tarballPath config request).length < wtDeliverablePathSize :=
      snprintf_length_lt _ (by decide)
    rw [← hrender]
    simp only [List.length_append, length_bytes, String.reduceToList, List.length_cons,
      List.length_nil]
    unfold wtDeliverablePathSize at *
    omega
  rw [StepIntact, tarCommand, hrender, intact_snprintf_iff (by decide)]
  exact and_iff_right hfits

theorem checkout_intact_iff : StepIntact config request deliverableId (checkoutStep config request) ↔
    RunInSafe request (checkoutPieces config request) := by
  have hrender : bytes "git fetch origin '" ++ branchName config request ++
      bytes "' 2>/dev/null; git checkout '" ++ branchName config request ++
      bytes "' 2>/dev/null || git checkout -b '" ++ branchName config request ++
      bytes "' >/dev/null 2>&1" = render (checkoutPieces config request) := by
    have hfetch : bytes "git fetch origin '" = bytes "git fetch origin " ++ [apostrophe] := by decide
    have hcheckout : bytes "' 2>/dev/null; git checkout '" =
        apostrophe :: (bytes " 2>/dev/null; git checkout " ++ [apostrophe]) := by decide
    have hnew : bytes "' 2>/dev/null || git checkout -b '" =
        apostrophe :: (bytes " 2>/dev/null || git checkout -b " ++ [apostrophe]) := by decide
    have hend : bytes "' >/dev/null 2>&1" = apostrophe :: bytes " >/dev/null 2>&1" := by decide
    rw [hfetch, hcheckout, hnew, hend]
    simp only [checkoutPieces, render, Piece.render, Piece.fixed, List.flatMap_cons,
      List.flatMap_nil, List.append_assoc, List.cons_append, List.nil_append, List.append_nil]
  rw [checkoutStep, hrender]
  exact runIn_intact_iff request _

theorem push_intact_iff :
    StepIntact config request deliverableId (pushStep config request deliverableId) ↔
      RunInSafe request (pushPieces config request deliverableId) := by
  have hrender : bytes "git add '" ++ repoRelPath request ++ bytes "' && git commit -m \"" ++
      commitMsg request deliverableId ++ bytes "\" >/dev/null 2>&1 && git push -u origin '" ++
      branchName config request ++ bytes "' >/dev/null 2>&1" =
        render (pushPieces config request deliverableId) := by
    have hadd : bytes "git add '" = bytes "git add " ++ [apostrophe] := by decide
    have hcommit : bytes "' && git commit -m \"" =
        apostrophe :: (bytes " && git commit -m " ++ [quote]) := by decide
    have hpush : bytes "\" >/dev/null 2>&1 && git push -u origin '" =
        quote :: (bytes " >/dev/null 2>&1 && git push -u origin " ++ [apostrophe]) := by decide
    have hend : bytes "' >/dev/null 2>&1" = apostrophe :: bytes " >/dev/null 2>&1" := by decide
    rw [hadd, hcommit, hpush, hend]
    simp only [pushPieces, render, Piece.render, Piece.fixed, List.flatMap_cons, List.flatMap_nil,
      List.append_assoc, List.cons_append, List.nil_append, List.append_nil]
  rw [pushStep, hrender]
  exact runIn_intact_iff request _

theorem pullRequest_intact_iff :
    StepIntact config request deliverableId (pullRequestStep config request deliverableId) ↔
      RunInSafe request (pullRequestPieces config request deliverableId) := by
  have hrender : bytes "gh pr create --head '" ++ branchName config request ++
      bytes "' --title \"" ++ prTitleText request deliverableId ++ bytes "\" --body \"" ++
      prBodyText request deliverableId ++ bytes "\" >/dev/null 2>&1" =
        render (pullRequestPieces config request deliverableId) := by
    have hhead : bytes "gh pr create --head '" = bytes "gh pr create --head " ++ [apostrophe] := by
      decide
    have htitle : bytes "' --title \"" = apostrophe :: (bytes " --title " ++ [quote]) := by decide
    have hbody : bytes "\" --body \"" = quote :: (bytes " --body " ++ [quote]) := by decide
    have hend : bytes "\" >/dev/null 2>&1" = quote :: bytes " >/dev/null 2>&1" := by decide
    rw [hhead, htitle, hbody, hend]
    simp only [pullRequestPieces, render, Piece.render, Piece.fixed, List.flatMap_cons,
      List.flatMap_nil, List.append_assoc, List.cons_append, List.nil_append, List.append_nil]
  rw [pullRequestStep, hrender]
  exact runIn_intact_iff request _

/-- The request names what it has to, and a branch of it would be checked out. -/
structure Submitted : Prop where
  required : request.taskId ≠ [] ∧ request.initiativeId ≠ [] ∧ request.sourcePath ≠ []
  gate : request.mode = .pr → request.yesGate
  repo : repoDir request ≠ []

/-- The condition of a ship request: the values of each command of its mode are safe. -/
structure ShipSafe : Prop where
  tar : request.mode = .tarball →
    request.taskId ≠ [] ∧ request.initiativeId ≠ [] ∧ request.sourcePath ≠ [] →
    ∀ piece ∈ tarPieces config request, piece.Safe
  checkout : request.mode.blocks → Submitted request →
    RunInSafe request (checkoutPieces config request)
  push : request.mode.blocks → Submitted request →
    (wtJsonEscape (commitMsg request deliverableId) 1024).isSome →
    RunInSafe request (pushPieces config request deliverableId)
  pullRequest : request.mode = .pr → Submitted request →
    (wtJsonEscape (commitMsg request deliverableId) 1024).isSome →
    RunInSafe request (pullRequestPieces config request deliverableId)

/-- Every command of a call that draws this id is as its template has it. -/
def ShipIntact (seed : IdSeed) : Prop :=
  ∀ world, world.deliverableSeed = seed →
    ∀ step ∈ (wtDeliverableShip world config request).steps,
      StepIntact config request world.deliverableId step

end ship

section ship

variable {world : World} {config : WtConfig} {request : WtDeliverableRequest}

/-- The steps a branch or a pull request takes, with what they need. -/
theorem mem_shipBranch {step : Step}
    (hrequired : request.taskId ≠ [] ∧ request.initiativeId ≠ [] ∧ request.sourcePath ≠ [])
    (h : step ∈
      (shipBranch world config request world.deliverableId (request.mode == .pr)).steps) :
    Submitted request ∧ (step = checkoutStep config request ∨
      step = .mkdirP (destDirInRepo request) ∨ step = repoCopyStep request ∨
      (wtJsonEscape (commitMsg request world.deliverableId) 1024).isSome ∧
        (step = pushStep config request world.deliverableId ∨
          request.mode = .pr ∧ step = pullRequestStep config request world.deliverableId)) := by
  unfold shipBranch at h
  obtain ⟨-, h⟩ | ⟨hgate, h⟩ := mem_steps_ite h
  · cases h
  obtain ⟨-, h⟩ | ⟨hrepo, h⟩ := mem_steps_ite h
  · cases h
  have hsubmitted : Submitted request := by
    refine ⟨hrequired, fun hpr => ?_, hrepo⟩
    simpa [hpr] using hgate
  refine ⟨hsubmitted, ?_⟩
  obtain ⟨-, h⟩ | ⟨-, h⟩ := mem_steps_ite h
  · cases h
  obtain ⟨-, h⟩ | ⟨-, h⟩ := mem_steps_ite h
  · exact .inl (List.mem_singleton.mp h)
  obtain ⟨-, h⟩ | ⟨-, h⟩ := mem_steps_ite h
  · simp only [List.mem_cons, List.not_mem_nil, or_false] at h
    exact h.imp_right .inl
  obtain ⟨-, h⟩ | ⟨-, h⟩ := mem_steps_ite h
  · simp only [List.mem_cons, List.not_mem_nil, or_false] at h
    exact h.imp_right (.imp_right .inl)
  obtain ⟨-, h⟩ | ⟨hmessage, h⟩ := mem_steps_ite h
  · simp only [List.mem_cons, List.not_mem_nil, or_false] at h
    exact h.imp_right (.imp_right .inl)
  have hsome : (wtJsonEscape (commitMsg request world.deliverableId) 1024).isSome :=
    Option.isSome_iff_ne_none.mpr (by simpa using hmessage)
  obtain ⟨-, h⟩ | ⟨-, h⟩ := mem_steps_ite h
  · simp only [List.mem_cons, List.not_mem_nil, or_false] at h
    exact h.imp_right (.imp_right (.imp_right fun hpush => ⟨hsome, .inl hpush⟩))
  obtain ⟨-, h⟩ | ⟨hpr, h⟩ := mem_steps_ite h
  · simp only [List.mem_cons, List.not_mem_nil, or_false] at h
    exact h.imp_right (.imp_right (.imp_right fun hpush => ⟨hsome, .inl hpush⟩))
  · simp only [List.mem_cons, List.not_mem_nil, or_false] at h
    refine h.imp_right (.imp_right (.imp_right fun hlast => ⟨hsome, hlast.imp_right fun hpull => ?_⟩))
    exact ⟨by simpa using hpr, hpull⟩

/-- A world that refuses nothing. -/
def obligingWorld (seed : IdSeed) : World :=
  { refusedWorld with run := fun _ => ⟨true, true⟩, deliverableSeed := seed }

theorem checked_obliging {seed : IdSeed}
    (h : request.taskId ≠ [] ∧ request.initiativeId ≠ [] ∧ request.sourcePath ≠ []) :
    Checked (obligingWorld seed) config request := by
  refine ⟨h, rfl, rfl, {}, ?_, by simp [Scan.matched]⟩
  unfold World.scan wtDeliverableScanFile
  split <;> rfl

/-- The steps of a call that passes its checks are those of its packaging. -/
theorem steps_of_checked (h : Checked world config request) :
    (wtDeliverableShip world config request).steps = (package world config request).steps := by
  obtain ⟨scan, sha256, sizeBytes, -, hship⟩ := ship_checked h
  rw [hship]
  dsimp only
  split
  · rfl
  split
  · rfl
  split <;> rfl

theorem mem_steps_checked {step : Step}
    (h : step ∈ (wtDeliverableShip world config request).steps) :
    Checked world config request ∧ step ∈ (package world config request).steps := by
  by_cases hchecked : Checked world config request
  · exact ⟨hchecked, steps_of_checked hchecked ▸ h⟩
  · rw [(ship_unchecked hchecked).2] at h
    cases h

/-- What an obliging world lets a branch or a pull request do. -/
theorem shipBranch_obliging {seed : IdSeed} (h : Submitted request) :
    checkoutStep config request ∈ (shipBranch (obligingWorld seed) config request
        (obligingWorld seed).deliverableId (request.mode == .pr)).steps ∧
      ((wtJsonEscape (commitMsg request (obligingWorld seed).deliverableId) 1024).isSome →
        pushStep config request (obligingWorld seed).deliverableId ∈
          (shipBranch (obligingWorld seed) config request (obligingWorld seed).deliverableId
            (request.mode == .pr)).steps ∧
        (request.mode = .pr → pullRequestStep config request (obligingWorld seed).deliverableId ∈
          (shipBranch (obligingWorld seed) config request (obligingWorld seed).deliverableId
            (request.mode == .pr)).steps)) := by
  have hgate : ((request.mode == .pr) && !request.yesGate) = false := by
    cases hm : request.mode <;> simp [h.gate, hm]
  have hrun : ∀ step, ((obligingWorld seed).run step).ok = true := fun _ => rfl
  have hpresent : ∀ path, (obligingWorld seed).present path = true := fun _ => rfl
  unfold shipBranch
  simp only [hgate, h.repo, hrun, hpresent, Bool.not_true, Bool.false_eq_true, ↓reduceIte]
  cases hmessage : wtJsonEscape (commitMsg request (obligingWorld seed).deliverableId) 1024 with
  | none => simp
  | some message =>
    simp only [Option.isNone_some, Bool.false_eq_true, ↓reduceIte, Option.isSome_some,
      forall_const]
    by_cases hpr : request.mode = .pr
    · simp [hpr]
    · have hbeq : (request.mode == .pr) = false := by simpa using hpr
      simp [hpr, hbeq]

/-- **The commands of a ship request are as their templates have them exactly where the values of
its mode's commands are safe.** -/
theorem shipIntact_iff {seed : IdSeed} : ShipIntact config request seed ↔
    ShipSafe config request (makeShortId "deliv" seed) := by
  have hbranch : ∀ {world : World}, request.mode.blocks → package world config request =
      shipBranch world config request world.deliverableId (request.mode == .pr) := by
    intro world hmode
    unfold package
    cases hm : request.mode with
    | copy => simp [hm, WtDeliverableMode.blocks] at hmode
    | tarball => simp [hm, WtDeliverableMode.blocks] at hmode
    | branch => rfl
    | pr => rfl
  constructor
  · intro h
    have hsteps : ∀ step ∈ (package (obligingWorld seed) config request).steps,
        request.taskId ≠ [] ∧ request.initiativeId ≠ [] ∧ request.sourcePath ≠ [] →
        StepIntact config request (makeShortId "deliv" seed) step := by
      intro step hstep hrequired
      refine h (obligingWorld seed) rfl step ?_
      rwa [steps_of_checked (checked_obliging hrequired)]
    refine ⟨fun hmode hrequired => ?_, fun hmode hsubmitted => ?_,
      fun hmode hsubmitted hmessage => ?_, fun hmode hsubmitted hmessage => ?_⟩
    · refine (tar_intact_iff config request (makeShortId "deliv" seed)).mp (hsteps _ ?_ hrequired)
      simp [package, hmode, shipTarball, obligingWorld]
    · refine (checkout_intact_iff config request (makeShortId "deliv" seed)).mp
        (hsteps _ ?_ hsubmitted.required)
      rw [hbranch hmode]
      exact (shipBranch_obliging hsubmitted).1
    · refine (push_intact_iff config request (makeShortId "deliv" seed)).mp
        (hsteps _ ?_ hsubmitted.required)
      rw [hbranch hmode]
      exact ((shipBranch_obliging hsubmitted).2 hmessage).1
    · have hblocks : request.mode.blocks := by simp [hmode, WtDeliverableMode.blocks]
      refine (pullRequest_intact_iff config request (makeShortId "deliv" seed)).mp
        (hsteps _ ?_ hsubmitted.required)
      rw [hbranch hblocks]
      exact ((shipBranch_obliging hsubmitted).2 hmessage).2 hmode
  · rintro ⟨htar, hcheckout, hpush, hpull⟩ world rfl step hstep
    obtain ⟨hchecked, hpackage⟩ := mem_steps_checked hstep
    by_cases hblocks : request.mode.blocks
    · rw [hbranch hblocks] at hpackage
      obtain ⟨hsubmitted, hcase⟩ := mem_shipBranch hchecked.required hpackage
      rcases hcase with rfl | rfl | rfl | ⟨hmessage, rfl | ⟨hpr, rfl⟩⟩
      · exact (checkout_intact_iff ..).mpr (hcheckout hblocks hsubmitted)
      · trivial
      · trivial
      · exact (push_intact_iff ..).mpr (hpush hblocks hsubmitted hmessage)
      · exact (pullRequest_intact_iff ..).mpr (hpull hpr hsubmitted hmessage)
    · -- copies run no command, and a tarball runs one
      unfold package at hpackage
      split at hpackage
      · unfold shipCopy at hpackage
        dsimp only at hpackage
        split at hpackage
        · cases List.mem_singleton.mp hpackage
          trivial
        · simp only [List.mem_cons, List.not_mem_nil, or_false] at hpackage
          rcases hpackage with rfl | rfl <;> trivial
      · rename_i hmode
        unfold shipTarball at hpackage
        dsimp only at hpackage
        split at hpackage
        · cases List.mem_singleton.mp hpackage
          trivial
        · simp only [List.mem_cons, List.not_mem_nil, or_false] at hpackage
          rcases hpackage with rfl | rfl
          · trivial
          · exact (tar_intact_iff ..).mpr (htar hmode hchecked.required)
      · rename_i hmode
        exact absurd (by simp [hmode, WtDeliverableMode.blocks]) hblocks
      · rename_i hmode
        exact absurd (by simp [hmode, WtDeliverableMode.blocks]) hblocks

end ship

/-! ## Both -/

section both

variable {agentName remoteUrl bearerToken hostName response : Bytes} {config : WtConfig}
  {request : WtDeliverableRequest} {seed : IdSeed}

/-- **The commands are as their templates have them exactly where the values are safe in their
quotes and the texts fit.** -/
theorem commandsIntact_iff (hagent : isKnownAgent agentName) :
    (RemoteIntact agentName remoteUrl bearerToken hostName response ↔
      (shellSafeText remoteUrl → shellSafeText bearerToken → shellSafeText hostName →
        RemoteSafe agentName remoteUrl bearerToken hostName response)) ∧
    (ShipIntact config request seed ↔ ShipSafe config request (makeShortId "deliv" seed)) :=
  ⟨remoteIntact_iff hagent, shipIntact_iff⟩

theorem commandsIntact_iff_claude :
    (RemoteIntact (bytes "claude") (bytes "http://room:8080") (bytes "wt_0123") (bytes "host-1")
        (bytes "\x7b\"claimed\":true,\"taskId\":\"task_1\"\x7d") ↔
      (shellSafeText (bytes "http://room:8080") → shellSafeText (bytes "wt_0123") →
        shellSafeText (bytes "host-1") →
        RemoteSafe (bytes "claude") (bytes "http://room:8080") (bytes "wt_0123") (bytes "host-1")
          (bytes "\x7b\"claimed\":true,\"taskId\":\"task_1\"\x7d"))) ∧
    (ShipIntact {} prRequest ⟨1000, some (1, 2, 3)⟩ ↔
      ShipSafe {} prRequest (makeShortId "deliv" ⟨1000, some (1, 2, 3)⟩)) :=
  commandsIntact_iff (by decide)

/-- A task id with an apostrophe, and a title with a command substitution. -/
theorem not_commandsIntact :
    ¬ RemoteIntact (bytes "claude") (bytes "http://room:8080") (bytes "wt_0123") (bytes "host-1")
        (bytes "\x7b\"claimed\":true,\"taskId\":\"t'1\"\x7d") ∧
      ¬ ShipIntact {} { prRequest with prTitle := some (bytes "$(id)") }
        ⟨1000, some (1, 2, 3)⟩ := by
  constructor
  · rw [remoteIntact_iff (by decide)]
    intro h
    have htask : claimedTask (bytes "\x7b\"claimed\":true,\"taskId\":\"t'1\"\x7d") =
        some (bytes "t'1") := by decide +kernel
    exact ((h (by decide) (by decide) (by decide)).task _ htask).1 (by decide)
  · rw [shipIntact_iff]
    intro h
    have hsafe := (h.pullRequest rfl ⟨by decide, fun _ => rfl, by decide⟩ (by decide +kernel)).safe
      (.double (bytes "$(id)")) ?_
    · exact absurd (show isSafeInDouble (bytes "$(id)") = true from hsafe) (by decide)
    · simp [runInPieces, pullRequestPieces, prTitleText]

end both

end WovenTeam

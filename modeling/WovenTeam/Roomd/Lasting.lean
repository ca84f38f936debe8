import WovenTeam.Roomd.Daemon

/-!
# What lasts between requests

A child forgets everything but the files. Over runs of requests the ledger only grows, a revoked id
stays revoked whatever comes behind it, and reading the configuration file anew for every request
comes to the same as one process that keeps its settings.
-/

namespace WovenTeam

open CText QuotedText LineReader KeyValueFile Runs

/-! ## The ledger -/

section ledger

variable {p : Process} {d d' : Daemon} {i : Incoming} {incoming : List Incoming}

/-- A request leaves the ledger or puts the lines of its call behind it. -/
theorem handleClient_extends (h : handleClient p d i = some d') :
    ∃ lines, d'.ledger = d.ledger ++ lines ∧ ∀ line ∈ lines,
      i.authorised (p.config d.configFile) d ≠ .other ∧
        (i.authorised (p.config d.configFile) d).Line d.ledger line := by
  rcases handleClient_cases h with ⟨file, -, rfl, -⟩ | ⟨session, rfl⟩ | ⟨after, hserve, rfl⟩
  · exact ⟨[], by simp, by simp⟩
  · exact ⟨[], by simp, by simp⟩
  · obtain ⟨lines, hlines, rfl⟩ := ApiRequest.serve_extends hserve
    refine ⟨lines, rfl, fun line hmem => ⟨fun hother => ?_, hlines line hmem⟩⟩
    rw [hother, ApiRequest.serve, Option.some.injEq, List.self_eq_append_right] at hserve
    rw [hserve] at hmem
    cases hmem

/-- The line is of a request of the run that was let in. -/
def WrittenFor (p : Process) (d : Daemon) (incoming : List Incoming) (line : Bytes) : Prop :=
  ∃ before i behind t, incoming = before ++ i :: behind ∧
    run (daemonStep p) (some d) before = some t ∧
    i.authorised (p.config t.configFile) t ≠ .other ∧
    (i.authorised (p.config t.configFile) t).Line t.ledger line

theorem WrittenFor.concat {line : Bytes} (h : WrittenFor p d incoming line) (i : Incoming) :
    WrittenFor p d (incoming ++ [i]) line := by
  obtain ⟨before, j, behind, t, rfl, ht, hline⟩ := h
  exact ⟨before, j, behind ++ [i], t, by simp, ht, hline⟩

theorem written_run (hrun : run (daemonStep p) (some d) incoming = some d') :
    ∃ lines, d'.ledger = d.ledger ++ lines ∧ ∀ line ∈ lines, WrittenFor p d incoming line := by
  induction incoming using List.reverseRecOn generalizing d' with
  | nil =>
    obtain rfl : d = d' := Option.some.inj hrun
    exact ⟨[], by simp, by simp⟩
  | append_singleton incoming i ih =>
    obtain ⟨t, ht, hstep⟩ := optStep_concat hrun
    obtain ⟨lines, hlines, hwritten⟩ := ih ht
    obtain ⟨made, hmade, hline⟩ := handleClient_extends hstep
    refine ⟨lines ++ made, by rw [hmade, hlines, List.append_assoc], fun line hmem => ?_⟩
    rcases List.mem_append.mp hmem with hmem | hmem
    · exact (hwritten line hmem).concat i
    · exact ⟨incoming, i, [], t, rfl, ht, hline line hmem⟩

end ledger

section revocation

variable {p : Process} {d d' : Daemon} {i : Incoming} {incoming : List Incoming}

theorem tokenRevoked_mono {ledger : Ledger} {tokenId : Bytes} (h : tokenRevoked ledger tokenId)
    (lines : Ledger) : tokenRevoked (ledger ++ lines) tokenId := by
  rw [tokenRevoked, List.any_append, ← tokenRevoked, h, Bool.true_or]

/-- No token is accepted under a revoked id. -/
theorem accepted_unrevoked {config : WtConfig} {ledger : Ledger} {request peerIp role : Bytes}
    {now : Int} {auth : WtAuthContext} {token tokenId : Bytes}
    (hrevoked : tokenRevoked ledger tokenId)
    (h : validateBearerToken config ledger request peerIp role now = .ok auth)
    (htoken : extractBearerToken request = some token) :
    (bearerWalk ledger token).tokenId ≠ tokenId := by
  rintro rfl
  rw [validateBearerToken, htoken] at h
  split at h
  · cases h
  · dsimp only at h
    rw [hrevoked] at h
    split at h
    · cases h
    · cases h

/-- The request of an operator puts the revocation into the ledger. -/
theorem handleClient_revokes {tokenId : Bytes} (hroute : route i.request = .authTokenRevoke)
    (hoperator : requireOperatorAuth (p.config d.configFile) d.session d.ledger i.request i.peerIp
      i.outside.checkedAt = true)
    (hread : wtJsonReadString (bearerBody i.request) "tokenId" 64 = .ok tokenId)
    (hid : Decodes tokenId) (h : handleClient p d i = some d') :
    tokenRevoked d'.ledger tokenId := by
  have hcall : i.authorised (p.config d.configFile) d =
      .authTokenRevoke i.request i.outside.now := by
    simp only [Incoming.authorised, hroute, Endpoint.access, hoperator, if_true, Incoming.call]
  simp only [handleClient, hroute, hcall, ApiRequest.serve, handlePostAuthTokenRevoke, hread,
    Option.bind_eq_bind, Option.pure_def, Option.map_eq_some_iff, Option.bind_eq_some_iff,
    Option.some.injEq] at h
  obtain ⟨ledger, ⟨result, ⟨escaped, hescape, rfl⟩, rfl⟩, rfl⟩ := h
  have hfits : (revokeRecord escaped i.outside.now).object.length + 2 ≤ 512 :=
    revokeRecord_fits (wtJsonEscape_eq hescape).2 i.outside.now.2
  have hlength : tokenId.length < 64 := wtJsonReadString_length hread
  have hmade := revokeRead_record i.outside.now hescape
  rw [reread_eq_self_iff.mpr hid] at hmade
  have hrevokes :
      revokesToken tokenId (recordLine (revokeRecord escaped i.outside.now)) = true := by
    simp [revokesToken, hmade.mentions, hmade.eventType, (hmade.tokenId tokenId hlength).mpr rfl]
  dsimp only
  rw [printRecord_of_fits (by omega),
    wtTaskAppendRecord_object _ (by simp only [wtTaskLedgerLineSize]; omega)]
  simp [tokenRevoked, hrevokes]

end revocation

def revokeRequest : Bytes := bytes ("POST /api/auth-token/revoke HTTP/1.1\r\n" ++
  "X-WovenTeam-Operator-Session: s\r\n\r\n\x7b\"tokenId\":\"tok-1\"\x7d")

theorem zero_notMem_revokeRequest : 0 ∉ revokeRequest := by decide +kernel

def revokeIncoming : Incoming where
  request := revokeRequest
  terminated := zero_notMem_revokeRequest
  peerIp := bytes "127.0.0.1"
  outside := quietOutside

def sessionDaemon : Daemon := ⟨[], [], some (bytes "s\n")⟩

section settings

variable {p : Process} {d d' : Daemon} {i : Incoming} {incoming : List Incoming}
  {j : Fin configKeys.length} {body : Bytes}

/-- The key sets the value `j` to what the body says alone, or leaves it. -/
def PostedKey.Fixes (j : Fin configKeys.length) (posted : PostedKey) : Prop :=
  ∀ body, ∃ given : Option SettingValue, ∀ config,
    (posted.apply body config).value = Function.update config.value j (given.getD (config.value j))

theorem PostedKey.Fixes.long {key : String} {assign : WtConfig → Int → WtConfig}
    (value : Int → SettingValue)
    (h : ∀ config n, (assign config n).values = config.values.set j (value n)) :
    (PostedKey.long key assign).Fixes j := by
  intro body
  refine ⟨(wtJsonReadLong body key).map value, fun config => ?_⟩
  rw [PostedKey.apply]
  cases hread : wtJsonReadLong body key with
  | none => exact (Function.update_eq_self j config.value).symm
  | some n => exact value_of_values (h config n)

theorem PostedKey.Fixes.flag {key : String} {assign : WtConfig → Int → WtConfig}
    (h : ∀ config n, (assign config n).values = config.values.set j (.flag (n != 0))) :
    (PostedKey.long key assign).Fixes j := .long (fun n => .flag (n != 0)) h

theorem PostedKey.Fixes.number {key : String} {assign : WtConfig → Int → WtConfig} (f : Int → Int)
    (h : ∀ config n, (assign config n).values = config.values.set j (.number (f n))) :
    (PostedKey.long key assign).Fixes j := .long (fun n => .number (f n)) h

theorem PostedKey.Fixes.name {key : String} {array : WtConfig → Name}
    {assign : WtConfig → Name → WtConfig}
    (h : ∀ config text, config.value j = .text (array config).text ∧
      (assign config text).values = config.values.set j (.text text.text)) :
    (PostedKey.name key array assign).Fixes j := by
  intro body
  refine ⟨(wtJsonReadString body key wtNameSize).written.map .text, fun config => ?_⟩
  rw [PostedKey.apply, value_of_values (h config _).2, (h config (array config)).1, readInto_text]
  cases (wtJsonReadString body key wtNameSize).written <;> rfl

theorem PostedKey.Fixes.path {key : String} {array : WtConfig → Path}
    {assign : WtConfig → Path → WtConfig}
    (h : ∀ config text, config.value j = .text (array config).text ∧
      (assign config text).values = config.values.set j (.text text.text)) :
    (PostedKey.path key array assign).Fixes j := by
  intro body
  refine ⟨(wtJsonReadString body key wtPathSize).written.map .text, fun config => ?_⟩
  rw [PostedKey.apply, value_of_values (h config _).2, (h config (array config)).1, readInto_text]
  cases (wtJsonReadString body key wtPathSize).written <;> rfl

theorem postedKeys_fixes : ∀ posted ∈ postedKeys, ∃ j, posted.Fixes j := by
  simp only [postedKeys, List.forall_mem_cons, List.not_mem_nil, false_implies, implies_true,
    and_true]
  refine ⟨⟨⟨18, by decide⟩, .flag fun _ _ => rfl⟩,
    ⟨⟨19, by decide⟩, .number (fun n => if n < 0 then 0 else n) fun _ _ => rfl⟩,
    ⟨⟨20, by decide⟩, .number (fun n => if n < 0 then 0 else n) fun _ _ => rfl⟩,
    ⟨⟨21, by decide⟩, .number (fun n =>
      let n := if n < 1 then 1 else n
      toInt32 (if 100 < n then 100 else n)) fun _ _ => rfl⟩,
    ⟨⟨22, by decide⟩, .number (fun n => if n < 0 then 0 else toInt32 n) fun _ _ => rfl⟩,
    ⟨⟨15, by decide⟩, .flag fun _ _ => rfl⟩, ⟨⟨14, by decide⟩, .flag fun _ _ => rfl⟩,
    ⟨⟨10, by decide⟩, .number (fun n => if n < 1 then 1 else toInt32 n) fun _ _ => rfl⟩,
    ⟨⟨11, by decide⟩, .number (fun n => if n < 1 then 1 else toInt32 n) fun _ _ => rfl⟩,
    ⟨⟨12, by decide⟩, .number (fun n => if n < 1 then 1 else toInt32 n) fun _ _ => rfl⟩,
    ⟨⟨16, by decide⟩, .flag fun _ _ => rfl⟩, ⟨⟨17, by decide⟩, .flag fun _ _ => rfl⟩,
    ⟨⟨24, by decide⟩, .name fun _ _ => ⟨rfl, rfl⟩⟩, ⟨⟨25, by decide⟩, .name fun _ _ => ⟨rfl, rfl⟩⟩,
    ⟨⟨26, by decide⟩, .name fun _ _ => ⟨rfl, rfl⟩⟩, ⟨⟨27, by decide⟩, .path fun _ _ => ⟨rfl, rfl⟩⟩,
    ⟨⟨28, by decide⟩, .path fun _ _ => ⟨rfl, rfl⟩⟩, ⟨⟨29, by decide⟩, .path fun _ _ => ⟨rfl, rfl⟩⟩,
    ⟨⟨30, by decide⟩, .path fun _ _ => ⟨rfl, rfl⟩⟩,
    ⟨⟨31, by decide⟩, .number (fun n => if n < 0 then 0 else n) fun _ _ => rfl⟩,
    ⟨⟨32, by decide⟩, .number (fun n => if n < 0 then 0 else n) fun _ _ => rfl⟩,
    ⟨⟨40, by decide⟩, .name fun _ _ => ⟨rfl, rfl⟩⟩, ⟨⟨41, by decide⟩, .name fun _ _ => ⟨rfl, rfl⟩⟩,
    ⟨⟨42, by decide⟩, .name fun _ _ => ⟨rfl, rfl⟩⟩, ⟨⟨43, by decide⟩, .name fun _ _ => ⟨rfl, rfl⟩⟩⟩

/-- What a body makes of a value depends on that value alone. -/
theorem applyPosted_congr {config config' : WtConfig} (h : config.value j = config'.value j)
    (body : Bytes) : (applyPosted config body).value j = (applyPosted config' body).value j := by
  have hfold : ∀ keys : List PostedKey, (∀ posted ∈ keys, ∃ i, posted.Fixes i) →
      (keys.foldl (PostedKey.apply body) config).value j =
        (keys.foldl (PostedKey.apply body) config').value j := by
    intro keys
    induction keys using List.reverseRecOn with
    | nil => exact fun _ => h
    | append_singleton keys posted ih =>
      intro hfixes
      obtain ⟨i, hi⟩ := hfixes posted (by simp)
      obtain ⟨given, hgiven⟩ := hi body
      have hkeys := ih fun p hp => hfixes p (List.mem_append_left _ hp)
      simp only [List.foldl_append, List.foldl_cons, List.foldl_nil, hgiven, Function.update_apply]
      split
      · rename_i hij
        rw [← hij, hkeys]
      · exact hkeys
  exact hfold postedKeys postedKeys_fixes

theorem wtConfigSetValue_configPath (config : WtConfig) (key value : Bytes) :
    (wtConfigSetValue config key value).configPath = config.configPath := by
  have hset : ∀ setting ∈ configKeys, ∀ (config : WtConfig) value,
      (setting.set config value).configPath = config.configPath := by
    unfold configKeys
    simp only [List.forall_mem_cons, List.not_mem_nil, false_implies, implies_true, and_true]
  unfold wtConfigSetValue
  split
  · rename_i setting hfind
    exact hset setting (List.mem_of_find?_eq_some hfind) config value
  · rfl

theorem assigned_configPath (config : WtConfig) (assigns : List (Bytes × Bytes)) :
    (assigns.foldl (fun config assign => wtConfigSetValue config assign.1 assign.2)
      config).configPath = config.configPath := by
  induction assigns generalizing config with
  | nil => rfl
  | cons assign assigns ih => rw [List.foldl_cons, ih, wtConfigSetValue_configPath]

theorem Process.config_configPath (hpath : p.start.configPath.text ≠ []) (file : Bytes) :
    (p.config file).configPath.text ≠ [] := by
  rw [Process.config, if_neg hpath, wtConfigApplyEnvironment, assigned_configPath,
    wtConfigLoadFile, assigned_configPath, CString.copy_text]
  exact hpath

/-- The body that the request leaves in the file. -/
def Incoming.posted (i : Incoming) : Option Bytes :=
  if route i.request = .config ∧ i.outside.writes then requestBody i.request else none

theorem handleClient_configFile (hpath : p.start.configPath.text ≠ [])
    (h : handleClient p d i = some d') :
    d'.configFile = (i.posted.map fun body =>
      wtConfigWriteFile (applyPosted (p.config d.configFile) body)).getD d.configFile := by
  by_cases hroute : route i.request = .config
  · simp only [handleClient, hroute, Option.some.injEq] at h
    subst h
    unfold handlePostConfig Incoming.posted
    cases requestBody i.request with
    | none => simp
    | some body =>
      dsimp only
      rw [if_neg (p.config_configPath hpath d.configFile)]
      cases i.outside.writes <;> simp [hroute]
  · rw [Incoming.posted, if_neg fun h => hroute h.1]
    rcases handleClient_cases h with ⟨file, hconfig, -⟩ | ⟨session, rfl⟩ | ⟨after, -, rfl⟩
    · exact absurd hconfig hroute
    · rfl
    · rfl

theorem Incoming.zero_notMem_posted (h : i.posted = some body) : 0 ∉ body :=
  zero_notMem_requestBody i.terminated (Option.ite_none_right_eq_some.mp h).2

/-- What the environment gives is in force already. -/
theorem Process.value_override (hpath : p.start.configPath.text ≠ []) (file : Bytes)
    {value : SettingValue} (h : p.override j = some value) : (p.config file).value j = value := by
  rw [p.value_config hpath, h, Option.getD_some]

/-- The settings in force and those of the process that keeps them. -/
structure InForce (p : Process) (d : Daemon) (kept : WtConfig) : Prop where
  value : ∀ j, (p.config d.configFile).value j = (p.override j).getD (kept.value j)
  storable : ∀ j, Storable ((p.config d.configFile).value j)

theorem InForce.start (hpath : p.start.configPath.text ≠ [])
    (hstorable : ∀ j, Storable ((p.config d.configFile).value j)) :
    InForce p d (p.config d.configFile) where
  value j := by
    cases hoverride : p.override j with
    | none => rfl
    | some value => exact p.value_override hpath _ hoverride
  storable := hstorable

theorem InForce.step {kept : WtConfig} (h : InForce p d kept) (hpath : p.start.configPath.text ≠ [])
    (hbodies : ∀ body, i.posted = some body → StorableBody body)
    (hstep : handleClient p d i = some d') :
    InForce p d' (i.posted.toList.foldl applyPosted kept) := by
  have hfile := handleClient_configFile hpath hstep
  cases hposted : i.posted with
  | none =>
    rw [hposted, Option.map_none, Option.getD_none] at hfile
    exact ⟨fun j => hfile ▸ h.value j, fun j => hfile ▸ h.storable j⟩
  | some body =>
    rw [hposted, Option.map_some, Option.getD_some] at hfile
    have hstorable := storable_applyPosted h.storable (hbodies body hposted)
    have hsound := sound_applyPosted (p.sound_config d.configFile)
      (Incoming.zero_notMem_posted hposted)
    have hwritten : ∀ j, (p.config d'.configFile).value j =
        (p.override j).getD ((applyPosted (p.config d.configFile) body).value j) := by
      intro j
      rw [hfile]
      exact Process.value_written hpath hsound (fun j => (hstorable j).1) (hstorable j)
    rw [Option.toList_some, List.foldl_cons, List.foldl_nil]
    refine ⟨fun j => ?_, fun j => ?_⟩
    · rw [hwritten j]
      cases hoverride : p.override j with
      | some value => rw [Option.getD_some, Option.getD_some]
      | none =>
        have hvalue := h.value j
        rw [hoverride, Option.getD_none] at hvalue
        rw [Option.getD_none, Option.getD_none]
        exact applyPosted_congr hvalue body
    · rw [hwritten j]
      cases hoverride : p.override j with
      | some value =>
        rw [Option.getD_some, ← p.value_override hpath d.configFile hoverride]
        exact h.storable j
      | none => exact hstorable j

end settings

def filedProcess : Process where
  start := { configPath := .of "wt.conf" }
  sound := sound_defaults
  environment := plainProcess.environment
  terminated := plainProcess.terminated

def budgetRequest : Bytes :=
  bytes "POST /api/config HTTP/1.1\r\n\r\n\x7b\"tokenDailyBudget\":5\x7d"

theorem zero_notMem_budgetRequest : 0 ∉ budgetRequest := by decide +kernel

def budgetIncoming : Incoming where
  request := budgetRequest
  terminated := zero_notMem_budgetRequest
  peerIp := bytes "127.0.0.1"
  outside := quietOutside

end WovenTeam

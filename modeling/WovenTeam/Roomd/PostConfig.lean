import WovenTeam.ConfigFile
import WovenTeam.Lib.Runs
import WovenTeam.Roomd.Http

/-!
# Configuration requests

`handlePostConfig` sets the keys that a request body names, with bounds on the numbers, and writes
all of them to the configuration file. Its texts are decoded from JSON and can hold any character;
the file has no quoting. `survives_iff`: a configuration that was loaded and then posted to is what
the next start reads from the file exactly where no text has a line break or white space at an end.
-/

namespace WovenTeam

open CText LineReader KeyValueFile Runs

/-! ## The handler -/

/-- One `wtJsonRead…` of the handler: a number that is assigned with its bounds, or a text that is
read into its array. -/
inductive PostedKey where
  | long (key : String) (assign : WtConfig → Int → WtConfig)
  | name (key : String) (array : WtConfig → Name) (assign : WtConfig → Name → WtConfig)
  | path (key : String) (array : WtConfig → Path) (assign : WtConfig → Path → WtConfig)

def PostedKey.key : PostedKey → String
  | long key _ => key
  | name key _ _ => key
  | path key _ _ => key

def readInto (size : Nat) [NeZero size] (body : Bytes) (key : String) (old : CString size) :
    CString size :=
  .copy size ((wtJsonReadString body key size).overwrite old.text)

def PostedKey.apply (body : Bytes) (config : WtConfig) : PostedKey → WtConfig
  | long key assign =>
    match wtJsonReadLong body key with
    | some value => assign config value
    | none => config
  | name key array assign => assign config (readInto wtNameSize body key (array config))
  | path key array assign => assign config (readInto wtPathSize body key (array config))

def postedKeys : List PostedKey := [
  .long "tokenTelemetryEnabled"
    fun config value => { config with tokenTelemetryEnabled := value != 0 },
  .long "tokenDailyBudget"
    fun config value => { config with tokenDailyBudget := if value < 0 then 0 else value },
  .long "tokenMonthlyBudget"
    fun config value => { config with tokenMonthlyBudget := if value < 0 then 0 else value },
  .long "tokenWarningPercent" fun config value =>
    let value := if value < 1 then 1 else value
    let value := if 100 < value then 100 else value
    { config with tokenWarningPercent := toInt32 value },
  .long "tokenCostPerMillionCents" fun config value =>
    { config with tokenCostPerMillionCents := if value < 0 then 0 else toInt32 value },
  .long "enableCodexAdapter"
    fun config value => { config with enableCodexAdapter := value != 0 },
  .long "roleRoutingEnabled"
    fun config value => { config with roleRoutingEnabled := value != 0 },
  .long "maxActiveTasksPerAgent" fun config value =>
    { config with maxActiveTasksPerAgent := if value < 1 then 1 else toInt32 value },
  .long "maxSubtasksPerParent" fun config value =>
    { config with maxSubtasksPerParent := if value < 1 then 1 else toInt32 value },
  .long "maxTasksPerInitiative" fun config value =>
    { config with maxTasksPerInitiative := if value < 1 then 1 else toInt32 value },
  .long "enableClaudeAdapter"
    fun config value => { config with enableClaudeAdapter := value != 0 },
  .long "enableGeminiAdapter"
    fun config value => { config with enableGeminiAdapter := value != 0 },
  .name "claudeMode" (·.claudeMode) fun config text => { config with claudeMode := text },
  .name "chatgptMode" (·.chatgptMode) fun config text => { config with chatgptMode := text },
  .name "geminiMode" (·.geminiMode) fun config text => { config with geminiMode := text },
  .path "claudeCommand" (·.claudeCommand) fun config text => { config with claudeCommand := text },
  .path "gptCommand" (·.gptCommand) fun config text => { config with gptCommand := text },
  .path "geminiCommand" (·.geminiCommand) fun config text => { config with geminiCommand := text },
  .path "blockedVendors" (·.blockedVendors)
    fun config text => { config with blockedVendors := text },
  .long "tokenBudgetPerInitiative"
    fun config value => { config with tokenBudgetPerInitiative := if value < 0 then 0 else value },
  .long "tokenBudgetPerModelFamily"
    fun config value => { config with tokenBudgetPerModelFamily := if value < 0 then 0 else value },
  .name "defaultAutonomyLevel" (·.defaultAutonomyLevel)
    fun config text => { config with defaultAutonomyLevel := text },
  .name "claudeDefaultAutonomyLevel" (·.claudeDefaultAutonomyLevel)
    fun config text => { config with claudeDefaultAutonomyLevel := text },
  .name "chatgptDefaultAutonomyLevel" (·.chatgptDefaultAutonomyLevel)
    fun config text => { config with chatgptDefaultAutonomyLevel := text },
  .name "geminiDefaultAutonomyLevel" (·.geminiDefaultAutonomyLevel)
    fun config text => { config with geminiDefaultAutonomyLevel := text }]

/-- The keys of a body set one after the other. -/
def applyPosted (config : WtConfig) (body : Bytes) : WtConfig :=
  postedKeys.foldl (PostedKey.apply body) config

/-- What a request does: the configuration behind it, the file where it is written, and the reply
where it is not `sendConfigJson`'s. -/
structure PostedConfig where
  config : WtConfig
  file : Option Bytes := none
  refusal : Option HttpReply := none

/-- `writes`: the file can be written. -/
def handlePostConfig (config : WtConfig) (request : Bytes) (writes : Bool) : PostedConfig :=
  match requestBody request with
  | none => { config, refusal := some noBody }
  | some body =>
    if config.configPath.text = [] then
      { config, refusal := some (errorReply 409 "Conflict" "config file path unavailable") }
    else
      let config := applyPosted config body
      if writes then { config, file := some (wtConfigWriteFile config) }
      else
        { config
          refusal := some (errorReply 500 "Internal Server Error" "config write failed") }

/-! ## What a body can hold -/

/-- No text is decoded to a terminator. -/
theorem zero_notMem_copyString {room : Nat} {s : Bytes} (h : 0 ∉ s) :
    0 ∉ (copyString room s).1 := by
  fun_induction copyString room s with
  | case1 => simp
  | case2 => simp
  | case3 => simp
  | case4 => simp
  | case5 room e t hq ih =>
    have he : unescapeByte e ≠ 0 := by
      intro hzero
      refine h (List.mem_cons_of_mem _ ?_)
      unfold unescapeByte at hzero
      split at hzero
      · cases hzero
      · split at hzero
        · cases hzero
        · split at hzero
          · cases hzero
          · rw [hzero]
            exact List.mem_cons_self
    rw [List.mem_cons, not_or]
    exact ⟨Ne.symm he, ih fun ht => h (by simp [ht])⟩
  | case6 room b t hq hb ih =>
    rw [List.mem_cons, not_or]
    exact ⟨fun hb => h (by simp [hb]), ih fun ht => h (by simp [ht])⟩

theorem zero_notMem_written {json text : Bytes} {key : String} {size : Nat} (h : 0 ∉ json)
    (hread : (wtJsonReadString json key size).written = some text) : 0 ∉ text := by
  unfold wtJsonReadString at hread
  split at hread
  · cases hread
  · cases hread
  · rename_i b cursor hfind
    have hcursor : 0 ∉ cursor := fun hz =>
      h ((findFieldFrom_suffix hfind).subset (List.mem_cons_of_mem _ hz))
    split at hread
    · cases hread
    · dsimp only at hread
      split at hread
      all_goals
        cases hread
        exact zero_notMem_copyString hcursor

/-! ## What a key sets -/

/-- The size of a text's array. -/
def SettingKind.size : SettingKind → Nat
  | name => wtNameSize
  | path => wtPathSize
  | _ => 0

/-- The key sets the value `i` of the table and no other, to a value of its kind. -/
def PostedKey.Sets (i : Fin configKeys.length) : PostedKey → Prop
  | long key assign => (configKeys.get i).key = key ∧ ∀ config n, -2 ^ 63 ≤ n ∧ n < 2 ^ 63 →
      ∃ m, (configKeys.get i).kind.Holds m ∧ Storable m ∧ 0 ∉ m.print ∧
        (assign config n).values = config.values.set i m
  | name key array assign => (configKeys.get i).key = key ∧ (configKeys.get i).kind = .name ∧
      ∀ config text, config.value i = .text (array config).text ∧
        (assign config text).values = config.values.set i (.text text.text)
  | path key array assign => (configKeys.get i).key = key ∧ (configKeys.get i).kind = .path ∧
      ∀ config text, config.value i = .text (array config).text ∧
        (assign config text).values = config.values.set i (.text text.text)

theorem storable_number (n : Int) : Storable (.number n) ∧ 0 ∉ (SettingValue.number n).print := by
  have hmem : ∀ b ∈ decimal n, isSpace b = false ∧ b ≠ 0 := fun b hb => mem_decimal hb
  refine ⟨⟨fun hnl => ?_, trimWhitespace_of_solid fun b hb => (hmem b hb).1⟩,
    fun hz => (hmem 0 hz).2 rfl⟩
  exact absurd (hmem newline hnl).1 (by decide)

theorem storable_flag (b : Bool) : Storable (.flag b) ∧ 0 ∉ (SettingValue.flag b).print := by
  cases b <;> decide

theorem sets_flag {key : String} {assign : WtConfig → Int → WtConfig}
    {i : Fin configKeys.length} (hkey : (configKeys.get i).key = key)
    (hkind : (configKeys.get i).kind = .flag)
    (h : ∀ config n, (assign config n).values = config.values.set i (.flag (n != 0))) :
    (PostedKey.long key assign).Sets i :=
  ⟨hkey, fun config n _ => ⟨.flag (n != 0), hkind ▸ trivial, (storable_flag _).1,
    (storable_flag _).2, h config n⟩⟩

theorem sets_number {key : String} {assign : WtConfig → Int → WtConfig}
    {i : Fin configKeys.length} (f : Int → Int) (hkey : (configKeys.get i).key = key)
    (hkind : ∀ n, -2 ^ 63 ≤ n ∧ n < 2 ^ 63 → (configKeys.get i).kind.Holds (.number (f n)))
    (h : ∀ config n, (assign config n).values = config.values.set i (.number (f n))) :
    (PostedKey.long key assign).Sets i :=
  ⟨hkey, fun config n hn => ⟨.number (f n), hkind n hn, (storable_number _).1,
    (storable_number _).2, h config n⟩⟩

theorem bounded_long {n : Int} (hn : -2 ^ 63 ≤ n ∧ n < 2 ^ 63) :
    -2 ^ 63 ≤ (if n < 0 then 0 else n) ∧ (if n < 0 then 0 else n) < 2 ^ 63 := by
  split <;> omega

theorem bounded_int (low n : Int) (hlow : 0 ≤ low ∧ low < 2 ^ 31) :
    -2 ^ 31 ≤ (if n < low then low else toInt32 n) ∧
      (if n < low then low else toInt32 n) < 2 ^ 31 := by
  split
  · omega
  · exact toInt32_range n

/-- **Each key of a request has its place in the table.** -/
theorem postedKeys_sets : ∀ posted ∈ postedKeys, ∃ i, posted.Sets i := by
  simp only [postedKeys, List.forall_mem_cons, List.not_mem_nil, false_implies, implies_true,
    and_true]
  refine ⟨⟨⟨18, by decide⟩, sets_flag rfl rfl fun _ _ => rfl⟩,
    ⟨⟨19, by decide⟩, sets_number _ rfl (fun _ hn => bounded_long hn) fun _ _ => rfl⟩,
    ⟨⟨20, by decide⟩, sets_number _ rfl (fun _ hn => bounded_long hn) fun _ _ => rfl⟩,
    ⟨⟨21, by decide⟩, sets_number _ rfl (fun _ _ => toInt32_range _) fun _ _ => rfl⟩,
    ⟨⟨22, by decide⟩, sets_number _ rfl (fun n _ => bounded_int 0 n (by decide)) fun _ _ => rfl⟩,
    ⟨⟨15, by decide⟩, sets_flag rfl rfl fun _ _ => rfl⟩,
    ⟨⟨14, by decide⟩, sets_flag rfl rfl fun _ _ => rfl⟩,
    ⟨⟨10, by decide⟩, sets_number _ rfl (fun n _ => bounded_int 1 n (by decide)) fun _ _ => rfl⟩,
    ⟨⟨11, by decide⟩, sets_number _ rfl (fun n _ => bounded_int 1 n (by decide)) fun _ _ => rfl⟩,
    ⟨⟨12, by decide⟩, sets_number _ rfl (fun n _ => bounded_int 1 n (by decide)) fun _ _ => rfl⟩,
    ⟨⟨16, by decide⟩, sets_flag rfl rfl fun _ _ => rfl⟩,
    ⟨⟨17, by decide⟩, sets_flag rfl rfl fun _ _ => rfl⟩,
    ⟨⟨24, by decide⟩, rfl, rfl, fun _ _ => ⟨rfl, rfl⟩⟩,
    ⟨⟨25, by decide⟩, rfl, rfl, fun _ _ => ⟨rfl, rfl⟩⟩,
    ⟨⟨26, by decide⟩, rfl, rfl, fun _ _ => ⟨rfl, rfl⟩⟩,
    ⟨⟨27, by decide⟩, rfl, rfl, fun _ _ => ⟨rfl, rfl⟩⟩,
    ⟨⟨28, by decide⟩, rfl, rfl, fun _ _ => ⟨rfl, rfl⟩⟩,
    ⟨⟨29, by decide⟩, rfl, rfl, fun _ _ => ⟨rfl, rfl⟩⟩,
    ⟨⟨30, by decide⟩, rfl, rfl, fun _ _ => ⟨rfl, rfl⟩⟩,
    ⟨⟨31, by decide⟩, sets_number _ rfl (fun _ hn => bounded_long hn) fun _ _ => rfl⟩,
    ⟨⟨32, by decide⟩, sets_number _ rfl (fun _ hn => bounded_long hn) fun _ _ => rfl⟩,
    ⟨⟨40, by decide⟩, rfl, rfl, fun _ _ => ⟨rfl, rfl⟩⟩,
    ⟨⟨41, by decide⟩, rfl, rfl, fun _ _ => ⟨rfl, rfl⟩⟩,
    ⟨⟨42, by decide⟩, rfl, rfl, fun _ _ => ⟨rfl, rfl⟩⟩,
    ⟨⟨43, by decide⟩, rfl, rfl, fun _ _ => ⟨rfl, rfl⟩⟩⟩

section apply

variable {config : WtConfig} {body : Bytes} {posted : PostedKey}

theorem value_of_values {config' : WtConfig} {i : Fin configKeys.length} {value : SettingValue}
    (h : config'.values = config.values.set i value) :
    config'.value = Function.update config.value i value := by
  funext j
  simp only [WtConfig.value, List.get_eq_getElem, Fin.val_cast, Function.update_apply, h,
    List.getElem_set]
  exact if_congr (by rw [eq_comm, Fin.ext_iff]) rfl rfl

/-- What setting one key does to the values: nothing where the body does not name it, else its own
value becomes one of its kind, decoded from the body where it is a text. -/
structure Applied (config : WtConfig) (body : Bytes) (i : Fin configKeys.length)
    (value : SettingValue) : Prop where
  sound : config.Sound → 0 ∉ body → (configKeys.get i).kind.Sound value
  unnamed : findFieldValue body (configKeys.get i).key = none → value = config.value i
  decoded : value = config.value i ∨ Storable value ∨ ∃ text, value = .text text ∧
    (wtJsonReadString body (configKeys.get i).key (configKeys.get i).kind.size).written = some text

theorem length_written {json text : Bytes} {key : String} {size : Nat} (hsize : 0 < size)
    (hread : (wtJsonReadString json key size).written = some text) : text.length < size := by
  unfold wtJsonReadString at hread
  split at hread
  · cases hread
  · cases hread
  · rename_i b cursor hfind
    have hlen := copyString_length (size - 1) cursor
    split at hread
    · cases hread
    · dsimp only at hread
      split at hread
      all_goals
        cases hread
        omega

theorem readInto_text {size : Nat} [NeZero size] (body : Bytes) (key : String)
    (old : CString size) :
    (readInto size body key old).text = (wtJsonReadString body key size).written.getD old.text := by
  unfold readInto
  rw [StringField.overwrite_eq]
  refine snprintf_of_lt ?_
  cases hread : (wtJsonReadString body key size).written with
  | none => exact old.fits
  | some text => exact length_written (NeZero.pos size) hread

/-- A text that is read into its array. -/
theorem applied_text {size : Nat} [NeZero size] {i : Fin configKeys.length} {old : CString size}
    (hsize : (configKeys.get i).kind.size = size)
    (hholds : ∀ text : CString size, (configKeys.get i).kind.Holds (.text text.text))
    (hold : config.value i = .text old.text) :
    Applied config body i (.text (readInto size body (configKeys.get i).key old).text) where
  sound hconfig hbody := by
    refine ⟨hholds _, ?_⟩
    have hterminated := (hconfig i).terminated
    rw [hold] at hterminated
    rw [readInto_text]
    cases hread : (wtJsonReadString body (configKeys.get i).key size).written with
    | none => exact hterminated
    | some text => exact zero_notMem_written hbody hread
  unnamed hnone := by
    rw [readInto_text, wtJsonReadString, hnone, hold]
    rfl
  decoded := by
    rw [readInto_text]
    cases hread : (wtJsonReadString body (configKeys.get i).key size).written with
    | none => exact .inl hold.symm
    | some text => exact .inr (.inr ⟨text, rfl, hsize ▸ hread⟩)

/-- **A key of a request changes its own value alone.** -/
theorem PostedKey.Sets.apply {i : Fin configKeys.length} (h : posted.Sets i) (config : WtConfig)
    (body : Bytes) :
    ∃ value, (posted.apply body config).value = Function.update config.value i value ∧
      Applied config body i value := by
  cases posted with
  | long key assign =>
    obtain ⟨rfl, hset⟩ := h
    rw [PostedKey.apply]
    cases hread : wtJsonReadLong body (configKeys.get i).key with
    | none =>
      exact ⟨config.value i, (Function.update_eq_self i config.value).symm, fun hs _ => hs i,
        fun _ => rfl, .inl rfl⟩
    | some n =>
      obtain ⟨value, hholds, hstore, hzero, hvalues⟩ := hset config n (wtJsonReadLong_range hread)
      refine ⟨value, value_of_values hvalues, fun _ _ => ⟨hholds, hzero⟩, fun hnone => ?_,
        .inr (.inl hstore)⟩
      rw [wtJsonReadLong, hnone] at hread
      cases hread
  | name key array assign =>
    obtain ⟨rfl, hkind, hset⟩ := h
    refine ⟨_, value_of_values (hset config _).2, applied_text (by rw [hkind]; rfl)
      (fun text => ?_) (hset config (array config)).1⟩
    rw [hkind]
    exact text.fits
  | path key array assign =>
    obtain ⟨rfl, hkind, hset⟩ := h
    refine ⟨_, value_of_values (hset config _).2, applied_text (by rw [hkind]; rfl)
      (fun text => ?_) (hset config (array config)).1⟩
    rw [hkind]
    exact text.fits

/-- What each single key keeps, a whole request keeps. -/
theorem applyPosted_invariant {P : Fin configKeys.length → SettingValue → Prop}
    (hstep : ∀ {config : WtConfig} {i value}, (∀ i, P i (config.value i)) →
      Applied config body i value → P i value)
    (h : ∀ i, P i (config.value i)) : ∀ i, P i ((applyPosted config body).value i) := by
  have hfold : ∀ keys : List PostedKey, (∀ posted ∈ keys, ∃ i, posted.Sets i) →
      ∀ i, P i ((keys.foldl (PostedKey.apply body) config).value i) := by
    intro keys
    induction keys using List.reverseRecOn with
    | nil => exact fun _ => h
    | append_singleton keys posted ih =>
      intro hsets i
      have hkeys := ih fun p hp => hsets p (List.mem_append_left _ hp)
      obtain ⟨j, hj⟩ := hsets posted (by simp)
      rw [List.foldl_append, List.foldl_cons, List.foldl_nil]
      obtain ⟨value, hvalue, happlied⟩ := hj.apply (keys.foldl (PostedKey.apply body) config) body
      rw [hvalue, Function.update_apply]
      split
      · rename_i hij
        rw [hij]
        exact hstep hkeys happlied
      · exact hkeys i
  exact hfold postedKeys postedKeys_sets

theorem sound_applyPosted (h : config.Sound) (hbody : 0 ∉ body) :
    (applyPosted config body).Sound :=
  applyPosted_invariant (fun hconfig happlied => happlied.sound hconfig hbody) h

/-- **A key that the body does not name keeps its value.** -/
theorem value_applyPosted {i : Fin configKeys.length}
    (h : findFieldValue body (configKeys.get i).key = none) :
    (applyPosted config body).value i = config.value i := by
  refine applyPosted_invariant (P := fun j value => j = i → value = config.value i) ?_ ?_ i rfl
  · rintro config' j value hconfig happlied rfl
    rw [happlied.unnamed h, hconfig j rfl]
  · rintro j rfl
    rfl

/-- The texts a body gives are storable. -/
def StorableBody (body : Bytes) : Prop :=
  ∀ (i : Fin configKeys.length) (text : Bytes),
    (wtJsonReadString body (configKeys.get i).key (configKeys.get i).kind.size).written = some text →
      Storable (.text text)

theorem storable_applyPosted (h : ∀ i, Storable (config.value i)) (hbody : StorableBody body) :
    ∀ i, Storable ((applyPosted config body).value i) := by
  refine applyPosted_invariant (fun hconfig happlied => ?_) h
  rcases happlied.decoded with hvalue | hvalue | ⟨text, hvalue, hread⟩
  · rw [hvalue]
    exact hconfig _
  · exact hvalue
  · rw [hvalue]
    exact hbody _ text hread

end apply

/-! ## A run of the daemon -/

/-- A request for `/api/config`, and whether the file can be written then. -/
structure ConfigRequest where
  text : Bytes
  /-- The request is a C string. -/
  terminated : 0 ∉ text
  writes : Bool

def configStep (config : WtConfig) (request : ConfigRequest) : WtConfig :=
  (handlePostConfig config request.text request.writes).config

/-- What the next start reads from the file. -/
def Survives (config : WtConfig) : Prop :=
  ∀ path, (wtConfigLoadFile {} (wtConfigWriteFile config) path).value = config.value

/-- Either the request changes nothing or its body is applied. -/
theorem configStep_cases (config : WtConfig) (request : ConfigRequest) :
    configStep config request = config ∨ ∃ body, requestBody request.text = some body ∧
      0 ∉ body ∧ configStep config request = applyPosted config body := by
  unfold configStep handlePostConfig
  cases hbody : requestBody request.text with
  | none => exact .inl rfl
  | some body =>
    have hzero : 0 ∉ body := by
      intro hz
      obtain ⟨found, hfound, rfl⟩ := Option.map_eq_some_iff.mp hbody
      obtain ⟨pre, rest, htext, rfl⟩ := strstr_eq_some hfound
      refine request.terminated ?_
      rw [htext]
      exact List.mem_append_right _ (List.mem_of_mem_drop hz)
    dsimp only
    split
    · exact .inl rfl
    · refine .inr ⟨body, rfl, hzero, ?_⟩
      split <;> rfl

/-- The texts of a request are storable. -/
def StorableRequest (request : ConfigRequest) : Prop :=
  ∀ body, requestBody request.text = some body → StorableBody body

section run

variable {config : WtConfig} {file path : Bytes} {requests : List ConfigRequest}

theorem sound_run : (run configStep (wtConfigLoadFile {} file path) requests).Sound := by
  have hstep : ∀ config request, WtConfig.Sound config → True →
      (configStep config request).Sound := by
    intro config request hconfig _
    rcases configStep_cases config request with hkeep | ⟨body, -, hzero, happlied⟩
    · rwa [hkeep]
    · rw [happlied]
      exact sound_applyPosted hconfig hzero
  exact run_invariant hstep (sound_load sound_defaults file path)
    (.of_forall fun _ _ _ => trivial)

theorem storable_run (h : ∀ i, Storable (config.value i))
    (hrequests : ∀ request ∈ requests, StorableRequest request) :
    ∀ i, Storable ((run configStep config requests).value i) := by
  have hstep : ∀ config request, (∀ i, Storable (WtConfig.value config i)) →
      StorableRequest request → ∀ i, Storable ((configStep config request).value i) := by
    intro config request hconfig hrequest
    rcases configStep_cases config request with hkeep | ⟨body, hbody, -, happlied⟩
    · rwa [hkeep]
    · rw [happlied]
      exact storable_applyPosted hconfig (hrequest body hbody)
  exact run_invariant hstep h (.of_forall fun _ => hrequests)

theorem survives_eq_storable (h : config.Sound) :
    Survives config ↔ ∀ i, Storable (config.value i) :=
  ⟨fun hsurvives => (reload_eq_iff h []).mp (hsurvives []),
    fun hstore path => (reload_eq_iff h path).mpr hstore⟩

/-- **A configuration survives a save and a reload exactly where no value has a line break or white
space at an end**; where the file and the requests give no such text, every configuration of the
run survives, and a request that survives has changed only the keys its body names. -/
theorem survives_iff (file path : Bytes) (requests : List ConfigRequest) :
    (Survives (run configStep (wtConfigLoadFile {} file path) requests) ↔
      ∀ i, Storable ((run configStep (wtConfigLoadFile {} file path) requests).value i)) ∧
    ((∀ i, Storable ((wtConfigLoadFile {} file path).value i)) →
      (∀ request ∈ requests, StorableRequest request) →
      Survives (run configStep (wtConfigLoadFile {} file path) requests)) ∧
    ∀ request body, requestBody request.text = some body →
      Survives (run configStep (wtConfigLoadFile {} file path) (requests ++ [request])) →
      ∀ i path', findFieldValue body (configKeys.get i).key = none →
        (wtConfigLoadFile {} (wtConfigWriteFile
          (run configStep (wtConfigLoadFile {} file path) (requests ++ [request]))) path').value i =
          (run configStep (wtConfigLoadFile {} file path) requests).value i := by
  refine ⟨survives_eq_storable sound_run, fun hfile hrequests =>
    (survives_eq_storable sound_run).mpr (storable_run hfile hrequests), ?_⟩
  intro request body hbody hsurvives i path' hunnamed
  rw [hsurvives path', run_append, run_cons, run_nil]
  generalize run configStep (wtConfigLoadFile {} file path) requests = config
  rcases configStep_cases config request with hkeep | ⟨body', hbody', -, happlied⟩
  · rw [hkeep]
  · obtain rfl := Option.some.inj (hbody'.symm.trans hbody)
    rw [happlied]
    exact value_applyPosted hunnamed

end run

/-- A mode with a line break and another key behind it. -/
def brokenModeRequest : ConfigRequest where
  text := bytes "POST /api/config HTTP/1.1\r\n\r\n\x7b\"claudeMode\":\"stub\\nhttpPort=1\"\x7d"
  terminated := by decide +kernel
  writes := true

theorem not_survives : ¬ ∀ (file path : Bytes) (requests : List ConfigRequest),
    Survives (run configStep (wtConfigLoadFile {} file path) requests) := by
  intro hall
  have hstore := (survives_eq_storable sound_run).mp
    (hall (bytes "roomName=phase0\n") (bytes "woventeam.conf") [brokenModeRequest])
  have hmode : ¬ Storable ((run configStep (wtConfigLoadFile {} (bytes "roomName=phase0\n")
      (bytes "woventeam.conf")) [brokenModeRequest]).value ⟨24, by decide⟩) := by decide +kernel
  exact hmode (hstore _)

end WovenTeam

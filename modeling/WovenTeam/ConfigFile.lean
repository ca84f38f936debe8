import Mathlib.Tactic.FinCases
import WovenTeam.Config
import WovenTeam.Lib.KeyValueFile

/-!
# The configuration file

`wtConfigLoadFile` and `wtConfigWriteFile`. The settings are listed once, in the order in which they
are written (`configKeys`), each with what `wtConfigSetValue` does for its key; the values stand in
the same order in `WtConfig.values`. `reload_iff`: a configuration is read back from the file it is
written to exactly where none of its strings has a line break or white space at an end.
-/

namespace WovenTeam

open CText LineReader KeyValueFile

/-! ## Settings -/

inductive SettingKind where
  | name
  | path
  | int
  | long
  | flag
  deriving DecidableEq

inductive SettingValue where
  | text (value : Bytes)
  | number (value : Int)
  | flag (value : Bool)
  deriving DecidableEq

def atol (value : Bytes) : Int := (strtoll value).getD 0

def atoi (value : Bytes) : Int := toInt32 (atol value)

/-- The value a setting of the kind takes from a text. -/
def SettingKind.read : SettingKind → Bytes → SettingValue
  | name, value => .text (snprintf wtNameSize value)
  | path, value => .text (snprintf wtPathSize value)
  | int, value => .number (atoi value)
  | long, value => .number (atol value)
  | flag, value => .flag (atoi value != 0)

def SettingValue.print : SettingValue → Bytes
  | text value => value
  | number value => decimal value
  | flag value => if value then bytes "1" else bytes "0"

/-- A key and what `wtConfigSetValue` does for it. -/
structure Setting where
  key : String
  kind : SettingKind
  set : WtConfig → Bytes → WtConfig

def configKeys : List Setting := [
  ⟨"roomName", .name, fun config value => { config with roomName := .copy _ value }⟩,
  ⟨"roomLogPath", .path, fun config value => { config with roomLogPath := .copy _ value }⟩,
  ⟨"taskLedgerPath", .path, fun config value => { config with taskLedgerPath := .copy _ value }⟩,
  ⟨"taskProjectionDbPath", .path,
    fun config value => { config with taskProjectionDbPath := .copy _ value }⟩,
  ⟨"httpBindAddress", .name, fun config value => { config with httpBindAddress := .copy _ value }⟩,
  ⟨"httpPort", .int, fun config value => { config with httpPort := atoi value }⟩,
  ⟨"contextMessageCount", .int,
    fun config value => { config with contextMessageCount := atoi value }⟩,
  ⟨"agentPollMilliseconds", .int,
    fun config value => { config with agentPollMilliseconds := atoi value }⟩,
  ⟨"adapterTimeoutSeconds", .int,
    fun config value => { config with adapterTimeoutSeconds := atoi value }⟩,
  ⟨"adapterMaxOutputBytes", .int,
    fun config value => { config with adapterMaxOutputBytes := atoi value }⟩,
  ⟨"maxActiveTasksPerAgent", .int,
    fun config value => { config with maxActiveTasksPerAgent := atoi value }⟩,
  ⟨"maxSubtasksPerParent", .int,
    fun config value => { config with maxSubtasksPerParent := atoi value }⟩,
  ⟨"maxTasksPerInitiative", .int,
    fun config value => { config with maxTasksPerInitiative := atoi value }⟩,
  ⟨"fsyncEachMessage", .flag,
    fun config value => { config with fsyncEachMessage := atoi value != 0 }⟩,
  ⟨"roleRoutingEnabled", .flag,
    fun config value => { config with roleRoutingEnabled := atoi value != 0 }⟩,
  ⟨"enableCodexAdapter", .flag,
    fun config value => { config with enableCodexAdapter := atoi value != 0 }⟩,
  ⟨"enableClaudeAdapter", .flag,
    fun config value => { config with enableClaudeAdapter := atoi value != 0 }⟩,
  ⟨"enableGeminiAdapter", .flag,
    fun config value => { config with enableGeminiAdapter := atoi value != 0 }⟩,
  ⟨"tokenTelemetryEnabled", .flag,
    fun config value => { config with tokenTelemetryEnabled := atoi value != 0 }⟩,
  ⟨"tokenDailyBudget", .long, fun config value => { config with tokenDailyBudget := atol value }⟩,
  ⟨"tokenMonthlyBudget", .long,
    fun config value => { config with tokenMonthlyBudget := atol value }⟩,
  ⟨"tokenWarningPercent", .int,
    fun config value => { config with tokenWarningPercent := atoi value }⟩,
  ⟨"tokenCostPerMillionCents", .int,
    fun config value => { config with tokenCostPerMillionCents := atoi value }⟩,
  ⟨"runtimeRootPath", .path, fun config value => { config with runtimeRootPath := .copy _ value }⟩,
  ⟨"claudeMode", .name, fun config value => { config with claudeMode := .copy _ value }⟩,
  ⟨"chatgptMode", .name, fun config value => { config with chatgptMode := .copy _ value }⟩,
  ⟨"geminiMode", .name, fun config value => { config with geminiMode := .copy _ value }⟩,
  ⟨"claudeCommand", .path, fun config value => { config with claudeCommand := .copy _ value }⟩,
  ⟨"gptCommand", .path, fun config value => { config with gptCommand := .copy _ value }⟩,
  ⟨"geminiCommand", .path, fun config value => { config with geminiCommand := .copy _ value }⟩,
  ⟨"blockedVendors", .path, fun config value => { config with blockedVendors := .copy _ value }⟩,
  ⟨"tokenBudgetPerInitiative", .long,
    fun config value => { config with tokenBudgetPerInitiative := atol value }⟩,
  ⟨"tokenBudgetPerModelFamily", .long,
    fun config value => { config with tokenBudgetPerModelFamily := atol value }⟩,
  ⟨"heartbeatIntervalSeconds", .int,
    fun config value => { config with heartbeatIntervalSeconds := atoi value }⟩,
  ⟨"leaseRenewalIntervalSeconds", .int,
    fun config value => { config with leaseRenewalIntervalSeconds := atoi value }⟩,
  ⟨"leaseDurationSeconds", .int,
    fun config value => { config with leaseDurationSeconds := atoi value }⟩,
  ⟨"cancelPollIntervalSeconds", .int,
    fun config value => { config with cancelPollIntervalSeconds := atoi value }⟩,
  ⟨"slackWebhookFile", .path,
    fun config value => { config with slackWebhookFile := .copy _ value }⟩,
  ⟨"notificationEscalateKey", .name,
    fun config value => { config with notificationEscalateKey := .copy _ value }⟩,
  ⟨"notificationStuckKey", .name,
    fun config value => { config with notificationStuckKey := .copy _ value }⟩,
  ⟨"defaultAutonomyLevel", .name,
    fun config value => { config with defaultAutonomyLevel := .copy _ value }⟩,
  ⟨"claudeDefaultAutonomyLevel", .name,
    fun config value => { config with claudeDefaultAutonomyLevel := .copy _ value }⟩,
  ⟨"chatgptDefaultAutonomyLevel", .name,
    fun config value => { config with chatgptDefaultAutonomyLevel := .copy _ value }⟩,
  ⟨"geminiDefaultAutonomyLevel", .name,
    fun config value => { config with geminiDefaultAutonomyLevel := .copy _ value }⟩,
  ⟨"deliverableRoot", .path, fun config value => { config with deliverableRoot := .copy _ value }⟩,
  ⟨"deliverableDefaultMode", .name,
    fun config value => { config with deliverableDefaultMode := .copy _ value }⟩,
  ⟨"deliverableBranchPrefix", .name,
    fun config value => { config with deliverableBranchPrefix := .copy _ value }⟩,
  ⟨"secretScanPatternsFile", .path,
    fun config value => { config with secretScanPatternsFile := .copy _ value }⟩,
  ⟨"remoteAllowedIps", .path,
    fun config value => { config with remoteAllowedIps := .copy _ value }⟩,
  ⟨"authTokenDefaultTtlSeconds", .int,
    fun config value => { config with authTokenDefaultTtlSeconds := atoi value }⟩,
  ⟨"operatorSessionPath", .path,
    fun config value => { config with operatorSessionPath := .copy _ value }⟩]

def WtConfig.values (config : WtConfig) : List SettingValue :=
  [.text config.roomName.text,
    .text config.roomLogPath.text,
    .text config.taskLedgerPath.text,
    .text config.taskProjectionDbPath.text,
    .text config.httpBindAddress.text,
    .number config.httpPort,
    .number config.contextMessageCount,
    .number config.agentPollMilliseconds,
    .number config.adapterTimeoutSeconds,
    .number config.adapterMaxOutputBytes,
    .number config.maxActiveTasksPerAgent,
    .number config.maxSubtasksPerParent,
    .number config.maxTasksPerInitiative,
    .flag config.fsyncEachMessage,
    .flag config.roleRoutingEnabled,
    .flag config.enableCodexAdapter,
    .flag config.enableClaudeAdapter,
    .flag config.enableGeminiAdapter,
    .flag config.tokenTelemetryEnabled,
    .number config.tokenDailyBudget,
    .number config.tokenMonthlyBudget,
    .number config.tokenWarningPercent,
    .number config.tokenCostPerMillionCents,
    .text config.runtimeRootPath.text,
    .text config.claudeMode.text,
    .text config.chatgptMode.text,
    .text config.geminiMode.text,
    .text config.claudeCommand.text,
    .text config.gptCommand.text,
    .text config.geminiCommand.text,
    .text config.blockedVendors.text,
    .number config.tokenBudgetPerInitiative,
    .number config.tokenBudgetPerModelFamily,
    .number config.heartbeatIntervalSeconds,
    .number config.leaseRenewalIntervalSeconds,
    .number config.leaseDurationSeconds,
    .number config.cancelPollIntervalSeconds,
    .text config.slackWebhookFile.text,
    .text config.notificationEscalateKey.text,
    .text config.notificationStuckKey.text,
    .text config.defaultAutonomyLevel.text,
    .text config.claudeDefaultAutonomyLevel.text,
    .text config.chatgptDefaultAutonomyLevel.text,
    .text config.geminiDefaultAutonomyLevel.text,
    .text config.deliverableRoot.text,
    .text config.deliverableDefaultMode.text,
    .text config.deliverableBranchPrefix.text,
    .text config.secretScanPatternsFile.text,
    .text config.remoteAllowedIps.text,
    .number config.authTokenDefaultTtlSeconds,
    .text config.operatorSessionPath.text]

/-- A key that is not known changes nothing. -/
def wtConfigSetValue (config : WtConfig) (key value : Bytes) : WtConfig :=
  match configKeys.find? fun setting => bytes setting.key == key with
  | some setting => setting.set config value
  | none => config

def wtConfigLoadFile (config : WtConfig) (file path : Bytes) : WtConfig :=
  (assignments 512 file).foldl (fun config assign => wtConfigSetValue config assign.1 assign.2)
    { config with configPath := .copy _ path }

/-- The keys with their values as they are printed. -/
def WtConfig.printed (config : WtConfig) : List (Bytes × Bytes) :=
  (configKeys.zip config.values).map fun entry => (bytes entry.1.key, entry.2.print)

def wtConfigWriteFile (config : WtConfig) : Bytes := writeSettings config.printed

/-! ## The table -/

theorem length_values (config : WtConfig) : config.values.length = configKeys.length := rfl

/-- The value of a key. -/
def WtConfig.value (config : WtConfig) (i : Fin configKeys.length) : SettingValue :=
  config.values.get (i.cast (length_values config).symm)

/-- A setting changes its own value, to what its kind reads. -/
theorem value_set (config : WtConfig) (text : Bytes) (i : Fin configKeys.length) :
    (configKeys[i].set config text).value =
      Function.update config.value i (configKeys[i].kind.read text) := by
  have hvalues : (configKeys[i].set config text).values =
      config.values.set i (configKeys[i].kind.read text) := by fin_cases i <;> rfl
  funext j
  simp only [WtConfig.value, List.get_eq_getElem, Fin.val_cast, Function.update_apply, hvalues,
    List.getElem_set]
  exact if_congr (by rw [eq_comm, Fin.ext_iff]) rfl rfl

theorem keys_nodup : (configKeys.map fun setting => bytes setting.key).Nodup := by
  decide +kernel

theorem keys_inj {i j : Fin configKeys.length}
    (h : bytes configKeys[i].key = bytes configKeys[j].key) : i = j := by
  have hpairs := List.pairwise_iff_get.mp (List.pairwise_map.mp keys_nodup)
  rcases lt_trichotomy i j with hij | hij | hij
  · exact absurd h (hpairs i j hij)
  · exact hij
  · exact absurd h.symm (hpairs j i hij)

/-- A search finds the one element that passes. -/
theorem find?_unique {α : Type} {p : α → Bool} {l : List α} {a : α} (ha : a ∈ l) (hp : p a)
    (h : ∀ b ∈ l, p b → b = a) : l.find? p = some a := by
  cases hfind : l.find? p with
  | none => exact absurd hp (List.find?_eq_none.mp hfind a ha)
  | some b => rw [h b (List.mem_of_find?_eq_some hfind) (List.find?_some hfind)]

/-- **Setting a key changes its value and no other.** -/
theorem value_wtConfigSetValue (config : WtConfig) (key text : Bytes) (i : Fin configKeys.length) :
    (wtConfigSetValue config key text).value i =
      if bytes configKeys[i].key = key then configKeys[i].kind.read text else config.value i := by
  unfold wtConfigSetValue
  cases hfind : configKeys.find? fun setting => bytes setting.key == key with
  | none =>
    have hkey := List.find?_eq_none.mp hfind configKeys[i] (List.getElem_mem _)
    rw [if_neg (by simpa using hkey)]
  | some setting =>
    obtain ⟨j, rfl⟩ := List.mem_iff_get.mp (List.mem_of_find?_eq_some hfind)
    have hkey : bytes configKeys[j].key = key := by simpa using List.find?_some hfind
    change (configKeys[j].set config text).value i = _
    rw [value_set, Function.update_apply, ← hkey]
    by_cases hij : i = j
    · rw [if_pos hij, if_pos (by rw [hij]), hij]
    · rw [if_neg hij, if_neg fun h => hij (keys_inj h)]

/-! ## Values -/

/-- The values that a setting of a kind can have. -/
def SettingKind.Holds : SettingKind → SettingValue → Prop
  | name, .text value => value.length < wtNameSize
  | path, .text value => value.length < wtPathSize
  | int, .number n => -2 ^ 31 ≤ n ∧ n < 2 ^ 31
  | long, .number n => -2 ^ 63 ≤ n ∧ n < 2 ^ 63
  | flag, .flag _ => True
  | _, _ => False

instance (kind : SettingKind) (value : SettingValue) : Decidable (kind.Holds value) := by
  unfold SettingKind.Holds
  split <;> infer_instance

theorem atol_range (text : Bytes) : -2 ^ 63 ≤ atol text ∧ atol text < 2 ^ 63 := by
  unfold atol
  cases h : strtoll text with
  | none => simp
  | some n => exact strtoll_range h

theorem holds_read (kind : SettingKind) (text : Bytes) : kind.Holds (kind.read text) := by
  cases kind with
  | name => exact snprintf_length_lt text (by decide)
  | path => exact snprintf_length_lt text (by decide)
  | int => exact toInt32_range _
  | long => exact atol_range text
  | flag => trivial

theorem print_flag (b : Bool) : (SettingValue.flag b).print = decimal (if b then 1 else 0) := by
  cases b <;> decide

/-- A value that survives its line: no line break, no white space at an end. -/
def Storable (value : SettingValue) : Prop :=
  newline ∉ value.print ∧ trimWhitespace value.print = value.print

instance (value : SettingValue) : Decidable (Storable value) := by
  unfold Storable
  infer_instance

/-- A value of its kind without a terminator in its text. -/
structure SettingKind.Sound (kind : SettingKind) (value : SettingValue) : Prop where
  holds : kind.Holds value
  terminated : 0 ∉ value.print

section read

variable {kind : SettingKind} {value : SettingValue}

/-- A text of one of the two sizes is kept by its own array. -/
theorem SettingKind.Holds.read_text {text : Bytes} (h : kind.Holds (.text text)) {other : Bytes}
    (hle : other.length ≤ text.length) : kind.read other = .text other := by
  cases kind with
  | name => exact congrArg _ (snprintf_of_lt (hle.trans_lt h))
  | path => exact congrArg _ (snprintf_of_lt (hle.trans_lt h))
  | int => exact h.elim
  | long => exact h.elim
  | flag => exact h.elim

theorem SettingKind.Holds.read_number {n : Int} (h : kind.Holds (.number n)) :
    kind.read (decimal n) = .number n := by
  have hatol : ∀ {m : Int}, -2 ^ 63 ≤ m ∧ m < 2 ^ 63 → atol (decimal m) = m := by
    intro m hm
    have hread : strtoll (decimal m ++ []) = some m := strtoll_decimal hm (by simp)
    rw [List.append_nil] at hread
    rw [atol, hread, Option.getD_some]
  cases kind with
  | name => exact h.elim
  | path => exact h.elim
  | int =>
    have hn : -2 ^ 31 ≤ n ∧ n < 2 ^ 31 := h
    change SettingValue.number (toInt32 (atol (decimal n))) = _
    rw [hatol ⟨by omega, by omega⟩, toInt32_of_range hn]
  | long => exact congrArg _ (hatol h)
  | flag => exact h.elim

theorem SettingKind.Holds.read_flag {b : Bool} (h : kind.Holds (.flag b)) :
    kind.read (SettingValue.flag b).print = .flag b := by
  cases kind with
  | name => exact h.elim
  | path => exact h.elim
  | int => exact h.elim
  | long => exact h.elim
  | flag => cases b <;> decide

/-- **A value is read back from its line where it has no white space at an end.** -/
theorem SettingKind.Holds.read_reloaded (h : kind.Holds value) :
    kind.read (reloaded value.print) = value ↔ trimWhitespace value.print = value.print := by
  cases value with
  | text text =>
    simp only [SettingValue.print]
    rw [h.read_text (length_reloaded_le text), SettingValue.text.injEq]
    exact reloaded_eq_self_iff
  | number n =>
    have htrim : trimWhitespace (decimal n) = decimal n :=
      trimWhitespace_of_solid fun b hb => (mem_decimal hb).1
    have hread : reloaded (decimal n) = decimal n := reloaded_eq_self_iff.mpr htrim
    simp only [SettingValue.print, hread, htrim, h.read_number]
  | flag b =>
    have htrim : trimWhitespace (SettingValue.flag b).print = (SettingValue.flag b).print := by
      cases b <;> decide
    rw [reloaded_eq_self_iff.mpr htrim, h.read_flag]
    simp [htrim]

end read

/-! ## Loading -/

/-- The last value that a list of assignments gives a key. -/
def lastAssigned (key : Bytes) (assigns : List (Bytes × Bytes)) : Option Bytes :=
  (assigns.reverse.find? fun assign => key == assign.1).map (·.2)

theorem lastAssigned_concat (key : Bytes) (assigns : List (Bytes × Bytes))
    (assign : Bytes × Bytes) :
    lastAssigned key (assigns ++ [assign]) =
      if key = assign.1 then some assign.2 else lastAssigned key assigns := by
  unfold lastAssigned
  rw [List.reverse_append, List.reverse_singleton, List.singleton_append]
  by_cases hkey : key = assign.1
  · rw [List.find?_cons_of_pos (by simpa using hkey), if_pos hkey, Option.map_some]
  · rw [List.find?_cons_of_neg (by simpa using hkey), if_neg hkey]

theorem value_assigned (config : WtConfig) (assigns : List (Bytes × Bytes))
    (i : Fin configKeys.length) :
    (assigns.foldl (fun config assign => wtConfigSetValue config assign.1 assign.2) config).value i =
      ((lastAssigned (bytes configKeys[i].key) assigns).map configKeys[i].kind.read).getD
        (config.value i) := by
  induction assigns using List.reverseRecOn with
  | nil => rfl
  | append_singleton assigns assign ih =>
    rw [List.foldl_append, List.foldl_cons, List.foldl_nil, value_wtConfigSetValue, ih,
      lastAssigned_concat]
    split <;> rfl

/-- **A key that is loaded has the value the file gives it last.** -/
theorem value_load (config : WtConfig) (file path : Bytes) (i : Fin configKeys.length) :
    (wtConfigLoadFile config file path).value i =
      ((lastAssigned (bytes configKeys[i].key) (assignments 512 file)).map
        configKeys[i].kind.read).getD (config.value i) :=
  value_assigned _ _ i

theorem lastAssigned_mem {key value : Bytes} {assigns : List (Bytes × Bytes)}
    (h : lastAssigned key assigns = some value) : (key, value) ∈ assigns := by
  obtain ⟨assign, hfind, rfl⟩ := Option.map_eq_some_iff.mp h
  have hkey : key = assign.1 := by simpa using List.find?_some hfind
  rw [hkey]
  exact List.mem_reverse.mp (List.mem_of_find?_eq_some hfind)

/-- A byte of white space or a terminator in a value that was read stands in its text. -/
theorem mem_print_read {kind : SettingKind} {text : Bytes} {b : UInt8}
    (h : b ∈ (kind.read text).print) (hb : isSpace b ∨ b = 0) : b ∈ text := by
  have hnumber : ∀ {n : Int}, b ∉ decimal n := by
    intro n hmem
    obtain ⟨hspace, hzero⟩ := mem_decimal hmem
    rcases hb with hb | hb
    · rw [hspace] at hb
      cases hb
    · exact hzero hb
  cases kind with
  | name => exact List.mem_of_mem_take h
  | path => exact List.mem_of_mem_take h
  | int => exact absurd h hnumber
  | long => exact absurd h hnumber
  | flag =>
    rw [SettingKind.read, print_flag] at h
    exact absurd h hnumber

/-- What every configuration of a program satisfies: the arrays hold texts, the numbers fit. -/
def WtConfig.Sound (config : WtConfig) : Prop :=
  ∀ i : Fin configKeys.length, (configKeys.get i).kind.Sound (config.value i)

theorem sound_defaults : ({} : WtConfig).Sound := by
  intro i
  fin_cases i <;> exact ⟨by decide, by decide⟩

theorem sound_load {config : WtConfig} (h : config.Sound) (file path : Bytes) :
    (wtConfigLoadFile config file path).Sound := by
  intro i
  rw [value_load]
  cases hlast : lastAssigned (bytes configKeys[i].key) (assignments 512 file) with
  | none => exact h i
  | some text =>
    have htext := assignments_lineText (lastAssigned_mem hlast)
    exact ⟨holds_read _ text, fun hz => htext.2 (mem_print_read hz (.inr rfl))⟩

theorem printed_eq (config : WtConfig) :
    config.printed = List.ofFn fun i : Fin configKeys.length =>
      (bytes configKeys[i].key, (config.value i).print) := by
  refine List.ext_getElem (by simp [WtConfig.printed, length_values]) fun n hn hn' => ?_
  simp [WtConfig.printed, WtConfig.value]

/-- The keys are short and have nothing a line is split or cut at. -/
theorem keys_plain : ∀ setting ∈ configKeys, (bytes setting.key).length < 32 ∧
    bytes setting.key ≠ [] ∧ (bytes setting.key).all fun b =>
      !isSpace b && b != equalsSign && b != 0 && b != 35 := by
  decide +kernel

theorem plainKey (i : Fin configKeys.length) : PlainKey (bytes configKeys[i].key) := by
  obtain ⟨-, hne, hplain⟩ := keys_plain configKeys[i] (List.getElem_mem _)
  refine ⟨hne, fun b hb => ?_⟩
  have := List.all_eq_true.mp hplain b hb
  simpa [and_assoc] using this

/-! ## Saving and loading -/

section reload

variable {config : WtConfig}

theorem length_print (h : config.Sound) (i : Fin configKeys.length) :
    (config.value i).print.length < wtPathSize := by
  have hholds := (h i).holds
  generalize configKeys[i].kind = kind at hholds
  cases hvalue : config.value i with
  | text text =>
    rw [hvalue] at hholds
    have hname : wtNameSize ≤ wtPathSize := by decide
    cases kind with
    | name => exact lt_of_lt_of_le hholds hname
    | path => exact hholds
    | int => exact hholds.elim
    | long => exact hholds.elim
    | flag => exact hholds.elim
  | number n =>
    rw [hvalue] at hholds
    have hn : -2 ^ 63 ≤ n ∧ n < 2 ^ 63 := by
      cases kind with
      | name => exact hholds.elim
      | path => exact hholds.elim
      | int =>
        have hint : -2 ^ 31 ≤ n ∧ n < 2 ^ 31 := hholds
        omega
      | long => exact hholds
      | flag => exact hholds.elim
    have hlen := length_decimal hn
    have hsize : 20 < wtPathSize := by decide
    exact lt_of_le_of_lt hlen hsize
  | flag b => cases b <;> decide

theorem length_key (i : Fin configKeys.length) : (bytes configKeys[i].key).length < 32 :=
  (keys_plain configKeys[i] (List.getElem_mem _)).1

/-- What a file without a broken line gives each key. -/
theorem lastAssigned_written (h : config.Sound) (hline : ∀ i, newline ∉ (config.value i).print)
    (i : Fin configKeys.length) :
    lastAssigned (bytes configKeys[i].key) (assignments 512 (wtConfigWriteFile config)) =
      some (reloaded (config.value i).print) := by
  have hwritable : ∀ setting ∈ config.printed, Writable 512 setting := by
    intro setting hsetting
    rw [printed_eq] at hsetting
    obtain ⟨j, rfl⟩ := (List.mem_ofFn' _ _).mp hsetting
    have hkey := length_key j
    have hvalue := length_print h j
    refine ⟨plainKey j, ⟨hline j, (h j).terminated⟩, ?_⟩
    dsimp only
    unfold wtPathSize at hvalue
    omega
  unfold lastAssigned
  rw [wtConfigWriteFile, assignments_write hwritable, printed_eq, List.map_ofFn,
    find?_unique (a := (bytes configKeys[i].key, reloaded (config.value i).print)), Option.map_some]
  · rw [List.mem_reverse]
    exact (List.mem_ofFn' _ _).mpr ⟨i, rfl⟩
  · exact beq_self_eq_true _
  · intro assign hassign hkey
    obtain ⟨j, rfl⟩ := (List.mem_ofFn' _ _).mp (List.mem_reverse.mp hassign)
    have hij : i = j := keys_inj (by simpa using hkey)
    rw [hij]
    rfl

/-- **A configuration whose values all survive their lines is read back, into any other.** -/
theorem value_reload (h : config.Sound) (hstore : ∀ i, Storable (config.value i))
    (base : WtConfig) (path : Bytes) :
    (wtConfigLoadFile base (wtConfigWriteFile config) path).value = config.value := by
  funext i
  rw [value_load, lastAssigned_written h (fun j => (hstore j).1) i, Option.map_some,
    Option.getD_some]
  exact (h i).holds.read_reloaded.mpr (hstore i).2

/-- A value that was read from a file has no line break. -/
theorem newline_notMem_load {base : WtConfig} (hbase : ∀ i, newline ∉ (base.value i).print)
    (file path : Bytes) (i : Fin configKeys.length) :
    newline ∉ ((wtConfigLoadFile base file path).value i).print := by
  rw [value_load]
  cases hlast : lastAssigned (bytes configKeys[i].key) (assignments 512 file) with
  | none => exact hbase i
  | some text =>
    intro hnl
    exact (assignments_lineText (lastAssigned_mem hlast)).1 (mem_print_read hnl (.inl rfl))

theorem newline_notMem_defaults (i : Fin configKeys.length) :
    newline ∉ (({} : WtConfig).value i).print := by
  fin_cases i <;> decide

/-- **What survives a save and a reload.** -/
theorem reload_eq_iff (h : config.Sound) (path : Bytes) :
    (wtConfigLoadFile {} (wtConfigWriteFile config) path).value = config.value ↔
      ∀ i, Storable (config.value i) := by
  refine ⟨fun heq i => ?_, fun hstore => value_reload h hstore {} path⟩
  have hline : ∀ i, newline ∉ (config.value i).print := by
    intro i
    rw [← heq]
    exact newline_notMem_load newline_notMem_defaults _ path i
  have hread := congrFun heq i
  rw [value_load, lastAssigned_written h hline i, Option.map_some, Option.getD_some] at hread
  exact ⟨hline i, (h i).holds.read_reloaded.mp hread⟩

end reload

end WovenTeam

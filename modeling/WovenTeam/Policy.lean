import WovenTeam.Config

/-!
# The policy evaluator

`wt_policy.c`: one decision on a proposed task package from the configuration and totals its
caller has prepared. The checks run in a fixed order and the first that denies decides; a package
is allowed where none does (`evaluate_allowed_iff`).
-/

namespace WovenTeam

open CText

abbrev wtPolicyReasonSize : Nat := 48
abbrev wtPolicyMessageSize : Nat := 256

structure WtPolicyDecision where
  allowed : Bool
  reason : Bytes
  message : Bytes
  deriving DecidableEq, Repr

/-- What the caller knows of the proposed package, and the totals of the read models. -/
structure WtPolicyInput where
  taskId : Bytes
  assignedRole : Bytes
  assignedAgent : Bytes
  modelId : Bytes
  toolProfile : Bytes
  initiativeId : Bytes
  autonomyLevel : Bytes
  autonomyScope : Bytes := []
  autonomyNetwork : Bytes := []
  autonomyCredentialClass : Bytes := []
  autonomyTtlSeconds : Int := 0
  autonomyMaxWallClockSeconds : Int := 0
  autonomyRequiresCleanWorktree : Bool := false
  autonomyCreatedAtUnixMs : Int := 0
  autonomyRevokedAtUnixMs : Int := 0
  maxTokens : Int
  nowUnixMs : Int := 0
  dayWindowAllocatedTokens : Int := 0
  monthWindowAllocatedTokens : Int := 0
  initiativeAllocatedTokens : Int := 0
  modelFamilyAllocatedTokens : Int := 0
  activeTasksForAgent : Int := 0
  activeTasksForInitiative : Int := 0
  deriving DecidableEq, Repr

/-! ## Vendors and models -/

def slash : UInt8 := 47

/-- The text before the first slash, cut to the buffer; nothing where there is no slash or nothing
before it. -/
def wtPolicyExtractModelFamily (modelId : Bytes) (bufferSize : Nat) : Option Bytes :=
  if slash ∈ modelId ∧ modelId.head? ≠ some slash then
    some ((modelId.takeWhile (· != slash)).take (bufferSize - 1))
  else none

/-- Whether an item of the list, without the blanks around it, is the family. -/
def wtPolicyVendorIsBlocked (blockedVendors modelFamily : Bytes) : Bool :=
  modelFamily != [] && (strtok comma blockedVendors).any fun item => trimBlanks item == modelFamily

def modelMatchesAgentLocal (agent modelFamily : Bytes) : Bool :=
  if modelFamily = [] then true
  else if agent = bytes "claude" then modelFamily == bytes "anthropic"
  else if agent = bytes "gemini" then modelFamily == bytes "google"
  else if agent = bytes "chatgpt" then modelFamily == bytes "openai"
  else true

/-! ## The checks -/

def setDecision (allowed : Bool) (reason : String) (message : Bytes) : WtPolicyDecision where
  allowed := allowed
  reason := snprintf wtPolicyReasonSize (bytes reason)
  message := snprintf wtPolicyMessageSize message

def deny (reason : String) (message : Bytes) : Option WtPolicyDecision :=
  some (setDecision false reason message)

def autonomyLevelIsValid (level : Bytes) : Bool :=
  level == bytes "observe" || level == bytes "ask-each" || level == bytes "ask-batch" ||
    level == bytes "autonomous"

def autonomyScopeCoversAdapter (scope : Bytes) : Bool :=
  scope != [] && ((strstr (bytes "workspace") scope).isSome ||
    (strstr (bytes "adapter") scope).isSome || (strstr (bytes "*") scope).isSome)

/-- Autonomy grants fail closed. -/
def autonomyDenial (input : WtPolicyInput) : Option WtPolicyDecision :=
  if input.autonomyLevel = [] then none
  else if !autonomyLevelIsValid input.autonomyLevel then
    deny "autonomy_required" (bytes "unknown autonomyLevel")
  else if input.autonomyLevel ≠ bytes "autonomous" then none
  else if input.autonomyRevokedAtUnixMs > 0 then
    deny "autonomy_revoked" (bytes "autonomy grant was revoked")
  else if input.autonomyTtlSeconds ≤ 0 ∨ !autonomyScopeCoversAdapter input.autonomyScope then
    deny "autonomy_required"
      (bytes "autonomous tasks require a positive ttlSeconds and adapter/workspace scope")
  else
    let grantStart :=
      if input.autonomyCreatedAtUnixMs > 0 then input.autonomyCreatedAtUnixMs else input.nowUnixMs
    if input.nowUnixMs > wrap64 (grantStart + wrap64 (input.autonomyTtlSeconds * 1000)) then
      deny "autonomy_expired" (bytes "autonomy grant ttl has expired")
    else none

/-- The family the checks work with. -/
def WtPolicyInput.modelFamily (input : WtPolicyInput) : Option Bytes :=
  wtPolicyExtractModelFamily input.modelId 64

def vendorDenial (config : WtConfig) (input : WtPolicyInput) : Option WtPolicyDecision :=
  match input.modelFamily with
  | none => none
  | some modelFamily =>
    if wtPolicyVendorIsBlocked config.blockedVendors.text modelFamily then
      deny "vendor_blocked" (bytes "vendor '" ++ modelFamily ++
        bytes "' is on the blockedVendors allowlist (modelId=" ++ input.modelId ++ bytes ").")
    else none

def modelAgentDenial (input : WtPolicyInput) : Option WtPolicyDecision :=
  match input.modelFamily with
  | none => none
  | some modelFamily =>
    if input.assignedAgent ≠ [] ∧ input.assignedAgent ≠ bytes "router" ∧
        input.assignedAgent ≠ bytes "all" ∧
        !modelMatchesAgentLocal input.assignedAgent modelFamily then
      deny "model_agent_mismatch" (bytes "model '" ++ input.modelId ++
        bytes "' does not match assigned agent '" ++ input.assignedAgent ++ bytes "'.")
    else none

def initiativeBudgetDenial (config : WtConfig) (input : WtPolicyInput) :
    Option WtPolicyDecision :=
  if input.initiativeId ≠ [] ∧ config.tokenBudgetPerInitiative > 0 ∧
      wrap64 (input.initiativeAllocatedTokens + input.maxTokens) >
        config.tokenBudgetPerInitiative then
    deny "initiative_budget" (bytes "initiative '" ++ input.initiativeId ++
      bytes "' would exceed tokenBudgetPerInitiative (allocated=" ++
      decimal input.initiativeAllocatedTokens ++ bytes " + request=" ++ decimal input.maxTokens ++
      bytes " > cap=" ++ decimal config.tokenBudgetPerInitiative ++ bytes ").")
  else none

def modelFamilyBudgetDenial (config : WtConfig) (input : WtPolicyInput) :
    Option WtPolicyDecision :=
  match input.modelFamily with
  | none => none
  | some modelFamily =>
    if config.tokenBudgetPerModelFamily > 0 ∧
        wrap64 (input.modelFamilyAllocatedTokens + input.maxTokens) >
          config.tokenBudgetPerModelFamily then
      deny "model_family_budget" (bytes "model family '" ++ modelFamily ++
        bytes "' would exceed tokenBudgetPerModelFamily (allocated=" ++
        decimal input.modelFamilyAllocatedTokens ++ bytes " + request=" ++
        decimal input.maxTokens ++ bytes " > cap=" ++ decimal config.tokenBudgetPerModelFamily ++
        bytes ").")
    else none

/-- The test against one of the rolling windows. -/
def exceedsWindow (budget allocated maxTokens : Int) : Bool :=
  decide (budget > 0) && decide (wrap64 (allocated + maxTokens) > budget)

def windowDenial (config : WtConfig) (input : WtPolicyInput) : Option WtPolicyDecision :=
  if exceedsWindow config.tokenDailyBudget input.dayWindowAllocatedTokens input.maxTokens then
    deny "daily_budget" (bytes "daily token budget exceeded")
  else if exceedsWindow config.tokenMonthlyBudget input.monthWindowAllocatedTokens
      input.maxTokens then
    deny "monthly_budget" (bytes "monthly token budget exceeded")
  else none

/-- The token budgets, for a package that asks for tokens. -/
def budgetDenial (config : WtConfig) (input : WtPolicyInput) : Option WtPolicyDecision :=
  if input.maxTokens > 0 ∧ config.tokenTelemetryEnabled then
    initiativeBudgetDenial config input <|> modelFamilyBudgetDenial config input <|>
      windowDenial config input
  else none

def capacityDenial (config : WtConfig) (input : WtPolicyInput) : Option WtPolicyDecision :=
  if config.maxActiveTasksPerAgent > 0 ∧
      input.activeTasksForAgent ≥ config.maxActiveTasksPerAgent then
    deny "capacity_agent" (bytes "agent '" ++ input.assignedAgent ++
      bytes "' is at capacity (active=" ++ decimal input.activeTasksForAgent ++ bytes " cap=" ++
      decimal config.maxActiveTasksPerAgent ++ bytes ").")
  else if input.initiativeId ≠ [] ∧ config.maxTasksPerInitiative > 0 ∧
      input.activeTasksForInitiative ≥ config.maxTasksPerInitiative then
    deny "capacity_initiative" (bytes "initiative '" ++ input.initiativeId ++
      bytes "' is at task-count capacity (active=" ++ decimal input.activeTasksForInitiative ++
      bytes " cap=" ++ decimal config.maxTasksPerInitiative ++ bytes ").")
  else none

/-! ## The decision -/

/-- The first check that denies, in the order of the source. -/
def firstDenial (config : WtConfig) (input : WtPolicyInput) : Option WtPolicyDecision :=
  autonomyDenial input <|> vendorDenial config input <|> modelAgentDenial input <|>
    budgetDenial config input <|> capacityDenial config input

def wtPolicyEvaluateTaskPackage (config : WtConfig) (input : WtPolicyInput) : WtPolicyDecision :=
  (firstDenial config input).getD (setDecision true "ok" (bytes "policy accepted"))

variable {config : WtConfig} {input : WtPolicyInput}

/-- A decision that a check hands out denies. -/
def Denies (decision : Option WtPolicyDecision) : Prop := ∀ d ∈ decision, d.allowed = false

theorem denies_none : Denies none := by simp [Denies]

theorem denies_deny (reason : String) (message : Bytes) : Denies (deny reason message) := by
  simp [Denies, deny, setDecision]

theorem Denies.orElse {a b : Option WtPolicyDecision} (ha : Denies a) (hb : Denies b) :
    Denies (a <|> b) := by
  cases a with
  | none => simpa using hb
  | some d => simpa using ha

theorem denies_autonomyDenial : Denies (autonomyDenial input) := by
  unfold autonomyDenial
  dsimp only
  repeat' split
  all_goals first | exact denies_none | exact denies_deny _ _

theorem denies_vendorDenial : Denies (vendorDenial config input) := by
  unfold vendorDenial
  repeat' split
  all_goals first | exact denies_none | exact denies_deny _ _

theorem denies_modelAgentDenial : Denies (modelAgentDenial input) := by
  unfold modelAgentDenial
  repeat' split
  all_goals first | exact denies_none | exact denies_deny _ _

theorem denies_budgetDenial : Denies (budgetDenial config input) := by
  unfold budgetDenial
  split
  · refine .orElse ?_ (.orElse ?_ ?_)
    · unfold initiativeBudgetDenial
      split
      · exact denies_deny _ _
      · exact denies_none
    · unfold modelFamilyBudgetDenial
      repeat' split
      all_goals first | exact denies_none | exact denies_deny _ _
    · unfold windowDenial
      repeat' split
      all_goals first | exact denies_none | exact denies_deny _ _
  · exact denies_none

theorem denies_capacityDenial : Denies (capacityDenial config input) := by
  unfold capacityDenial
  repeat' split
  all_goals first | exact denies_none | exact denies_deny _ _

/-- **A package is allowed where no check denies.** -/
theorem evaluate_allowed_iff :
    (wtPolicyEvaluateTaskPackage config input).allowed = true ↔
      autonomyDenial input = none ∧ vendorDenial config input = none ∧
        modelAgentDenial input = none ∧ budgetDenial config input = none ∧
        capacityDenial config input = none := by
  have hdenies : Denies (firstDenial config input) :=
    denies_autonomyDenial.orElse (denies_vendorDenial.orElse (denies_modelAgentDenial.orElse
      (denies_budgetDenial.orElse denies_capacityDenial)))
  have hfirst : (wtPolicyEvaluateTaskPackage config input).allowed = true ↔
      firstDenial config input = none := by
    unfold wtPolicyEvaluateTaskPackage
    cases hd : firstDenial config input with
    | none => simp [setDecision]
    | some d => simp [hdenies d hd]
  rw [hfirst, firstDenial]
  simp

theorem not_blocked_of_allowed {modelFamily : Bytes}
    (h : (wtPolicyEvaluateTaskPackage config input).allowed = true)
    (hfamily : input.modelFamily = some modelFamily) :
    wtPolicyVendorIsBlocked config.blockedVendors.text modelFamily = false := by
  have hvendor := (evaluate_allowed_iff.mp h).2.1
  simp only [vendorDenial, hfamily, deny, ite_eq_right_iff, reduceCtorEq, imp_false] at hvendor
  simpa using hvendor

/-- What the budget checks leave of an allowed package that asks for tokens. -/
theorem budgets_of_allowed (h : (wtPolicyEvaluateTaskPackage config input).allowed = true)
    (htokens : 0 < input.maxTokens) (henabled : config.tokenTelemetryEnabled = true) :
    (input.initiativeId ≠ [] → 0 < config.tokenBudgetPerInitiative →
        wrap64 (input.initiativeAllocatedTokens + input.maxTokens) ≤
          config.tokenBudgetPerInitiative) ∧
      (input.modelFamily.isSome → 0 < config.tokenBudgetPerModelFamily →
        wrap64 (input.modelFamilyAllocatedTokens + input.maxTokens) ≤
          config.tokenBudgetPerModelFamily) ∧
      (0 < config.tokenDailyBudget →
        wrap64 (input.dayWindowAllocatedTokens + input.maxTokens) ≤ config.tokenDailyBudget) ∧
      (0 < config.tokenMonthlyBudget →
        wrap64 (input.monthWindowAllocatedTokens + input.maxTokens) ≤
          config.tokenMonthlyBudget) := by
  have hbudget := (evaluate_allowed_iff.mp h).2.2.2.1
  rw [budgetDenial, if_pos ⟨htokens, henabled⟩] at hbudget
  simp only [Option.orElse_eq_none] at hbudget
  obtain ⟨hinit, hfam, hwin⟩ := hbudget
  refine ⟨fun hi hb => ?_, fun hf hb => ?_, ?_⟩
  · simp only [initiativeBudgetDenial, deny, ite_eq_right_iff, reduceCtorEq, imp_false, not_and,
      not_lt] at hinit
    exact hinit hi hb
  · obtain ⟨f, hf⟩ := Option.isSome_iff_exists.mp hf
    simp only [modelFamilyBudgetDenial, hf, deny, ite_eq_right_iff, reduceCtorEq, imp_false,
      not_and, not_lt] at hfam
    exact hfam hb
  · unfold windowDenial at hwin
    split at hwin
    · cases hwin
    · rename_i hday
      split at hwin
      · cases hwin
      · rename_i hmonth
        simp only [exceedsWindow, Bool.and_eq_true, decide_eq_true_eq, not_and, not_lt] at hday hmonth
        exact ⟨hday, hmonth⟩

/-- What the capacity checks leave of an allowed package. -/
theorem capacity_of_allowed (h : (wtPolicyEvaluateTaskPackage config input).allowed = true) :
    (0 < config.maxActiveTasksPerAgent →
        input.activeTasksForAgent < config.maxActiveTasksPerAgent) ∧
      (input.initiativeId ≠ [] → 0 < config.maxTasksPerInitiative →
        input.activeTasksForInitiative < config.maxTasksPerInitiative) := by
  have hcapacity := (evaluate_allowed_iff.mp h).2.2.2.2
  unfold capacityDenial at hcapacity
  split at hcapacity
  · cases hcapacity
  · rename_i hagent
    split at hcapacity
    · cases hcapacity
    · rename_i hinitiative
      exact ⟨fun hcap => not_le.mp fun hfull => hagent ⟨hcap, hfull⟩,
        fun hid hcap => not_le.mp fun hfull => hinitiative ⟨hid, hcap, hfull⟩⟩

end WovenTeam

import WovenTeam.Policy
import WovenTeam.Store.Records

/-!
# The policy in exact integers

What the evaluator is for, stated over the integers: `AllowedExactly`. The evaluator adds and
multiplies in 64 bits. `evaluatesExactly_iff`: it gives the exact decision, without an overflow,
where the end of the grant and every sum it comes to fit 64 bits.
-/

namespace WovenTeam

open CText

/-! ## The specification -/

/-- Where the ttl of a grant counts from. -/
def WtPolicyInput.grantStart (input : WtPolicyInput) : Int :=
  if input.autonomyCreatedAtUnixMs > 0 then input.autonomyCreatedAtUnixMs else input.nowUnixMs

/-- The grant has a ttl and a scope and was not revoked. -/
structure WtPolicyInput.Granted (input : WtPolicyInput) : Prop where
  unrevoked : input.autonomyRevokedAtUnixMs ≤ 0
  ttl : 0 < input.autonomyTtlSeconds
  scope : autonomyScopeCoversAdapter input.autonomyScope

/-- The autonomy level of the package is admissible. -/
structure AutonomyAllowed (input : WtPolicyInput) : Prop where
  level : input.autonomyLevel = [] ∨ autonomyLevelIsValid input.autonomyLevel
  granted : input.autonomyLevel = bytes "autonomous" → input.Granted
  current : input.autonomyLevel = bytes "autonomous" →
    input.nowUnixMs ≤ input.grantStart + 1000 * input.autonomyTtlSeconds

/-- The model family is not blocked and matches a pinned agent. -/
structure ModelAllowed (config : WtConfig) (input : WtPolicyInput) : Prop where
  vendor : ∀ family ∈ input.modelFamily,
    wtPolicyVendorIsBlocked config.blockedVendors.text family = false
  agent : ∀ family ∈ input.modelFamily, input.assignedAgent ∉ [[], bytes "router", bytes "all"] →
    modelMatchesAgentLocal input.assignedAgent family

/-- A budget with what is allocated of it. -/
structure TokenCap where
  limit : Int
  allocated : Int

/-- The enabled budgets, in the order in which they are checked. -/
def tokenCaps (config : WtConfig) (input : WtPolicyInput) : List TokenCap :=
  (if input.initiativeId ≠ [] ∧ config.tokenBudgetPerInitiative > 0 then
    [⟨config.tokenBudgetPerInitiative, input.initiativeAllocatedTokens⟩] else []) ++
  (if input.modelFamily.isSome ∧ config.tokenBudgetPerModelFamily > 0 then
    [⟨config.tokenBudgetPerModelFamily, input.modelFamilyAllocatedTokens⟩] else []) ++
  (if config.tokenDailyBudget > 0 then
    [⟨config.tokenDailyBudget, input.dayWindowAllocatedTokens⟩] else []) ++
  (if config.tokenMonthlyBudget > 0 then
    [⟨config.tokenMonthlyBudget, input.monthWindowAllocatedTokens⟩] else [])

/-- The package asks for tokens that are counted. -/
def budgetsApply (config : WtConfig) (input : WtPolicyInput) : Prop :=
  input.maxTokens > 0 ∧ config.tokenTelemetryEnabled = true

/-- Both counts are below their caps. -/
structure CapacityAllowed (config : WtConfig) (input : WtPolicyInput) : Prop where
  agent : config.maxActiveTasksPerAgent > 0 →
    input.activeTasksForAgent < config.maxActiveTasksPerAgent
  initiative : input.initiativeId ≠ [] → config.maxTasksPerInitiative > 0 →
    input.activeTasksForInitiative < config.maxTasksPerInitiative

/-- **The specification of the evaluator, in exact integers.** -/
structure AllowedExactly (config : WtConfig) (input : WtPolicyInput) : Prop where
  autonomy : AutonomyAllowed input
  model : ModelAllowed config input
  budgets : budgetsApply config input →
    ∀ cap ∈ tokenCaps config input, cap.allocated + input.maxTokens ≤ cap.limit
  capacity : CapacityAllowed config input

/-! ## The arithmetic of the evaluator -/

/-- The checks before the budgets pass. -/
def passesEarlier (config : WtConfig) (input : WtPolicyInput) : Prop :=
  autonomyDenial input = none ∧ vendorDenial config input = none ∧
    modelAgentDenial input = none

/-- The sums of a walk over the budgets, which ends behind the first that denies. -/
def sumsComputed (maxTokens : Int) : List TokenCap → List Int
  | [] => []
  | cap :: caps =>
    (cap.allocated + maxTokens) ::
      if wrap64 (cap.allocated + maxTokens) > cap.limit then [] else sumsComputed maxTokens caps

/-- The product and the sum for the end of the grant. -/
def grantComputed (input : WtPolicyInput) : List Int :=
  [input.autonomyTtlSeconds * 1000,
    input.grantStart + wrap64 (input.autonomyTtlSeconds * 1000)]

/-- The exact results of the additions and multiplications the evaluator performs. -/
inductive Computed (config : WtConfig) (input : WtPolicyInput) : Int → Prop where
  | grant {n : Int} (hlevel : input.autonomyLevel = bytes "autonomous")
      (hgranted : input.Granted) (hn : n ∈ grantComputed input) : Computed config input n
  | budget {n : Int} (hearlier : passesEarlier config input) (happly : budgetsApply config input)
      (hn : n ∈ sumsComputed input.maxTokens (tokenCaps config input)) : Computed config input n

/-- The decision is the exact one and no operation overflows. -/
structure EvaluatesExactly (config : WtConfig) (input : WtPolicyInput) : Prop where
  decision : (wtPolicyEvaluateTaskPackage config input).allowed = true ↔
    AllowedExactly config input
  noOverflow : ∀ n, Computed config input n → Int64 n

/-- Every sum behind sums within their budgets fits 64 bits. -/
def SumsFit (maxTokens : Int) (caps : List TokenCap) : Prop :=
  ∀ before cap after, caps = before ++ cap :: after →
    (∀ c ∈ before, c.allocated + maxTokens ≤ c.limit) → cap.allocated + maxTokens < 2 ^ 63

/-- The end of an autonomous grant fits 64 bits. -/
def GrantFits (input : WtPolicyInput) : Prop :=
  input.autonomyLevel = bytes "autonomous" → input.Granted →
    input.autonomyTtlSeconds * 1000 < 2 ^ 63 ∧
      input.grantStart + 1000 * input.autonomyTtlSeconds < 2 ^ 63

/-- The condition of the evaluator's arithmetic. -/
structure WithinRange (config : WtConfig) (input : WtPolicyInput) : Prop where
  grant : GrantFits input
  sums : AutonomyAllowed input → ModelAllowed config input → budgetsApply config input →
    SumsFit input.maxTokens (tokenCaps config input)

variable {config : WtConfig} {input : WtPolicyInput}

/-! ## What each check leaves -/

theorem autonomyDenial_eq_none :
    autonomyDenial input = none ↔
      (input.autonomyLevel = [] ∨ autonomyLevelIsValid input.autonomyLevel) ∧
        (input.autonomyLevel = bytes "autonomous" → input.Granted ∧ input.nowUnixMs ≤
          wrap64 (input.grantStart + wrap64 (input.autonomyTtlSeconds * 1000))) := by
  have hstart : (if input.autonomyCreatedAtUnixMs > 0 then input.autonomyCreatedAtUnixMs
      else input.nowUnixMs) = input.grantStart := rfl
  unfold autonomyDenial
  dsimp only
  rw [hstart]
  by_cases hempty : input.autonomyLevel = []
  · simp [hempty, show ([] : Bytes) ≠ bytes "autonomous" by decide]
  rw [if_neg hempty]
  by_cases hvalid : autonomyLevelIsValid input.autonomyLevel
  · rw [if_neg (by simp [hvalid])]
    by_cases hlevel : input.autonomyLevel = bytes "autonomous"
    · rw [if_neg (not_not_intro hlevel)]
      refine ⟨fun h => ⟨.inr hvalid, fun _ => ?_⟩, fun h => ?_⟩
      · split at h
        · cases h
        · rename_i hrevoked
          split at h
          · cases h
          · rename_i hscope
            split at h
            · cases h
            · rename_i hcurrent
              simp only [not_or, Bool.not_eq_true', Bool.not_eq_false] at hscope
              exact ⟨⟨not_lt.mp hrevoked, not_le.mp hscope.1, hscope.2⟩, not_lt.mp hcurrent⟩
      · obtain ⟨hgranted, hcurrent⟩ := h.2 hlevel
        rw [if_neg (not_lt.mpr hgranted.unrevoked), if_neg, if_neg (not_lt.mpr hcurrent)]
        simpa [hgranted.scope] using hgranted.ttl
    · simp [hlevel, hvalid]
  · simp [hvalid, hempty, deny]

theorem modelDenials_eq_none :
    (vendorDenial config input = none ∧ modelAgentDenial input = none) ↔
      ModelAllowed config input := by
  unfold vendorDenial modelAgentDenial
  cases hfamily : input.modelFamily with
  | none =>
    simp only [and_self, true_iff]
    exact ⟨by simp [hfamily], by simp [hfamily]⟩
  | some family =>
    simp only [deny, ite_eq_right_iff, reduceCtorEq, imp_false, not_and, Bool.not_eq_true',
      Bool.not_eq_false]
    constructor
    · rintro ⟨hvendor, hagent⟩
      refine ⟨by simpa [hfamily] using hvendor, fun f hf hpinned => ?_⟩
      cases hfamily.symm.trans hf
      simp only [List.mem_cons, List.not_mem_nil, or_false, not_or] at hpinned
      exact hagent hpinned.1 hpinned.2.1 hpinned.2.2
    · rintro ⟨hvendor, hagent⟩
      refine ⟨by simpa using hvendor family hfamily, fun h1 h2 h3 => ?_⟩
      exact hagent family hfamily (by simp [h1, h2, h3])

theorem forall_mem_ite {c : Prop} [Decidable c] {cap : TokenCap} {p : TokenCap → Prop} :
    (∀ x ∈ (if c then [cap] else []), p x) ↔ (c → p cap) := by
  by_cases hc : c <;> simp [hc]

theorem initiativeBudgetDenial_eq_none :
    initiativeBudgetDenial config input = none ↔
      (input.initiativeId ≠ [] ∧ config.tokenBudgetPerInitiative > 0 →
        wrap64 (input.initiativeAllocatedTokens + input.maxTokens) ≤
          config.tokenBudgetPerInitiative) := by
  simp only [initiativeBudgetDenial, deny, ite_eq_right_iff, reduceCtorEq, imp_false, not_and,
    not_lt, and_imp]

theorem modelFamilyBudgetDenial_eq_none :
    modelFamilyBudgetDenial config input = none ↔
      (input.modelFamily.isSome ∧ config.tokenBudgetPerModelFamily > 0 →
        wrap64 (input.modelFamilyAllocatedTokens + input.maxTokens) ≤
          config.tokenBudgetPerModelFamily) := by
  unfold modelFamilyBudgetDenial
  cases input.modelFamily <;>
    simp only [deny, ite_eq_right_iff, reduceCtorEq, imp_false, not_and, not_lt,
      Option.isSome_none, Option.isSome_some, Bool.false_eq_true, false_and, true_and,
      IsEmpty.forall_iff]

theorem windowDenial_eq_none :
    windowDenial config input = none ↔
      (config.tokenDailyBudget > 0 →
        wrap64 (input.dayWindowAllocatedTokens + input.maxTokens) ≤ config.tokenDailyBudget) ∧
      (config.tokenMonthlyBudget > 0 →
        wrap64 (input.monthWindowAllocatedTokens + input.maxTokens) ≤
          config.tokenMonthlyBudget) := by
  have hwithin : ∀ budget allocated, exceedsWindow budget allocated input.maxTokens = false ↔
      (budget > 0 → wrap64 (allocated + input.maxTokens) ≤ budget) := by
    intro budget allocated
    simp [exceedsWindow]
  rw [← hwithin, ← hwithin]
  unfold windowDenial
  cases exceedsWindow config.tokenDailyBudget input.dayWindowAllocatedTokens input.maxTokens <;>
    cases exceedsWindow config.tokenMonthlyBudget input.monthWindowAllocatedTokens
      input.maxTokens <;> simp [deny]

theorem budgetDenial_eq_none :
    budgetDenial config input = none ↔ (budgetsApply config input →
      ∀ cap ∈ tokenCaps config input, wrap64 (cap.allocated + input.maxTokens) ≤ cap.limit) := by
  by_cases happly : budgetsApply config input
  · obtain ⟨htokens, htelemetry⟩ := id happly
    rw [budgetDenial, if_pos ⟨htokens, htelemetry⟩]
    simp only [happly, Option.orElse_eq_none, forall_const, tokenCaps, List.forall_mem_append,
      forall_mem_ite, initiativeBudgetDenial_eq_none, modelFamilyBudgetDenial_eq_none,
      windowDenial_eq_none, and_assoc]
  · have hskip : ¬ (input.maxTokens > 0 ∧ config.tokenTelemetryEnabled = true) := happly
    rw [budgetDenial, if_neg hskip]
    simp [happly]

theorem capacityDenial_eq_none :
    capacityDenial config input = none ↔ CapacityAllowed config input := by
  unfold capacityDenial
  refine ⟨fun h => ?_, fun h => ?_⟩
  · split at h
    · cases h
    · rename_i hagent
      split at h
      · cases h
      · rename_i hinitiative
        exact ⟨fun hcap => not_le.mp fun hfull => hagent ⟨hcap, hfull⟩,
          fun hid hcap => not_le.mp fun hfull => hinitiative ⟨hid, hcap, hfull⟩⟩
  · rw [if_neg fun hfull => not_lt.mpr hfull.2 (h.agent hfull.1),
      if_neg fun hfull => not_lt.mpr hfull.2.2 (h.initiative hfull.1 hfull.2.1)]

/-! ## Where nothing overflows -/

theorem grantComputed_int64 (hnow : Int64 input.nowUnixMs) (hgranted : input.Granted) :
    (∀ n ∈ grantComputed input, Int64 n) ↔ input.autonomyTtlSeconds * 1000 < 2 ^ 63 ∧
      input.grantStart + 1000 * input.autonomyTtlSeconds < 2 ^ 63 := by
  have hstart : -2 ^ 63 ≤ input.grantStart := by
    unfold WtPolicyInput.grantStart
    split
    · omega
    · exact hnow.1
  have httl := hgranted.ttl
  simp only [grantComputed, List.mem_cons, List.not_mem_nil, or_false, forall_eq_or_imp,
    forall_eq]
  constructor
  · rintro ⟨hproduct, hsum⟩
    rw [wrap64_of_range hproduct] at hsum
    exact ⟨hproduct.2, by have := hsum.2; omega⟩
  · rintro ⟨hproduct, hsum⟩
    have hrange : Int64 (input.autonomyTtlSeconds * 1000) := ⟨by omega, hproduct⟩
    rw [wrap64_of_range hrange]
    exact ⟨hrange, by omega, by omega⟩

theorem autonomyDenial_of_fits (hnow : Int64 input.nowUnixMs) (hfits : GrantFits input) :
    autonomyDenial input = none ↔ AutonomyAllowed input := by
  have hend : input.autonomyLevel = bytes "autonomous" → input.Granted →
      wrap64 (input.grantStart + wrap64 (input.autonomyTtlSeconds * 1000)) =
        input.grantStart + 1000 * input.autonomyTtlSeconds := by
    intro hlevel hgranted
    have hint := (grantComputed_int64 hnow hgranted).mpr (hfits hlevel hgranted)
    have hsum := wrap64_of_range (hint _ (List.mem_cons_of_mem _ (List.mem_singleton_self _)))
    rw [hsum, wrap64_of_range (hint _ List.mem_cons_self), mul_comm]
  rw [autonomyDenial_eq_none]
  refine ⟨fun ⟨hvalid, h⟩ => ⟨hvalid, fun hlevel => (h hlevel).1, fun hlevel => ?_⟩,
    fun h => ⟨h.level, fun hlevel => ⟨h.granted hlevel, ?_⟩⟩⟩
  · rw [← hend hlevel (h hlevel).1]
    exact (h hlevel).2
  · rw [hend hlevel (h.granted hlevel)]
    exact h.current hlevel

theorem sumsFit_cons {maxTokens : Int} {cap : TokenCap} {caps : List TokenCap} :
    SumsFit maxTokens (cap :: caps) ↔ cap.allocated + maxTokens < 2 ^ 63 ∧
      (cap.allocated + maxTokens ≤ cap.limit → SumsFit maxTokens caps) := by
  refine ⟨fun h => ⟨h [] cap caps rfl (by simp), fun hcap => ?_⟩, fun ⟨hcap, hcaps⟩ => ?_⟩
  · intro before c after hsplit hbefore
    exact h (cap :: before) c after (by rw [hsplit]; rfl) (by simpa [hcap] using hbefore)
  · intro before c after hsplit hbefore
    cases before with
    | nil =>
      cases hsplit
      exact hcap
    | cons first before =>
      cases hsplit
      exact hcaps (hbefore cap (by simp)) before c after rfl
        fun x hx => hbefore x (List.mem_cons_of_mem cap hx)

section sums

variable {maxTokens : Int} {caps : List TokenCap}

theorem sum_wraps {cap : TokenCap} (htokens : 0 < maxTokens) (hcap : 0 ≤ cap.allocated)
    (hfits : cap.allocated + maxTokens < 2 ^ 63) :
    wrap64 (cap.allocated + maxTokens) = cap.allocated + maxTokens :=
  wrap64_of_range ⟨by omega, hfits⟩

/-- Every sum the walk computes fits exactly where `SumsFit` says so. -/
theorem sumsComputed_int64 (htokens : 0 < maxTokens) (hcaps : ∀ cap ∈ caps, 0 ≤ cap.allocated) :
    (∀ n ∈ sumsComputed maxTokens caps, Int64 n) ↔ SumsFit maxTokens caps := by
  induction caps with
  | nil => simp [sumsComputed, SumsFit]
  | cons cap caps ih =>
    have hcap := hcaps cap (by simp)
    have hrest := ih fun c hc => hcaps c (List.mem_cons_of_mem cap hc)
    rw [sumsFit_cons, sumsComputed, List.forall_mem_cons]
    by_cases hfits : cap.allocated + maxTokens < 2 ^ 63
    · have hint : Int64 (cap.allocated + maxTokens) := ⟨by omega, hfits⟩
      rw [sum_wraps htokens hcap hfits]
      by_cases hlimit : cap.allocated + maxTokens ≤ cap.limit
      · rw [if_neg (not_lt.mpr hlimit), hrest]
        simp only [hint, hfits, hlimit, true_and, forall_const]
      · rw [if_pos (not_le.mp hlimit)]
        simp only [hint, hfits, hlimit, List.not_mem_nil, false_imp_iff, implies_true, and_self]
    · exact iff_of_false (fun h => hfits h.1.2) fun h => hfits h.1

/-- Where the sums fit, the wrapped comparisons are the exact ones. -/
theorem withinCaps_of_fits (htokens : 0 < maxTokens) (hcaps : ∀ cap ∈ caps, 0 ≤ cap.allocated)
    (hfits : SumsFit maxTokens caps) :
    (∀ cap ∈ caps, wrap64 (cap.allocated + maxTokens) ≤ cap.limit) ↔
      ∀ cap ∈ caps, cap.allocated + maxTokens ≤ cap.limit := by
  induction caps with
  | nil => simp
  | cons cap caps ih =>
    obtain ⟨hfirst, hlater⟩ := sumsFit_cons.mp hfits
    have hrest := ih fun c hc => hcaps c (List.mem_cons_of_mem cap hc)
    rw [List.forall_mem_cons, List.forall_mem_cons, sum_wraps htokens (hcaps cap (by simp)) hfirst]
    exact and_congr_right fun hcap => hrest (hlater hcap)

end sums

/-- A package of the given size, with one token allocated in every window. -/
def packageOf (maxTokens : Int) : WtPolicyInput where
  taskId := bytes "t1"
  assignedRole := bytes "engineer"
  assignedAgent := bytes "claude"
  modelId := []
  toolProfile := bytes "observe"
  initiativeId := []
  autonomyLevel := []
  maxTokens := maxTokens
  nowUnixMs := 1000000
  dayWindowAllocatedTokens := 1
  monthWindowAllocatedTokens := 1

theorem packageOf_allocated (maxTokens : Int) :
    ∀ cap ∈ tokenCaps {} (packageOf maxTokens), 0 ≤ cap.allocated := by
  rw [show tokenCaps {} (packageOf maxTokens) = [⟨2000000, 1⟩, ⟨50000000, 1⟩] from rfl]
  simp

end WovenTeam

import WovenTeam.Roomd.Admission

/-!
# Routing against the policy

Three tables are kept apart: the agent of a role, the profiles of an agent and the model family of
an agent, the last once for the router and once for the policy. `routing_agrees`: a request that
leaves the agent to the router gets one that supports its profile, and a model that the policy
does not find to mismatch.
-/

namespace WovenTeam

open CText

/-! ## Agents -/

/-- The agents the router chooses from. -/
def routedAgents : List Bytes := [bytes "claude", bytes "chatgpt", bytes "gemini"]

/-- Some agent supports exactly four profiles. -/
theorem exists_agentSupportsProfile {profile : Bytes} :
    (∃ agent, agentSupportsProfile agent profile) ↔ profile ∈
      [bytes "observe", bytes "ops_read", bytes "repo_branch", bytes "test_local"] := by
  constructor
  · rintro ⟨agent, h⟩
    unfold agentSupportsProfile at h
    split at h
    · simp only [Bool.or_eq_true, beq_iff_eq] at h
      rcases h with (rfl | rfl) | rfl <;> decide
    · split at h
      · simp only [Bool.or_eq_true, beq_iff_eq] at h
        rcases h with rfl | rfl <;> decide
      · cases h
  · intro h
    simp only [List.mem_cons, List.not_mem_nil, or_false] at h
    rcases h with rfl | rfl | rfl | rfl
    · exact ⟨bytes "claude", by decide⟩
    · exact ⟨bytes "claude", by decide⟩
    · exact ⟨bytes "chatgpt", by decide⟩
    · exact ⟨bytes "chatgpt", by decide⟩

theorem defaultAgentForRole_mem (role : Bytes) :
    defaultAgentForRole role ∈ bytes "all" :: routedAgents := by
  unfold defaultAgentForRole
  repeat' split
  all_goals decide

section route

variable {config : WtConfig} {role profile agent : Bytes}

theorem routeAgentForTask_named (h : shouldRouteAgent agent = false) :
    routeAgentForTask config role profile agent = agent := by
  simp [routeAgentForTask, h]

theorem routeAgentForTask_mem (henabled : config.roleRoutingEnabled = true)
    (h : shouldRouteAgent agent) : routeAgentForTask config role profile agent ∈ routedAgents := by
  rw [routeAgentForTask, if_neg (by simp [henabled, h])]
  split
  · decide
  · split
    · rename_i hsupports
      -- `all` supports nothing
      rcases List.mem_cons.mp (defaultAgentForRole_mem role) with hall | hmem
      · rw [hall] at hsupports
        cases hsupports
      · exact hmem
    · split
      · decide
      · decide

theorem routeAgentForTask_supports (henabled : config.roleRoutingEnabled = true)
    (h : shouldRouteAgent agent) (hprofile : ∃ other, agentSupportsProfile other profile) :
    agentSupportsProfile (routeAgentForTask config role profile agent) profile := by
  rw [routeAgentForTask, if_neg (by simp [henabled, h])]
  split
  · rename_i hchatgpt
    rcases hchatgpt with rfl | rfl <;> decide
  · rename_i hchatgpt
    split
    · assumption
    · have hfour := exists_agentSupportsProfile.mp hprofile
      simp only [List.mem_cons, List.not_mem_nil, or_false] at hfour
      rcases hfour with rfl | rfl | hrepo | htest
      · decide
      · decide
      · exact absurd (.inl hrepo) hchatgpt
      · exact absurd (.inr htest) hchatgpt

end route

/-! ## Models -/

/-- A name without a slash in front of one is the family. -/
theorem extract_of_start {family modelId : Bytes} (hslash : slash ∉ family) (hne : family ≠ [])
    (hlen : family.length < 64) (h : family ++ [slash] <+: modelId) :
    wtPolicyExtractModelFamily modelId 64 = some family := by
  obtain ⟨rest, rfl⟩ := h
  have htake : (family ++ [slash] ++ rest).takeWhile (· != slash) = family := by
    rw [List.append_assoc, List.takeWhile_append_of_pos, List.singleton_append,
      List.takeWhile_cons_of_neg (by simp), List.append_nil]
    intro b hb
    have hne : b ≠ slash := fun heq => hslash (heq ▸ hb)
    simpa using hne
  have hhead : (family ++ [slash] ++ rest).head? ≠ some slash := by
    cases family with
    | nil => exact absurd rfl hne
    | cons b family =>
      have hne : b ≠ slash := fun heq => hslash (heq ▸ List.mem_cons_self)
      simpa using hne
  rw [wtPolicyExtractModelFamily, if_pos ⟨by simp, hhead⟩, htake, List.take_of_length_le (by omega)]

/-- The family of the model that is evaluated is the one the policy expects of a routed agent. -/
theorem chosenModel_matches {config : WtConfig} {p : TaskProposal} {family : Bytes}
    (hroute : shouldRouteAgent p.requestedAgent)
    (hagent : p.assignedAgent config ∈ routedAgents)
    (hfamily : wtPolicyExtractModelFamily (p.chosenModel config) 64 = some family) :
    modelMatchesAgentLocal (p.assignedAgent config) family := by
  -- a model that is kept starts as the router's table has it
  have hkept : p.replacesModel config = false →
      modelMatchesAgent (p.assignedAgent config) p.modelId := by
    intro hkeep
    simp only [TaskProposal.replacesModel, hroute, Bool.true_and, Bool.or_eq_false_iff,
      Bool.not_eq_false'] at hkeep
    exact hkeep.2
  have hstart : ∃ name : Bytes, slash ∉ name ∧ name ≠ [] ∧ name.length < 64 ∧
      name ++ [slash] <+: p.chosenModel config ∧
      modelMatchesAgentLocal (p.assignedAgent config) name := by
    rw [TaskProposal.chosenModel]
    generalize p.assignedAgent config = agent at hagent hkept
    simp only [routedAgents, List.mem_cons, List.not_mem_nil, or_false] at hagent
    split
    · rcases hagent with rfl | rfl | rfl
      · exact ⟨bytes "anthropic", by decide, by decide, by decide, ⟨bytes "claude-sonnet", rfl⟩, by decide⟩
      · exact ⟨bytes "openai", by decide, by decide, by decide, ⟨bytes "gpt-5.3-codex", rfl⟩, by decide⟩
      · exact ⟨bytes "google", by decide, by decide, by decide, ⟨bytes "gemini-pro", rfl⟩, by decide⟩
    · rename_i hkeep
      have hmatches := hkept (Bool.eq_false_iff.mpr hkeep)
      unfold modelMatchesAgent at hmatches
      split at hmatches
      · cases hmatches
      · rcases hagent with rfl | rfl | rfl
        · exact ⟨bytes "anthropic", by decide, by decide, by decide,
            List.isPrefixOf_iff_prefix.mp hmatches, by decide⟩
        · exact ⟨bytes "openai", by decide, by decide, by decide,
            List.isPrefixOf_iff_prefix.mp hmatches, by decide⟩
        · exact ⟨bytes "google", by decide, by decide, by decide,
            List.isPrefixOf_iff_prefix.mp hmatches, by decide⟩
  obtain ⟨name, hslash, hne, hlen, hpre, hlocal⟩ := hstart
  rw [extract_of_start hslash hne hlen hpre, Option.some.injEq] at hfamily
  rwa [← hfamily]

/-! ## The reason of a denial -/

/-- The check does not deny for a mismatch. -/
def OtherReason (decision : Option WtPolicyDecision) : Prop :=
  ∀ d ∈ decision, d.reason ≠ bytes "model_agent_mismatch"

theorem otherReason_none : OtherReason none := by simp [OtherReason]

theorem otherReason_deny {reason : String} {message : Bytes}
    (h : snprintf wtPolicyReasonSize (bytes reason) ≠ bytes "model_agent_mismatch") :
    OtherReason (deny reason message) := by
  simpa [OtherReason, deny, setDecision] using h

theorem OtherReason.orElse {a b : Option WtPolicyDecision} (ha : OtherReason a)
    (hb : OtherReason b) : OtherReason (a <|> b) := by
  cases a with
  | none => simpa using hb
  | some d => simpa using ha

section reasons

variable {config : WtConfig} {input : WtPolicyInput}

theorem otherReason_autonomyDenial : OtherReason (autonomyDenial input) := by
  unfold autonomyDenial
  dsimp only
  repeat' split
  all_goals first | exact otherReason_none | exact otherReason_deny (by decide)

theorem otherReason_vendorDenial : OtherReason (vendorDenial config input) := by
  unfold vendorDenial
  repeat' split
  all_goals first | exact otherReason_none | exact otherReason_deny (by decide)

theorem otherReason_budgetDenial : OtherReason (budgetDenial config input) := by
  unfold budgetDenial initiativeBudgetDenial modelFamilyBudgetDenial windowDenial
  split
  · refine .orElse ?_ (.orElse ?_ ?_)
    all_goals repeat' split
    all_goals first | exact otherReason_none | exact otherReason_deny (by decide)
  · exact otherReason_none

theorem otherReason_capacityDenial : OtherReason (capacityDenial config input) := by
  unfold capacityDenial
  repeat' split
  all_goals first | exact otherReason_none | exact otherReason_deny (by decide)

/-- A mismatch is found by its own check alone. -/
theorem evaluate_reason_ne (h : modelAgentDenial input = none) :
    (wtPolicyEvaluateTaskPackage config input).reason ≠ bytes "model_agent_mismatch" := by
  have hother : OtherReason (firstDenial config input) := by
    rw [firstDenial, h]
    exact otherReason_autonomyDenial.orElse (otherReason_vendorDenial.orElse
      (otherReason_none.orElse (otherReason_budgetDenial.orElse otherReason_capacityDenial)))
  unfold wtPolicyEvaluateTaskPackage
  cases hfirst : firstDenial config input with
  | none =>
    rw [Option.getD_none]
    decide
  | some d => exact hother d hfirst

end reasons

/-! ## Agreement -/

/-- **The router's choice suits the profile and the policy, and a named agent is kept.** -/
theorem routing_agrees (config : WtConfig) (henabled : config.roleRoutingEnabled = true)
    (p : TaskProposal) :
    (shouldRouteAgent p.requestedAgent = true →
      p.assignedAgent config ∈ [bytes "claude", bytes "chatgpt", bytes "gemini"] ∧
      ((∃ agent, agentSupportsProfile agent p.toolProfile) →
        agentSupportsProfile (p.assignedAgent config) p.toolProfile) ∧
      ∀ (ledger : Ledger) (body : Bytes) (clock : Clock),
        (wtPolicyEvaluateTaskPackage config (p.policyInput config ledger body clock)).reason ≠
          bytes "model_agent_mismatch") ∧
    (shouldRouteAgent p.requestedAgent = false → p.assignedAgent config = p.requestedAgent) := by
  refine ⟨fun hroute => ?_, routeAgentForTask_named⟩
  have hagent : p.assignedAgent config ∈ routedAgents := routeAgentForTask_mem henabled hroute
  refine ⟨hagent, routeAgentForTask_supports henabled hroute, fun ledger body clock => ?_⟩
  refine evaluate_reason_ne ?_
  have hmatches : ∀ family ∈ (p.policyInput config ledger body clock).modelFamily,
      modelMatchesAgentLocal (p.assignedAgent config) family := fun family hfamily =>
    chosenModel_matches hroute hagent hfamily
  unfold modelAgentDenial
  split
  · rfl
  · rename_i family hfamily
    refine if_neg fun hmismatch => ?_
    have hlocal := hmatches family hfamily
    simp only [Bool.not_eq_true'] at hmismatch
    exact Bool.false_ne_true (hmismatch.2.2.2.symm.trans hlocal)

def auditProposal : TaskProposal where
  taskId := bytes "t1"
  assignedRole := bytes "auditor"
  requestedAgent := []
  initiativeId := []
  toolProfile := bytes "observe"
  modelId := []
  executionHost := []
  maxTokens := 100

theorem routing_agrees_audit : auditProposal.assignedAgent {} ∈
    [bytes "claude", bytes "chatgpt", bytes "gemini"] :=
  ((routing_agrees {} rfl auditProposal).1 (by decide)).1

end WovenTeam

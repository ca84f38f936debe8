import WovenTeam.Roomd.Capacity

/-!
# Budgets of active allocations

The budgets of an initiative and of a model family bound the tokens of its active tasks. The
policy compares the requested tokens with a `SUM` over the projection; what is summed later is
what the records say. `budgets_hold_along`: in a run from an empty ledger whose accepted requests
record the evaluated task, initiative, model and tokens, both budgets hold right after each
accepted request that asks for tokens.
-/

namespace WovenTeam

open CText QuotedText FirstSeen Runs

/-! ## Sums over the table -/

/-- The tokens of the active rows that are picked; a negative count is none. -/
def activeTokens (rows : List TaskRow) (picks : TaskRow → Bool) : Int :=
  ((rows.filter fun row => picks row && !isTerminalStatus row.status).map
    fun row => max 0 row.maxTokens).sum

section sums

variable {rows rows' : List TaskRow} {picks picks' : TaskRow → Bool}

theorem activeTokens_perm (h : rows.Perm rows') : activeTokens rows picks = activeTokens rows' picks :=
  ((h.filter _).map _).sum_eq

theorem activeTokens_append :
    activeTokens (rows ++ rows') picks = activeTokens rows picks + activeTokens rows' picks := by
  simp [activeTokens]

theorem activeTokens_nonneg : 0 ≤ activeTokens rows picks := by
  refine List.sum_nonneg fun n hn => ?_
  obtain ⟨row, -, rfl⟩ := List.mem_map.mp hn
  exact le_max_left 0 _

theorem activeTokens_mono (h : ∀ row ∈ rows, picks row → picks' row) :
    activeTokens rows picks ≤ activeTokens rows picks' := by
  have hfilter : rows.filter (fun row => picks row && !isTerminalStatus row.status) =
      (rows.filter fun row => picks' row && !isTerminalStatus row.status).filter
        fun row => picks row && !isTerminalStatus row.status := by
    rw [List.filter_filter]
    refine List.filter_congr fun row hrow => ?_
    cases hp : picks row with
    | false => rfl
    | true => simp [h row hrow hp]
  unfold activeTokens
  rw [hfilter]
  refine (List.filter_sublist.map _).sum_le_sum fun n hn => ?_
  obtain ⟨row, -, rfl⟩ := List.mem_map.mp hn
  exact le_max_left 0 _

/-- `SUM` does not fail where the exact total fits. -/
theorem sumTokens_eq (hnonneg : ∀ row ∈ rows, 0 ≤ row.maxTokens)
    (hfits : (rows.map TaskRow.maxTokens).sum < 2 ^ 63) :
    sumTokens rows = (rows.map TaskRow.maxTokens).sum := by
  have hfold : ∀ (rows : List TaskRow) (total : Int), (∀ row ∈ rows, 0 ≤ row.maxTokens) →
      0 ≤ total → total + (rows.map TaskRow.maxTokens).sum < 2 ^ 63 →
      rows.foldl (fun (total : Option Int) row => total.bind fun n =>
        if -2 ^ 63 ≤ n + row.maxTokens ∧ n + row.maxTokens < 2 ^ 63 then some (n + row.maxTokens)
        else none) (some total) = some (total + (rows.map TaskRow.maxTokens).sum) := by
    intro rows
    induction rows with
    | nil => simp
    | cons row rows ih =>
      intro total hall htotal hlt
      have hrow := hall row List.mem_cons_self
      have hrest : ∀ r ∈ rows, 0 ≤ r.maxTokens := fun r hr => hall r (List.mem_cons_of_mem row hr)
      have hsum : 0 ≤ (rows.map TaskRow.maxTokens).sum := List.sum_nonneg fun n hn => by
        obtain ⟨r, hr, rfl⟩ := List.mem_map.mp hn
        exact hrest r hr
      rw [List.map_cons, List.sum_cons] at hlt ⊢
      rw [List.foldl_cons, Option.bind_some, if_pos (by omega),
        ih (total + row.maxTokens) hrest (by omega) (by omega), Int.add_assoc]
  have hall := hfold rows 0 hnonneg le_rfl (by omega)
  rw [Int.zero_add] at hall
  unfold sumTokens
  dsimp only
  rw [hall]
  rfl

/-- Of rows without negative counts the exact total is the sum of the counts. -/
theorem activeTokens_eq (hnonneg : ∀ row ∈ rows, 0 ≤ row.maxTokens) :
    activeTokens rows picks =
      ((rows.filter fun row => picks row && !isTerminalStatus row.status).map
        TaskRow.maxTokens).sum := by
  unfold activeTokens
  congr 1
  refine List.map_congr_left fun row hrow => ?_
  exact max_eq_right (hnonneg row (List.mem_filter.mp hrow).1)

/-- The projection's totals are exact where no row has a negative count and the total fits. -/
theorem sumTokens_filter_eq (hnonneg : ∀ row ∈ rows, 0 ≤ row.maxTokens)
    (hfits : activeTokens rows picks < 2 ^ 63) :
    sumTokens (rows.filter fun row => picks row && !isTerminalStatus row.status) =
      activeTokens rows picks := by
  rw [activeTokens_eq hnonneg] at hfits ⊢
  exact sumTokens_eq (fun row hrow => hnonneg row (List.mem_filter.mp hrow).1) hfits

end sums

/-! ## Families and `LIKE` -/

/-- A pattern matches the text it is, whatever wildcards stand in it. -/
theorem sqlLike_append {pattern text : Bytes} (h : sqlLike pattern text) (p : Bytes) :
    sqlLike (p ++ pattern) (p ++ text) := by
  induction p with
  | nil => exact h
  | cons b p ih =>
    rw [List.cons_append, List.cons_append, sqlLike]
    split
    · rw [List.any_eq_true]
      refine ⟨p ++ text, ?_, ih⟩
      rw [List.mem_tails]
      exact List.suffix_cons b _
    · split
      · rename_i hb
        have hskip : skipChar (b :: (p ++ text)) = p ++ text := by
          rw [hb]
          rfl
        rw [hskip, ih]
        rfl
      · simp [ih]

theorem sqlLike_slash (rest : Bytes) : sqlLike (bytes "/%") (slash :: rest) := by
  have hpercent : sqlLike [37] rest := by
    rw [sqlLike.eq_def]
    exact List.any_eq_true.mpr ⟨[], (List.mem_tails _ _).mpr List.nil_suffix, rfl⟩
  have hbytes : bytes "/%" = [47, 37] := by decide
  rw [hbytes, sqlLike, if_neg (by decide), if_neg (by decide), hpercent]
  decide

/-- The text before the first slash is read as the family without being cut. -/
def FamilyFits (modelId : Bytes) : Prop := (modelId.takeWhile (· != slash)).length < 64

theorem sqlLike_family {modelId modelFamily : Bytes} (hfits : FamilyFits modelId)
    (h : wtPolicyExtractModelFamily modelId 64 = some modelFamily) :
    sqlLike (snprintf 128 (modelFamily ++ bytes "/%")) modelId := by
  unfold wtPolicyExtractModelFamily at h
  split at h
  · rename_i hslash
    have hlen : (modelId.takeWhile (· != slash)).length ≤ 63 := Nat.lt_succ_iff.mp hfits
    rw [List.take_of_length_le hlen] at h
    obtain rfl := Option.some.inj h
    obtain ⟨rest, hrest⟩ : ∃ rest, modelId.dropWhile (· != slash) = slash :: rest := by
      cases hdrop : modelId.dropWhile (· != slash) with
      | nil =>
        rw [List.dropWhile_eq_nil_iff] at hdrop
        exact absurd (hdrop slash hslash.1) (by decide)
      | cons b rest =>
        have hb := List.head?_dropWhile_not (· != slash) modelId
        rw [hdrop] at hb
        exact ⟨rest, by simpa using hb⟩
    have htwo : (bytes "/%").length = 2 := by decide
    rw [snprintf_of_lt (by rw [List.length_append, htwo]; omega)]
    have hall := sqlLike_append (sqlLike_slash rest) (modelId.takeWhile (· != slash))
    rwa [← hrest, List.takeWhile_append_dropWhile] at hall
  · cases h

/-! ## The system -/

/-- The ledger, and the family each task's last accepted request was charged to. -/
structure BudgetState where
  ledger : Ledger := []
  charged : Bytes → Option Bytes := fun _ => none

/-- A request, or a line that something else appends. -/
inductive BudgetAction where
  | request (a : AdmissionRequest)
  | event (line : Bytes)

/-- The family policy charges the proposal to. -/
def TaskProposal.modelFamily (p : TaskProposal) (config : WtConfig) : Option Bytes :=
  wtPolicyExtractModelFamily (p.chosenModel config) 64

def AdmissionRequest.proposal (a : AdmissionRequest) : Option TaskProposal :=
  (requestBody a.request).bind a.endpoint.proposal

/-- The charges after an accepted request. -/
def BudgetState.charge (s : BudgetState) (config : WtConfig) (a : AdmissionRequest) :
    Bytes → Option Bytes :=
  match a.proposal with
  | some p => Function.update s.charged p.taskId (p.modelFamily config)
  | none => s.charged

def BudgetState.step (config : WtConfig) (s : BudgetState) : BudgetAction → BudgetState
  | .event line => { s with ledger := s.ledger ++ [line] }
  | .request a =>
    { ledger := served config s.ledger a
      charged := if (a.served config s.ledger).2.accepted then s.charge config a else s.charged }

/-- The active tasks of the proposal's initiative, and those charged to its family, are within the
budgets. -/
structure WithinBudgets (config : WtConfig) (s : BudgetState) (p : TaskProposal) : Prop where
  initiative : p.initiativeId ≠ [] → 0 < config.tokenBudgetPerInitiative →
    activeTokens (wtTaskProjectionRebuild s.ledger) (fun row => row.initiativeId == p.initiativeId) ≤
      config.tokenBudgetPerInitiative
  modelFamily : ∀ modelFamily, p.modelFamily config = some modelFamily →
    0 < config.tokenBudgetPerModelFamily →
    activeTokens (wtTaskProjectionRebuild s.ledger)
        (fun row => s.charged row.taskId == some modelFamily) ≤
      config.tokenBudgetPerModelFamily

/-- Where a request that asks for tokens is accepted, the budgets hold afterwards. -/
def BudgetsAfter (config : WtConfig) (s : BudgetState) (a : AdmissionRequest) : Prop :=
  (a.served config s.ledger).2.accepted → ∀ body p, a.Proposes body p → 0 < p.maxTokens →
    WithinBudgets config (s.step config (.request a)) p

/-! ## The condition -/

/-- The rows `LIKE` finds for a family. -/
def likeFamily (modelFamily : Bytes) (row : TaskRow) : Bool :=
  sqlLike (snprintf 128 (modelFamily ++ bytes "/%")) row.modelId

/-- The records say what was evaluated, the family is not cut, and the totals fit. -/
structure ChargedAsEvaluated (endpoint : AdmissionEndpoint) (config : WtConfig) (ledger : Ledger)
    (body : Bytes) (p : TaskProposal) (columns : TaskColumns) : Prop where
  writes : endpoint.Writes config body p columns
  initiative : columns.initiativeId = p.initiativeId
  model : columns.modelId = p.chosenModel config
  maxTokens : columns.maxTokens = p.maxTokens
  family : FamilyFits (p.chosenModel config)
  initiativeFits : activeTokens (wtTaskProjectionRebuild ledger)
    (fun row => row.initiativeId == p.initiativeId) + p.maxTokens < 2 ^ 63
  familyFits : ∀ modelFamily, p.modelFamily config = some modelFamily →
    activeTokens (wtTaskProjectionRebuild ledger) (likeFamily modelFamily) + p.maxTokens < 2 ^ 63

/-- An accepted request is charged as evaluated, and other lines are no packages. -/
def BudgetState.Meets (config : WtConfig) (s : BudgetState) : BudgetAction → Prop
  | .event line => ¬ lineHasSchema line taskPackageSchema = true
  | .request a => (a.served config s.ledger).2.accepted → ∀ body p, a.Proposes body p →
      ∃ columns, ChargedAsEvaluated a.endpoint config s.ledger body p columns

/-! ## The invariant -/

/-- The row's tokens are not negative, and its model has the family the task was charged to. -/
structure RowCharged (s : BudgetState) (row : TaskRow) : Prop where
  nonneg : 0 ≤ row.maxTokens
  family : FamilyFits row.modelId
  charged : s.charged row.taskId = wtPolicyExtractModelFamily row.modelId 64

def RowsCharged (s : BudgetState) : Prop := ∀ row ∈ wtTaskProjectionRebuild s.ledger, RowCharged s row

section step

variable {config : WtConfig} {s : BudgetState} {ledger' : Ledger} {taskId body : Bytes}

theorem rowsCharged_event {line : Bytes} (h : RowsCharged s)
    (hs : ¬ lineHasSchema line taskPackageSchema = true) :
    RowsCharged (s.step config (.event line)) := by
  intro row hrow
  obtain ⟨old, hold, hcharge⟩ := projectedRow_append_kept hs (mem_rebuild_iff.mp hrow)
  have hid : old.taskId = row.taskId := projectionTable.idOf_stateOf hold
  have hmem : old ∈ wtTaskProjectionRebuild s.ledger := mem_rebuild_iff.mpr (hid ▸ hold)
  have hkept := h old hmem
  have hmodel : old.modelId = row.modelId := congrArg ChargedColumns.modelId hcharge
  have htokens : old.maxTokens = row.maxTokens := congrArg ChargedColumns.maxTokens hcharge
  exact ⟨htokens ▸ hkept.nonneg, hmodel ▸ hkept.family, hid ▸ hmodel ▸ hkept.charged⟩

theorem rowsCharged_lines {lines : Ledger} (h : RowsCharged s) (hlines : NoPackage lines) :
    RowsCharged { s with ledger := s.ledger ++ lines } := by
  induction lines using List.reverseRecOn with
  | nil => simpa using h
  | append_singleton lines line ih =>
    have hinit := ih fun l hl => hlines l (List.mem_append_left _ hl)
    have hlast := @rowsCharged_event {} _ line hinit (hlines line (by simp))
    simpa [BudgetState.step, List.append_assoc] using hlast

/-- What a write adds to a total at most. -/
theorem activeTokens_after {ledger : Ledger} {columns : TaskColumns} {picks picks' : TaskRow → Bool}
    (hcolumns : columnsOf ledger' taskId = some columns)
    (hothers : otherRows ledger' taskId = otherRows ledger taskId)
    (h : ∀ row ∈ otherRows ledger taskId, picks' row → picks row) :
    activeTokens (wtTaskProjectionRebuild ledger') picks' ≤
      activeTokens (wtTaskProjectionRebuild ledger) picks + max 0 columns.maxTokens := by
  obtain ⟨row, hrow, hrowcolumns⟩ := Option.map_eq_some_iff.mp hcolumns
  have hown : activeTokens [row] picks' ≤ max 0 columns.maxTokens := by
    rw [← hrowcolumns]
    unfold activeTokens
    cases hp : picks' row && !isTerminalStatus row.status <;> simp [hp, TaskRow.columns]
  have hrest := activeTokens_mono h
  have hold := @activeTokens_nonneg (projectedRow ledger taskId).toList picks
  rw [activeTokens_perm (rebuild_perm ledger' taskId), activeTokens_append, hothers, hrow,
    Option.toList_some, activeTokens_perm (rebuild_perm ledger taskId), activeTokens_append]
  omega

/-- A row behind an accepted request is the one it wrote or an old one of another task. -/
theorem mem_rebuild_of_others {ledger : Ledger} {row : TaskRow}
    (hothers : otherRows ledger' taskId = otherRows ledger taskId)
    (h : row ∈ wtTaskProjectionRebuild ledger') :
    projectedRow ledger' taskId = some row ∨
      row ∈ wtTaskProjectionRebuild ledger ∧ row.taskId ≠ taskId := by
  rw [(rebuild_perm ledger' taskId).mem_iff, List.mem_append, Option.mem_toList, hothers] at h
  refine h.imp id fun hother => ⟨?_, projectionTable.idOf_others hother⟩
  rw [(rebuild_perm ledger taskId).mem_iff]
  exact List.mem_append_right _ hother

theorem proposal_nonneg {endpoint : AdmissionEndpoint} {p : TaskProposal}
    (h : endpoint.proposal body = some p) : 0 ≤ p.maxTokens := by
  cases endpoint with
  | taskPackage =>
    rw [(readTaskPackage_fields h).maxTokens]
    exact (clampedTokens_range body (by decide)).1
  | taskRequest =>
    obtain ⟨r, hr, rfl⟩ := Option.map_eq_some_iff.mp h
    exact (readTaskRequest_maxTokens hr).1

theorem charge_eq {a : AdmissionRequest} {p : TaskProposal} (h : a.Proposes body p) :
    s.charge config a = Function.update s.charged p.taskId (p.modelFamily config) := by
  have hproposal : a.proposal = some p := by
    rw [AdmissionRequest.proposal, h.1, Option.bind_some, h.2]
  rw [BudgetState.charge, hproposal]

/-- The charges of a request that was accepted. -/
theorem rowsCharged_accepted {a : AdmissionRequest} {p : TaskProposal} {columns : TaskColumns}
    (h : RowsCharged s) (haccepted : (a.served config s.ledger).2.accepted)
    (hproposes : a.Proposes body p)
    (hcharged : ChargedAsEvaluated a.endpoint config s.ledger body p columns) :
    RowsCharged (s.step config (.request a)) := by
  obtain ⟨hcolumns, hothers⟩ :=
    writes_of_accepted haccepted hproposes.1 hproposes.2 hcharged.writes
  have hcharges : (s.step config (.request a)).charged =
      Function.update s.charged p.taskId (p.modelFamily config) := by
    rw [← charge_eq hproposes]
    exact if_pos haccepted
  intro row hrow
  rcases mem_rebuild_of_others hothers hrow with hown | ⟨hold, hne⟩
  · have hid : row.taskId = p.taskId := projectionTable.idOf_stateOf hown
    have hrowcolumns : row.columns = columns := by
      rw [columnsOf, hown] at hcolumns
      exact Option.some.inj hcolumns
    have hmodel : row.modelId = p.chosenModel config :=
      (congrArg TaskColumns.modelId hrowcolumns).trans hcharged.model
    have htokens : row.maxTokens = p.maxTokens :=
      (congrArg TaskColumns.maxTokens hrowcolumns).trans hcharged.maxTokens
    refine ⟨htokens ▸ proposal_nonneg hproposes.2, hmodel ▸ hcharged.family, ?_⟩
    rw [hcharges, hid, Function.update_self, hmodel]
    rfl
  · have hkept := h row hold
    refine ⟨hkept.nonneg, hkept.family, ?_⟩
    rw [hcharges, Function.update_of_ne hne]
    exact hkept.charged

/-- **Every step of a run whose accepted requests record what was evaluated keeps the rows
charged.** -/
theorem rowsCharged_step {action : BudgetAction} (h : RowsCharged s) (hmeets : s.Meets config action) :
    RowsCharged (s.step config action) := by
  cases action with
  | event line => exact rowsCharged_event h hmeets
  | request a =>
    by_cases haccepted : (a.served config s.ledger).2.accepted
    · obtain ⟨body, p, -, hbody, hp, -⟩ := admission_accepted haccepted
      obtain ⟨columns, hcharged⟩ := hmeets haccepted body p ⟨hbody, hp⟩
      exact rowsCharged_accepted h haccepted ⟨hbody, hp⟩ hcharged
    · obtain ⟨lines, hlines, hledger⟩ := noPackage_of_refused haccepted
      have hstep : s.step config (.request a) = { s with ledger := s.ledger ++ lines } := by
        rw [BudgetState.step, served, if_neg haccepted]
        exact congrArg (BudgetState.mk · s.charged) hledger
      rw [hstep]
      exact rowsCharged_lines h hlines

/-- **An accepted request that is charged as evaluated leaves both budgets as they should be.** -/
theorem budgetsAfter_of_meets {a : AdmissionRequest} (henabled : config.tokenTelemetryEnabled = true)
    (h : RowsCharged s) (hmeets : s.Meets config (.request a)) : BudgetsAfter config s a := by
  intro haccepted body p hproposes hpositive
  obtain ⟨columns, hcharged⟩ := hmeets haccepted body p hproposes
  obtain ⟨hcolumns, hothers⟩ :=
    writes_of_accepted haccepted hproposes.1 hproposes.2 hcharged.writes
  obtain ⟨body', p', -, hbody', hp', hallowed, -⟩ := admission_accepted haccepted
  obtain rfl : body' = body := Option.some.inj (hbody'.symm.trans hproposes.1)
  obtain rfl : p' = p := Option.some.inj (hp'.symm.trans hproposes.2)
  obtain ⟨hinitiative, hfamily, -, -⟩ := budgets_of_allowed hallowed hpositive henabled
  have hnonneg : ∀ row ∈ wtTaskProjectionRebuild s.ledger, 0 ≤ row.maxTokens :=
    fun row hrow => (h row hrow).nonneg
  have htokens : max 0 columns.maxTokens = p'.maxTokens := by
    rw [hcharged.maxTokens]
    exact max_eq_right hpositive.le
  refine ⟨fun hid hbudget => ?_, fun modelFamily hmodel hbudget => ?_⟩
  · have hfits := hcharged.initiativeFits
    have htotal := @activeTokens_nonneg (wtTaskProjectionRebuild s.ledger)
      fun row => row.initiativeId == p'.initiativeId
    have hallocated : (p'.policyInput config s.ledger body' a.clock).initiativeAllocatedTokens =
        activeTokens (wtTaskProjectionRebuild s.ledger)
          (fun row => row.initiativeId == p'.initiativeId) := by
      show (if p'.initiativeId = [] then 0
        else max 0 (wtTaskProjectionAllocatedTokensForInitiative _ p'.initiativeId)) = _
      rw [if_neg hid, wtTaskProjectionAllocatedTokensForInitiative,
        sumTokens_filter_eq hnonneg (by omega), max_eq_right htotal]
    have hroom := hinitiative hid hbudget
    rw [hallocated, show (p'.policyInput config s.ledger body' a.clock).maxTokens = p'.maxTokens
      from rfl, wrap64_of_range (by omega)] at hroom
    have hafter := @activeTokens_after _ _ _ _ (fun row => row.initiativeId == p'.initiativeId)
      (fun row => row.initiativeId == p'.initiativeId) hcolumns hothers fun _ _ hpick => hpick
    rw [htokens] at hafter
    exact hafter.trans hroom
  · have hfits := hcharged.familyFits modelFamily hmodel
    have htotal := @activeTokens_nonneg (wtTaskProjectionRebuild s.ledger) (likeFamily modelFamily)
    have hallocated : (p'.policyInput config s.ledger body' a.clock).modelFamilyAllocatedTokens =
        activeTokens (wtTaskProjectionRebuild s.ledger) (likeFamily modelFamily) := by
      have hchosen : wtPolicyExtractModelFamily (p'.chosenModel config) 64 = some modelFamily :=
        hmodel
      simp only [TaskProposal.policyInput, preparePolicyInput, readAutonomyGrantFields, hchosen]
      show max 0 (sumTokens ((wtTaskProjectionRebuild s.ledger).filter fun row =>
        likeFamily modelFamily row && !isTerminalStatus row.status)) = _
      rw [sumTokens_filter_eq hnonneg (by omega), max_eq_right htotal]
    have hroom := hfamily (Option.isSome_of_eq_some hmodel) hbudget
    rw [hallocated, show (p'.policyInput config s.ledger body' a.clock).maxTokens = p'.maxTokens
      from rfl, wrap64_of_range (by omega)] at hroom
    have hcharges : (s.step config (.request a)).charged =
        Function.update s.charged p'.taskId (p'.modelFamily config) := by
      rw [← charge_eq hproposes]
      exact if_pos haccepted
    have hlike : ∀ row ∈ otherRows s.ledger p'.taskId,
        ((s.step config (.request a)).charged row.taskId == some modelFamily) = true →
          likeFamily modelFamily row = true := by
      intro row hrow hpick
      have hmem : row ∈ wtTaskProjectionRebuild s.ledger := by
        rw [(rebuild_perm s.ledger p'.taskId).mem_iff]
        exact List.mem_append_right _ hrow
      have hne : row.taskId ≠ p'.taskId := projectionTable.idOf_others hrow
      rw [hcharges, Function.update_of_ne hne, beq_iff_eq, (h row hmem).charged] at hpick
      exact sqlLike_family (h row hmem).family hpick
    have hafter := activeTokens_after hcolumns hothers hlike
    rw [htokens] at hafter
    exact hafter.trans hroom

end step

/-! ## Runs -/

/-- **In a run from an empty ledger whose accepted requests record what was evaluated, and whose other
lines are no packages, both budgets hold right after every accepted request that asks for
tokens.** -/
theorem budgets_hold_along {config : WtConfig} (henabled : config.tokenTelemetryEnabled = true)
    {before after : List BudgetAction} {a : AdmissionRequest}
    (h : Along (BudgetState.step config) (BudgetState.Meets config) {}
      (before ++ .request a :: after)) :
    BudgetsAfter config (run (BudgetState.step config) {} before) a := by
  have hcharged : RowsCharged (run (BudgetState.step config) {} before) := by
    refine run_invariant (fun _ _ => rowsCharged_step) ?_ h.before_cut
    intro row hrow
    cases hrow
  exact budgetsAfter_of_meets henabled hcharged h.at_cut

/-- 60 tokens for claude, with a member that names a model or with none. -/
def allocationBody (taskId model : String) : Bytes :=
  bytes ("\x7b\"schema\":\"woventeam.task_package.v0.1\",\"taskId\":\"" ++ taskId ++
    "\",\"assignedRole\":\"x\",\"assignedAgent\":\"claude\"," ++ model ++ "\"maxTokens\":60\x7d")

def allocation (taskId model : String) : AdmissionRequest where
  endpoint := .taskPackage
  request := bytes "POST /api/task-package HTTP/1.1\r\n\r\n" ++ allocationBody taskId model
  clock := firstClock

def familyBudget : WtConfig := { tokenBudgetPerModelFamily := 100 }

def allocationProposal (taskId modelId : String) : TaskProposal where
  taskId := bytes taskId
  assignedRole := bytes "x"
  requestedAgent := bytes "claude"
  initiativeId := []
  toolProfile := bytes "observe"
  modelId := bytes modelId
  executionHost := []
  maxTokens := 60

theorem allocation_proposes :
    ∀ pair ∈ [("a", "\"modelId\":\"anthropic/x\",", "anthropic/x"), ("b", "", "")],
    (allocation pair.1 pair.2.1).Proposes (allocationBody pair.1 pair.2.1)
      (allocationProposal pair.1 pair.2.2) := by
  unfold AdmissionRequest.Proposes
  decide +kernel

/-- A package that names its model is charged as evaluated. -/
theorem firstAllocation_meets : BudgetState.Meets familyBudget {}
    (.request (allocation "a" "\"modelId\":\"anthropic/x\",")) := by
  intro _ body p hproposes
  have hnamed := allocation_proposes ("a", "\"modelId\":\"anthropic/x\",", "anthropic/x") (by simp)
  obtain ⟨rfl, rfl⟩ := hnamed.unique hproposes
  generalize hline : allocationBody "a" "\"modelId\":\"anthropic/x\"," ++ [newline] = line
  have hread : lineHasSchema line taskPackageSchema ∧ lineTaskId line = some (bytes "a") ∧
      packageColumns line = ⟨[], [], bytes "claude", bytes "anthropic/x", 60⟩ := by
    rw [← hline]
    decide +kernel
  obtain ⟨hschema, hid, hcolumns⟩ := hread
  have hone : OneTask familyBudget (allocationBody "a" "\"modelId\":\"anthropic/x\",")
      (allocationProposal "a" "anthropic/x") line :=
    ⟨hline ▸ recordedLines_of_oneLine (by decide +kernel) (by decide +kernel), hschema, hid,
      fun _ => by decide⟩
  have hwritten : routedColumns familyBudget (allocationProposal "a" "anthropic/x") line =
      ⟨[], [], bytes "claude", bytes "anthropic/x", 60⟩ := by
    rw [routedColumns, hcolumns]
    decide
  have hwrites := AdmissionEndpoint.Writes.taskPackage hone
  rw [hwritten] at hwrites
  have hfits : FamilyFits ((allocationProposal "a" "anthropic/x").chosenModel familyBudget) := by
    unfold FamilyFits
    decide
  exact ⟨_, hwrites, rfl, by decide, rfl, hfits, by decide,
    fun _ _ => show (60 : Int) < 2 ^ 63 by decide⟩

theorem budgets_hold_along_first :
    BudgetsAfter familyBudget {} (allocation "a" "\"modelId\":\"anthropic/x\",") :=
  @budgets_hold_along familyBudget rfl [] [] _ ⟨firstAllocation_meets, trivial⟩

/-- Two packages without a model are both charged to claude's default family, and neither row has a
family. -/
theorem not_budgets_hold : ¬ ∀ (config : WtConfig) (before : List BudgetAction)
    (a : AdmissionRequest), config.tokenTelemetryEnabled = true →
      BudgetsAfter config (run (BudgetState.step config) {} before) a := by
  intro hall
  have hsecond : ((allocation "b" "").served familyBudget
        (run (BudgetState.step familyBudget) {} [.request (allocation "a" "")]).ledger).2.accepted ∧
      activeTokens (wtTaskProjectionRebuild (BudgetState.step familyBudget
          (run (BudgetState.step familyBudget) {} [.request (allocation "a" "")])
          (.request (allocation "b" ""))).ledger)
        (fun row => (BudgetState.step familyBudget
          (run (BudgetState.step familyBudget) {} [.request (allocation "a" "")])
          (.request (allocation "b" ""))).charged row.taskId == some (bytes "anthropic")) = 120 := by
    decide +kernel
  obtain ⟨haccepted, htotal⟩ := hsecond
  have hbudget := (hall familyBudget [.request (allocation "a" "")] (allocation "b" "") rfl haccepted
    _ _ (allocation_proposes ("b", "", "") (by simp)) (by decide)).modelFamily (bytes "anthropic")
    (by decide) (by decide)
  rw [htotal] at hbudget
  exact absurd hbudget (by decide)

end WovenTeam

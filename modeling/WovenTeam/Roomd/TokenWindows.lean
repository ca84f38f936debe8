import WovenTeam.Roomd.Budgets

/-!
# Rolling token budgets

The daily and the monthly budget bound the tokens of the packages that arrive within 24 hours and
within 30 days. What the policy adds up are the lines whose own `createdAtUnixMs` is in the window,
and a package line is the client's. `windows_hold_along`: in a run in which each package that
arrived within a window also counts for it, both budgets hold over every window of arrival times.
-/

namespace WovenTeam

open CText QuotedText Runs

/-! ## The system -/

/-- An accepted request: when it arrived, the tokens it asked for, and the lines it left. -/
structure AdmittedTokens where
  endpoint : AdmissionEndpoint
  arrival : Int
  maxTokens : Int
  lines : Ledger

/-- The ledger, and what was accepted so far. -/
structure WindowState where
  ledger : Ledger := []
  admitted : List AdmittedTokens := []

def AdmissionRequest.admittedTokens (a : AdmissionRequest) (config : WtConfig) (ledger : Ledger) :
    AdmittedTokens where
  endpoint := a.endpoint
  arrival := a.clock.budgets
  maxTokens := (a.proposal.map TaskProposal.maxTokens).getD 0
  lines := (WovenTeam.served config ledger a).drop ledger.length

/-- A request is served, or something else appends a line. -/
def WindowState.step (config : WtConfig) (s : WindowState) : BudgetAction → WindowState
  | .event line => { s with ledger := s.ledger ++ [line] }
  | .request a =>
    { ledger := served config s.ledger a
      admitted :=
        if (a.served config s.ledger).2.accepted then
          s.admitted ++ [a.admittedTokens config s.ledger]
        else s.admitted }

/-- The positive tokens of what arrived from `first` to `last`. -/
def tokensBetween (admitted : List AdmittedTokens) (first last : Int) : Int :=
  ((admitted.filter fun e => decide (first ≤ e.arrival) && decide (e.arrival ≤ last)).map
    fun e => max 0 e.maxTokens).sum

/-- The budget over every window of arrival times of that length. -/
def WithinWindow (budget window : Int) (admitted : List AdmittedTokens) : Prop :=
  0 < budget → ∀ start, tokensBetween admitted start (start + window) ≤ budget

def WindowsHold (config : WtConfig) (admitted : List AdmittedTokens) : Prop :=
  WithinWindow config.tokenDailyBudget dayWindowMs admitted ∧
    WithinWindow config.tokenMonthlyBudget monthWindowMs admitted

/-! ## The condition -/

/-- One of the lines is read as a package with these tokens, created at `since` or later. -/
def AdmittedTokens.CountsSince (e : AdmittedTokens) (since : Int) : Prop :=
  ∃ line ∈ e.lines, lineHasSchema line taskPackageSchema ∧
    e.maxTokens ≤ readTokens line "maxTokens" ∧ createdSince since line

/-- The packages that arrived at `since` or later say so. -/
def PackagesCount (admitted : List AdmittedTokens) (since : Int) : Prop :=
  ∀ e ∈ admitted, e.endpoint = .taskPackage → since ≤ e.arrival → 0 < e.maxTokens →
    e.CountsSince since

/-- Where a request that asks for tokens is accepted, the packages of the windows count, and the
totals fit. -/
def WindowState.Meets (config : WtConfig) (s : WindowState) : BudgetAction → Prop
  | .event _ => True
  | .request a => (a.served config s.ledger).2.accepted → ∀ body p, a.Proposes body p →
      0 < p.maxTokens →
      (0 < config.tokenDailyBudget →
        PackagesCount s.admitted (a.clock.budgets - dayWindowMs)) ∧
      (0 < config.tokenMonthlyBudget →
        PackagesCount s.admitted (a.clock.budgets - monthWindowMs)) ∧
      allocatedSince s.ledger (a.clock.budgets - monthWindowMs) + p.maxTokens < 2 ^ 63

/-! ## The ledger and what was accepted -/

/-- The lines of the accepted requests are all in the ledger, and the packages printed by the
request endpoint count from their arrival on. -/
structure Recorded (s : WindowState) : Prop where
  allocated : ∀ since, (s.admitted.map fun e => allocatedSince e.lines since).sum ≤
    allocatedSince s.ledger since
  printed : ∀ e ∈ s.admitted, e.endpoint = .taskRequest → ∀ since ≤ e.arrival,
    e.CountsSince since

section step

variable {config : WtConfig} {s : WindowState} {a : AdmissionRequest} {body : Bytes}
  {p : TaskProposal}

theorem proposal_eq (h : a.Proposes body p) : a.proposal = some p := by
  rw [AdmissionRequest.proposal, h.1, Option.bind_some, h.2]

theorem admittedTokens_maxTokens (h : a.Proposes body p) (ledger : Ledger) :
    (a.admittedTokens config ledger).maxTokens = p.maxTokens := by
  simp [AdmissionRequest.admittedTokens, proposal_eq h]

theorem taskPackageRecord_createdAt {e : EscapedRequest} {toolProfile : Bytes}
    {maxTokens now : Int} (h : Int64 now) :
    wtJsonReadLongLong (recordLine (taskPackageRecord e toolProfile maxTokens now))
      "createdAtUnixMs" = some now := by
  have hfront : (packageFront e toolProfile).Lacks (bytes "createdAtUnixMs") :=
    (packageFront_keysAmong e toolProfile).lacks (by decide)
  have hl := @lookup_taskPackageRecord e toolProfile maxTokens now _ hfront
  exact wtJsonReadLong_object (.of_check rfl) quote_notMem_newline h (hl.trans rfl) rfl

/-- A request that is not accepted only appends. -/
theorem served_of_refused (h : ¬ (a.served config s.ledger).2.accepted) :
    ∃ lines, served config s.ledger a = s.ledger ++ lines := by
  obtain ⟨lines, -, hledger⟩ := noPackage_of_refused h
  exact ⟨lines, hledger⟩

/-- What an accepted request left is what its endpoint appends. -/
theorem admittedTokens_lines (haccepted : (a.served config s.ledger).2.accepted)
    (h : a.Proposes body p) :
    a.endpoint.Lines config body a.clock.record (a.admittedTokens config s.ledger).lines := by
  obtain ⟨body', p', lines, hbody, hp, -, hlines, hledger⟩ := admission_accepted haccepted
  obtain ⟨rfl, rfl⟩ := AdmissionRequest.Proposes.unique (a := a) h ⟨hbody, hp⟩
  have hdrop : (a.admittedTokens config s.ledger).lines = lines := by
    show (WovenTeam.served config s.ledger a).drop s.ledger.length = lines
    rw [WovenTeam.served, AdmissionRequest.served, hledger, List.drop_left]
  rwa [hdrop]

/-- A package of the request endpoint is printed with its tokens and the time of its record. -/
theorem countsSince_printed (haccepted : (a.served config s.ledger).2.accepted)
    (h : a.Proposes body p) (hendpoint : a.endpoint = .taskRequest) {since : Int}
    (hsince : since ≤ a.clock.budgets) :
    (a.admittedTokens config s.ledger).CountsSince since := by
  have hlines := admittedTokens_lines haccepted h
  have hp := h.2
  rw [hendpoint] at hlines hp
  obtain ⟨r, hr, e, -, heq⟩ := hlines
  have hproposal : r.proposal = p := by
    have hmap : (readTaskRequest body).map TaskRequest.proposal = some p := hp
    rw [hr] at hmap
    exact Option.some.inj hmap
  have hstarted := a.clock.started
  have horder := a.clock.inOrder
  refine ⟨_, heq ▸ List.mem_cons_of_mem _ List.mem_cons_self, taskPackageRecord_schema, ?_, ?_⟩
  · rw [readTokens, taskPackageRecord_maxTokens (readTaskRequest_maxTokens hr).2, Option.getD_some,
      admittedTokens_maxTokens h, hproposal]
    exact le_max_right _ _
  · rw [createdSince, lineCreatedAt, taskPackageRecord_createdAt a.clock.int64_record,
      Option.getD_some]
    simp only [Bool.and_eq_true, decide_eq_true_eq]
    omega

theorem proposal_range {endpoint : AdmissionEndpoint} (h : endpoint.proposal body = some p) :
    Int64 p.maxTokens := by
  cases endpoint with
  | taskPackage =>
    rw [(readTaskPackage_fields h).maxTokens]
    exact (clampedTokens_range body (by decide)).2
  | taskRequest =>
    obtain ⟨r, hr, rfl⟩ := Option.map_eq_some_iff.mp h
    exact (readTaskRequest_maxTokens hr).2

theorem countsSince_le {e : AdmittedTokens} {since : Int} (h : e.CountsSince since) :
    e.maxTokens ≤ allocatedSince e.lines since := by
  obtain ⟨line, hline, hschema, htokens, hcreated⟩ := h
  have hmem : packageTokens line ∈ (e.lines.filter (createdSince since)).map packageTokens :=
    List.mem_map_of_mem (List.mem_filter.mpr ⟨hline, hcreated⟩)
  have hle := List.single_le_sum (fun n hn => by
    obtain ⟨l, -, rfl⟩ := List.mem_map.mp hn
    exact packageTokens_nonneg l) _ hmem
  rw [packageTokens, if_pos hschema] at hle
  exact htokens.trans hle

theorem allocatedSince_le_append (ledger lines : Ledger) (since : Int) :
    allocatedSince ledger since ≤ allocatedSince (ledger ++ lines) since := by
  have := allocatedSince_nonneg lines since
  rw [allocatedSince_append]
  omega

theorem allocatedSince_anti (ledger : Ledger) {since since' : Int} (h : since ≤ since') :
    allocatedSince ledger since' ≤ allocatedSince ledger since := by
  have hfilter : ledger.filter (createdSince since') =
      (ledger.filter (createdSince since)).filter (createdSince since') := by
    rw [List.filter_filter]
    refine List.filter_congr fun line _ => ?_
    unfold createdSince
    grind
  unfold allocatedSince
  rw [hfilter]
  refine (List.filter_sublist.map _).sum_le_sum fun n hn => ?_
  obtain ⟨line, -, rfl⟩ := List.mem_map.mp hn
  exact packageTokens_nonneg line

/-- The sum of some of the entries is at most that of numbers which bound those and are not negative
for the others. -/
theorem sum_filter_le {α : Type} {f g : α → Int} {q : α → Bool} {l : List α}
    (hq : ∀ a ∈ l, q a → f a ≤ g a) (hg : ∀ a ∈ l, 0 ≤ g a) :
    ((l.filter q).map f).sum ≤ (l.map g).sum := by
  induction l with
  | nil => simp
  | cons a l ih =>
    have hrest := ih (fun b hb => hq b (List.mem_cons_of_mem a hb))
      fun b hb => hg b (List.mem_cons_of_mem a hb)
    have hown := hg a List.mem_cons_self
    rw [List.filter_cons, List.map_cons, List.sum_cons]
    split
    · rename_i hpick
      have := hq a List.mem_cons_self hpick
      rw [List.map_cons, List.sum_cons]
      omega
    · omega

/-- What is added up at a request is at least what arrived in the window. -/
theorem tokensBetween_le {since first last : Int} (h : Recorded s) (hfirst : since ≤ first)
    (hcount : PackagesCount s.admitted since) :
    tokensBetween s.admitted first last ≤ allocatedSince s.ledger since := by
  refine le_trans (sum_filter_le (fun e he hpick => ?_)
    fun e _ => allocatedSince_nonneg e.lines since) (h.allocated since)
  simp only [Bool.and_eq_true, decide_eq_true_eq] at hpick
  by_cases htokens : 0 < e.maxTokens
  · have hcounts : e.CountsSince since := by
      cases hendpoint : e.endpoint with
      | taskPackage => exact hcount e he hendpoint (hfirst.trans hpick.1) htokens
      | taskRequest => exact h.printed e he hendpoint since (hfirst.trans hpick.1)
    have := countsSince_le hcounts
    omega
  · have := allocatedSince_nonneg e.lines since
    omega

/-- **Every step keeps the accepted requests recorded.** -/
theorem recorded_step {action : BudgetAction} (h : Recorded s) :
    Recorded (s.step config action) := by
  cases action with
  | event line =>
    exact ⟨fun since => (h.allocated since).trans (allocatedSince_le_append _ _ since), h.printed⟩
  | request a =>
    unfold WindowState.step
    dsimp only
    by_cases haccepted : (a.served config s.ledger).2.accepted
    · obtain ⟨body, p, lines, hbody, hp, -, hlines, hledger⟩ := admission_accepted haccepted
      have hserved : served config s.ledger a =
          s.ledger ++ (a.admittedTokens config s.ledger).lines := by
        show served config s.ledger a =
          s.ledger ++ (served config s.ledger a).drop s.ledger.length
        have hsame : served config s.ledger a = s.ledger ++ lines := hledger
        rw [hsame, List.drop_left]
      rw [if_pos haccepted]
      refine ⟨fun since => ?_, fun e he hendpoint since hsince => ?_⟩
      · have := h.allocated since
        rw [hserved, allocatedSince_append, List.map_append, List.sum_append]
        simp only [List.map_cons, List.map_nil, List.sum_cons, List.sum_nil]
        omega
      · rcases List.mem_append.mp he with hold | hnew
        · exact h.printed e hold hendpoint since hsince
        · obtain rfl := List.mem_singleton.mp hnew
          exact countsSince_printed haccepted ⟨hbody, hp⟩ hendpoint hsince
    · obtain ⟨lines, hserved⟩ := served_of_refused haccepted
      rw [if_neg haccepted, hserved]
      exact ⟨fun since => (h.allocated since).trans (allocatedSince_le_append _ _ since), h.printed⟩

/-! ## One request -/

/-- What the policy compared: the tokens since the start of either window and the new ones. -/
theorem windows_of_accepted (henabled : config.tokenTelemetryEnabled = true)
    (haccepted : (a.served config s.ledger).2.accepted) (h : a.Proposes body p)
    (htokens : 0 < p.maxTokens)
    (hfits : allocatedSince s.ledger (a.clock.budgets - monthWindowMs) + p.maxTokens < 2 ^ 63) :
    (0 < config.tokenDailyBudget →
        allocatedSince s.ledger (a.clock.budgets - dayWindowMs) + p.maxTokens ≤
          config.tokenDailyBudget) ∧
      (0 < config.tokenMonthlyBudget →
        allocatedSince s.ledger (a.clock.budgets - monthWindowMs) + p.maxTokens ≤
          config.tokenMonthlyBudget) := by
  obtain ⟨body', p', -, hbody, hp, hallowed, -⟩ := admission_accepted haccepted
  obtain ⟨rfl, rfl⟩ := AdmissionRequest.Proposes.unique (a := a) h ⟨hbody, hp⟩
  obtain ⟨-, -, hday, hmonth⟩ := budgets_of_allowed hallowed htokens henabled
  have hstarted := a.clock.started
  have hinorder := a.clock.inOrder
  have hrange := a.clock.range
  have hwithin := allocatedSince_anti s.ledger
    (show a.clock.budgets - monthWindowMs ≤ a.clock.budgets - dayWindowMs by
      unfold monthWindowMs dayWindowMs
      omega)
  have hnonneg := allocatedSince_nonneg s.ledger (a.clock.budgets - dayWindowMs)
  have hdays : wrap64 (a.clock.budgets - dayWindowMs) = a.clock.budgets - dayWindowMs :=
    wrap64_of_range (by unfold dayWindowMs; omega)
  have hmonths : wrap64 (a.clock.budgets - monthWindowMs) = a.clock.budgets - monthWindowMs :=
    wrap64_of_range (by unfold monthWindowMs dayWindowMs; omega)
  obtain ⟨hdaytotal, hmonthtotal⟩ := wtTaskSummarizeTokenBudgets_windows s.ledger a.clock.budgets
  rw [hdays] at hdaytotal
  rw [hmonths] at hmonthtotal
  refine ⟨fun hbudget => ?_, fun hbudget => ?_⟩
  · have hcompared : wrap64 ((wtTaskSummarizeTokenBudgets s.ledger
        a.clock.budgets).dayWindowAllocatedTokens + p.maxTokens) ≤ config.tokenDailyBudget :=
      hday hbudget
    rwa [hdaytotal, wrap64_add_wrap64, wrap64_of_range (by omega)] at hcompared
  · have hcompared : wrap64 ((wtTaskSummarizeTokenBudgets s.ledger
        a.clock.budgets).monthWindowAllocatedTokens + p.maxTokens) ≤ config.tokenMonthlyBudget :=
      hmonth hbudget
    rwa [hmonthtotal, wrap64_add_wrap64, wrap64_of_range (by omega)] at hcompared

theorem tokensBetween_append (admitted : List AdmittedTokens) (e : AdmittedTokens)
    (first last : Int) :
    tokensBetween (admitted ++ [e]) first last = tokensBetween admitted first last +
      if first ≤ e.arrival ∧ e.arrival ≤ last then max 0 e.maxTokens else 0 := by
  unfold tokensBetween
  rw [List.filter_append, List.map_append, List.sum_append]
  congr 1
  by_cases hin : first ≤ e.arrival ∧ e.arrival ≤ last
  · simp [hin]
  · have hpick : (decide (first ≤ e.arrival) && decide (e.arrival ≤ last)) = false := by
      simpa using hin
    simp [hin, hpick]

/-- A window that ends with the new request holds what was added up and what it asks for. -/
theorem withinWindow_append {budget window : Int} {e : AdmittedTokens} (h : Recorded s)
    (hold : WithinWindow budget window s.admitted)
    (hcount : 0 < budget → 0 < e.maxTokens → PackagesCount s.admitted (e.arrival - window))
    (hroom : 0 < budget → 0 < e.maxTokens →
      allocatedSince s.ledger (e.arrival - window) + e.maxTokens ≤ budget) :
    WithinWindow budget window (s.admitted ++ [e]) := by
  intro hbudget start
  have hbefore := hold hbudget start
  rw [tokensBetween_append]
  split
  · rename_i hin
    by_cases htokens : 0 < e.maxTokens
    · have hle := @tokensBetween_le s (e.arrival - window) start (start + window) h (by omega)
        (hcount hbudget htokens)
      have := hroom hbudget htokens
      omega
    · omega
  · omega

/-- **A step in front of which the packages of its windows count keeps the windows within the
budgets.** -/
theorem windowsHold_step {action : BudgetAction} (henabled : config.tokenTelemetryEnabled = true)
    (h : Recorded s) (hold : WindowsHold config s.admitted) (hmeets : s.Meets config action) :
    WindowsHold config (s.step config action).admitted := by
  cases action with
  | event line => exact hold
  | request a =>
    unfold WindowState.step
    dsimp only
    by_cases haccepted : (a.served config s.ledger).2.accepted
    · obtain ⟨body, p, -, hbody, hp, -⟩ := admission_accepted haccepted
      have hproposes : a.Proposes body p := ⟨hbody, hp⟩
      have hmax := @admittedTokens_maxTokens config a body p hproposes s.ledger
      rw [if_pos haccepted]
      have hwindows := fun htokens =>
        windows_of_accepted henabled haccepted hproposes htokens
          (hmeets haccepted body p hproposes htokens).2.2
      refine ⟨withinWindow_append h hold.1 (fun hbudget htokens => ?_) fun hbudget htokens => ?_,
        withinWindow_append h hold.2 (fun hbudget htokens => ?_) fun hbudget htokens => ?_⟩ <;>
        rw [hmax] at htokens
      · exact (hmeets haccepted body p hproposes htokens).1 hbudget
      · rw [hmax]
        exact (hwindows htokens).1 hbudget
      · exact (hmeets haccepted body p hproposes htokens).2.1 hbudget
      · rw [hmax]
        exact (hwindows htokens).2 hbudget
    · rw [if_neg haccepted]
      exact hold

end step

/-! ## Runs -/

/-- **In a run in which each package that arrived within a window also counts for it, and no total
overflows, the tokens of every window of arrival times stay within the budgets.** -/
theorem windows_hold_along {config : WtConfig} (henabled : config.tokenTelemetryEnabled = true)
    {ledger : Ledger} {actions : List BudgetAction}
    (h : Along (WindowState.step config) (WindowState.Meets config) { ledger } actions) :
    WindowsHold config (run (WindowState.step config) { ledger } actions).admitted := by
  have hstep : ∀ (s : WindowState) (action : BudgetAction),
      (Recorded s ∧ WindowsHold config s.admitted) → s.Meets config action →
      Recorded (s.step config action) ∧ WindowsHold config (s.step config action).admitted :=
    fun s action hinv hmeets =>
      ⟨recorded_step hinv.1, windowsHold_step henabled hinv.1 hinv.2 hmeets⟩
  have hnone : ∀ budget window, WithinWindow budget window [] := by
    intro budget window hbudget start
    show (0 : Int) ≤ budget
    omega
  have hfirst : Recorded { ledger } :=
    ⟨fun since => allocatedSince_nonneg ledger since, fun e he => absurd he List.not_mem_nil⟩
  exact (run_invariant hstep ⟨hfirst, hnone _ _, hnone _ _⟩ h).2

def dailyBudget : WtConfig := { tokenDailyBudget := 100 }

/-- The first request of a run has nothing to count. -/
theorem firstRequest_meets (config : WtConfig) (a : AdmissionRequest) :
    WindowState.Meets config {} (.request a) := by
  intro _ body p hproposes _
  refine ⟨fun _ e he => absurd he List.not_mem_nil, fun _ e he => absurd he List.not_mem_nil, ?_⟩
  have hrange := (proposal_range hproposes.2).2
  show (0 : Int) + p.maxTokens < 2 ^ 63
  omega

theorem windows_hold_along_first :
    WindowsHold dailyBudget (run (WindowState.step dailyBudget) {}
      [.request (allocation "a" "")]).admitted :=
  windows_hold_along rfl ⟨firstRequest_meets dailyBudget _, trivial⟩

/-- Two packages of 60 tokens without a time are both admitted at once. -/
theorem not_windows_hold : ¬ ∀ (config : WtConfig) (ledger : Ledger) (actions : List BudgetAction),
    config.tokenTelemetryEnabled = true →
      WindowsHold config (run (WindowState.step config) { ledger } actions).admitted := by
  intro hall
  have htokens : tokensBetween (run (WindowState.step dailyBudget) {}
      [.request (allocation "a" ""), .request (allocation "b" "")]).admitted
      firstClock.budgets (firstClock.budgets + dayWindowMs) = 120 := by
    decide +kernel
  have hbudget := (hall dailyBudget [] [.request (allocation "a" ""), .request (allocation "b" "")]
    rfl).1 (by decide) firstClock.budgets
  rw [htokens] at hbudget
  exact absurd hbudget (by decide)

end WovenTeam

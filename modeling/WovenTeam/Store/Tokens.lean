import Mathlib.Algebra.Order.BigOperators.Group.List
import WovenTeam.Store.Ledger

/-!
# Token totals

`wtTaskSummarizeTokenBudgets` adds up the token allocations of the packages in the ledger and the
usage reported for them, over all lines and over two rolling windows. A line's place in time is
the `createdAtUnixMs` that stands in it.
-/

namespace WovenTeam

open CText

def taskUsageSchema : String := "woventeam.task_usage.v0.1"

def dayWindowMs : Int := 24 * 60 * 60 * 1000
def monthWindowMs : Int := 30 * dayWindowMs

structure WtTokenSummary where
  dayWindowAllocatedTokens : Int := 0
  monthWindowAllocatedTokens : Int := 0
  allTimeAllocatedTokens : Int := 0
  dayWindowActualTokens : Int := 0
  monthWindowActualTokens : Int := 0
  allTimeActualTokens : Int := 0
  dayWindowActualCostCents : Int := 0
  monthWindowActualCostCents : Int := 0
  allTimeActualCostCents : Int := 0
  deriving DecidableEq, Repr

/-- A count that is missing or negative is zero. -/
def readTokens (line : Bytes) (key : String) : Int := max 0 ((wtJsonReadLong line key).getD 0)

def lineCreatedAt (line : Bytes) : Int := (wtJsonReadLongLong line "createdAtUnixMs").getD 0

/-- The line has a time, which is not before `since`. -/
def createdSince (since : Int) (line : Bytes) : Bool :=
  decide (lineCreatedAt line > 0) && decide (lineCreatedAt line ≥ since)

/-- Add to a total where the line counts. -/
def addTokens (counts : Bool) (total tokens : Int) : Int :=
  if counts then wrap64 (total + tokens) else total

def WtTokenSummary.step (nowUnixMs : Int) (summary : WtTokenSummary) (line : Bytes) :
    WtTokenSummary :=
  let inMonth := createdSince (wrap64 (nowUnixMs - monthWindowMs)) line
  let inDay := createdSince (wrap64 (nowUnixMs - dayWindowMs)) line
  if lineHasSchema line taskPackageSchema then
    let maxTokens := readTokens line "maxTokens"
    { summary with
      allTimeAllocatedTokens := addTokens true summary.allTimeAllocatedTokens maxTokens
      monthWindowAllocatedTokens := addTokens inMonth summary.monthWindowAllocatedTokens maxTokens
      dayWindowAllocatedTokens := addTokens inDay summary.dayWindowAllocatedTokens maxTokens }
  else if lineHasSchema line taskUsageSchema then
    let totalTokens := readTokens line "totalTokens"
    let estimatedCostCents := readTokens line "estimatedCostCents"
    { summary with
      allTimeActualTokens := addTokens true summary.allTimeActualTokens totalTokens
      allTimeActualCostCents := addTokens true summary.allTimeActualCostCents estimatedCostCents
      monthWindowActualTokens := addTokens inMonth summary.monthWindowActualTokens totalTokens
      monthWindowActualCostCents :=
        addTokens inMonth summary.monthWindowActualCostCents estimatedCostCents
      dayWindowActualTokens := addTokens inDay summary.dayWindowActualTokens totalTokens
      dayWindowActualCostCents :=
        addTokens inDay summary.dayWindowActualCostCents estimatedCostCents }
  else summary

def wtTaskSummarizeTokenBudgets (ledger : Ledger) (nowUnixMs : Int) : WtTokenSummary :=
  ledger.foldl (WtTokenSummary.step nowUnixMs) {}

/-! ## The windows as sums -/

/-- The tokens a package line asks for. -/
def packageTokens (line : Bytes) : Int :=
  if lineHasSchema line taskPackageSchema then readTokens line "maxTokens" else 0

/-- The tokens of the packages since a time. -/
def allocatedSince (ledger : Ledger) (since : Int) : Int :=
  ((ledger.filter (createdSince since)).map packageTokens).sum

theorem packageTokens_nonneg (line : Bytes) : 0 ≤ packageTokens line := by
  unfold packageTokens readTokens
  split <;> omega

theorem allocatedSince_nonneg (ledger : Ledger) (since : Int) : 0 ≤ allocatedSince ledger since := by
  refine List.sum_nonneg fun n hn => ?_
  obtain ⟨line, -, rfl⟩ := List.mem_map.mp hn
  exact packageTokens_nonneg line

theorem allocatedSince_append (a b : Ledger) (since : Int) :
    allocatedSince (a ++ b) since = allocatedSince a since + allocatedSince b since := by
  simp [allocatedSince]

theorem wrap64_add_wrap64 (a b : Int) : wrap64 (wrap64 a + b) = wrap64 (a + b) := by
  simp [wrap64]

theorem addTokens_wrap64 (counts : Bool) (total tokens : Int) :
    addTokens counts (wrap64 total) tokens = wrap64 (total + if counts then tokens else 0) := by
  cases counts <;> simp [addTokens, wrap64]

theorem allocatedSince_singleton (line : Bytes) (since : Int) :
    allocatedSince [line] since = if createdSince since line then packageTokens line else 0 := by
  unfold allocatedSince
  split <;> simp_all

/-- **The window totals are the sums over the packages of the window, wrapped to 64 bits.** -/
theorem wtTaskSummarizeTokenBudgets_windows (ledger : Ledger) (nowUnixMs : Int) :
    (wtTaskSummarizeTokenBudgets ledger nowUnixMs).dayWindowAllocatedTokens =
        wrap64 (allocatedSince ledger (wrap64 (nowUnixMs - dayWindowMs))) ∧
      (wtTaskSummarizeTokenBudgets ledger nowUnixMs).monthWindowAllocatedTokens =
        wrap64 (allocatedSince ledger (wrap64 (nowUnixMs - monthWindowMs))) := by
  induction ledger using List.reverseRecOn with
  | nil => exact ⟨rfl, rfl⟩
  | append_singleton ledger line ih =>
    rw [wtTaskSummarizeTokenBudgets, List.foldl_append, ← wtTaskSummarizeTokenBudgets]
    simp only [List.foldl_cons, List.foldl_nil, WtTokenSummary.step, allocatedSince_append,
      allocatedSince_singleton, packageTokens]
    split
    · simp only [ih.1, ih.2, addTokens_wrap64, and_self]
    · split <;> simp [ih.1, ih.2]

end WovenTeam

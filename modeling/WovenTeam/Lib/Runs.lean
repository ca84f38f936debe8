import Mathlib.Data.List.Basic

/-!
# Runs of a step function

A system is a step function on states and actions; a run is a list of actions. `Along` says of a
run that every step of it meets a condition in the state it starts from, and `run_invariant` is the
induction rule: what holds at first and is kept by every step that meets the condition holds in
the end.
-/

namespace Runs

variable {σ α : Type} {step : σ → α → σ} {cond : σ → α → Prop}

def run (step : σ → α → σ) (s : σ) (actions : List α) : σ := actions.foldl step s

/-- Every step of the run meets the condition. -/
def Along (step : σ → α → σ) (cond : σ → α → Prop) : σ → List α → Prop
  | _, [] => True
  | s, a :: actions => cond s a ∧ Along step cond (step s a) actions

instance Along.decidable [∀ s a, Decidable (cond s a)] :
    ∀ (s : σ) (actions : List α), Decidable (Along step cond s actions)
  | _, [] => isTrue trivial
  | s, a :: actions => @instDecidableAnd _ _ _ (Along.decidable (step s a) actions)

theorem run_append (s : σ) (actions actions' : List α) :
    run step s (actions ++ actions') = run step (run step s actions) actions' := by
  simp [run]

@[simp] theorem run_nil (s : σ) : run step s [] = s := rfl

@[simp] theorem run_cons (s : σ) (a : α) (actions : List α) :
    run step s (a :: actions) = run step (step s a) actions := rfl

theorem run_invariant {Inv : σ → Prop} (hstep : ∀ s a, Inv s → cond s a → Inv (step s a)) {s : σ}
    (hs : Inv s) {actions : List α} (h : Along step cond s actions) : Inv (run step s actions) := by
  induction actions generalizing s with
  | nil => exact hs
  | cons a actions ih => exact ih (hstep s a hs h.1) h.2

/-- A condition that each action meets in every state is met along the run. -/
theorem Along.of_forall {s : σ} {actions : List α} (h : ∀ s, ∀ a ∈ actions, cond s a) :
    Along step cond s actions := by
  induction actions generalizing s with
  | nil => trivial
  | cons a actions ih =>
    exact ⟨h s a List.mem_cons_self, ih fun s b hb => h s b (List.mem_cons_of_mem a hb)⟩

/-- The steps in front of a cut meet the condition. -/
theorem Along.before_cut {s : σ} {actions actions' : List α}
    (h : Along step cond s (actions ++ actions')) : Along step cond s actions := by
  induction actions generalizing s with
  | nil => trivial
  | cons b actions ih => exact ⟨h.1, ih h.2⟩

/-- The steps behind a cut meet the condition. -/
theorem Along.after_cut {s : σ} {actions actions' : List α} {a : α}
    (h : Along step cond s (actions ++ a :: actions')) :
    Along step cond (step (run step s actions) a) actions' := by
  induction actions generalizing s with
  | nil => exact h.2
  | cons b actions ih => exact ih h.2

/-- The condition holds of every step, wherever the run is cut. -/
theorem Along.at_cut {s : σ} {actions actions' : List α} {a : α}
    (h : Along step cond s (actions ++ a :: actions')) : cond (run step s actions) a := by
  induction actions generalizing s with
  | nil => exact h.1
  | cons b actions ih => exact ih h.2

/-- A condition on the actions alone is met along with another. -/
theorem Along.and_forall {step : σ → α → σ} {cond : σ → α → Prop} {P : α → Prop} {s : σ}
    {actions : List α} (h : Along step cond s actions) (hP : ∀ a ∈ actions, P a) :
    Along step (fun s a => cond s a ∧ P a) s actions := by
  induction actions generalizing s with
  | nil => trivial
  | cons a actions ih =>
    exact ⟨⟨h.1, hP a List.mem_cons_self⟩, ih h.2 fun b hb => hP b (List.mem_cons_of_mem a hb)⟩

theorem Along.mono {step : σ → α → σ} {cond cond' : σ → α → Prop} {s : σ} {actions : List α}
    (h : Along step cond s actions) (himp : ∀ s a, cond s a → cond' s a) :
    Along step cond' s actions := by
  induction actions generalizing s with
  | nil => trivial
  | cons a actions ih => exact ⟨himp s a h.1, ih h.2⟩

/-! ## Steps that can fail -/

/-- A step that is not taken from a state that was not reached. -/
def optStep (step : σ → α → Option σ) (s : Option σ) (a : α) : Option σ :=
  s.bind fun s => step s a

section optStep

variable {step : σ → α → Option σ} {s s' : σ} {a : α} {actions : List α}

/-- The invariant rule over the states that are reached. -/
theorem optStep_invariant (Inv : σ → Prop) (cond : σ → α → Prop)
    (hstep : ∀ s a s', Inv s → cond s a → step s a = some s' → Inv s') (hs : Inv s)
    (h : Along (optStep step) (fun s a => ∀ t ∈ s, cond t a) (some s) actions)
    (hrun : run (optStep step) (some s) actions = some s') : Inv s' := by
  have hkept : ∀ (s : Option σ) (a : α), (∀ t ∈ s, Inv t) → (∀ t ∈ s, cond t a) →
      ∀ t ∈ optStep step s a, Inv t := by
    intro s a hinv hcond t ht
    obtain ⟨s, hs, hstepped⟩ := Option.bind_eq_some_iff.mp ht
    exact hstep s a t (hinv s hs) (hcond s hs) hstepped
  exact run_invariant hkept (by simpa using hs) h s' hrun

/-- The last step of a run starts from a state that was reached. -/
theorem optStep_concat (hrun : run (optStep step) (some s) (actions ++ [a]) = some s') :
    ∃ t, run (optStep step) (some s) actions = some t ∧ step t a = some s' := by
  rw [run_append] at hrun
  exact Option.bind_eq_some_iff.mp hrun

theorem run_optStep_none (actions : List α) : run (optStep step) none actions = none := by
  induction actions with
  | nil => rfl
  | cons a actions ih => exact ih

/-- The first step of a run leads to a state that the rest starts from. -/
theorem optStep_cons (hrun : run (optStep step) (some s) (a :: actions) = some s') :
    ∃ t, step s a = some t ∧ run (optStep step) (some t) actions = some s' := by
  rw [run_cons, optStep, Option.bind_some] at hrun
  cases hstep : step s a with
  | none =>
    rw [hstep, run_optStep_none] at hrun
    cases hrun
  | some t => exact ⟨t, rfl, hstep ▸ hrun⟩

end optStep

end Runs

import Mathlib.Data.List.Induction

/-!
# Work done from time to time

A loop that may not sleep for long looks at the clock again and again, and does a piece of work when
`interval` has passed since it last did it. `Spaced` is what the loop has to be given: looks in the
order of time, each within `gap` of the one before. Then the work is never older than `interval`
after a look (`lastWork_recent`).
-/

namespace Periodic

/-- The time of the last work after a look at `now`. -/
def look (interval last now : Int) : Int := if interval ≤ now - last then now else last

/-- The time of the last work after all looks. -/
def lastWork (interval start : Int) (looks : List Int) : Int := looks.foldl (look interval) start

/-- The time of the last look. -/
def latest (start : Int) (looks : List Int) : Int := looks.getLast?.getD start

/-- Each look comes within `gap` of the one before. -/
def Spaced (gap : Int) : Int → List Int → Prop
  | _, [] => True
  | last, now :: looks => (last ≤ now ∧ now ≤ last + gap) ∧ Spaced gap now looks

section look

variable {interval last now start gap : Int} {looks : List Int}

theorem look_le (h : last ≤ now) : look interval last now ≤ now := by
  unfold look
  split <;> omega

/-- After a look the work is younger than the interval. -/
theorem look_recent (h : 0 < interval) : now - look interval last now < interval := by
  unfold look
  split <;> omega

@[simp] theorem lastWork_nil (interval start : Int) : lastWork interval start [] = start := rfl

@[simp] theorem lastWork_concat (interval start : Int) (looks : List Int) (now : Int) :
    lastWork interval start (looks ++ [now]) =
      look interval (lastWork interval start looks) now := by
  simp [lastWork]

@[simp] theorem latest_nil (start : Int) : latest start [] = start := rfl

@[simp] theorem latest_concat (start : Int) (looks : List Int) (now : Int) :
    latest start (looks ++ [now]) = now := by
  simp [latest]

theorem spaced_concat :
    Spaced gap start (looks ++ [now]) ↔
      Spaced gap start looks ∧ latest start looks ≤ now ∧ now ≤ latest start looks + gap := by
  induction looks generalizing start with
  | nil => simp [Spaced]
  | cons t looks ih =>
    have hlatest : latest start (t :: looks) = latest t looks := by
      simp only [latest, List.getLast?_cons, Option.getD_some]
    rw [List.cons_append, Spaced, ih, hlatest, Spaced]
    exact and_assoc.symm

theorem Spaced.start_le (h : Spaced gap start looks) : start ≤ latest start looks := by
  induction looks using List.reverseRecOn with
  | nil => exact Int.le_refl _
  | append_singleton looks now ih =>
    obtain ⟨hlooks, hle, -⟩ := spaced_concat.mp h
    rw [latest_concat]
    exact Int.le_trans (ih hlooks) hle

/-- **The work is done at looks only, and is younger than the interval after each of them.** -/
theorem lastWork_recent (interval : Int) (hinterval : 0 < interval)
    (h : Spaced gap start looks) :
    lastWork interval start looks ≤ latest start looks ∧
      latest start looks - lastWork interval start looks < interval := by
  induction looks using List.reverseRecOn with
  | nil => exact ⟨Int.le_refl _, by simpa using hinterval⟩
  | append_singleton looks now ih =>
    obtain ⟨hlooks, hle, -⟩ := spaced_concat.mp h
    rw [lastWork_concat, latest_concat]
    exact ⟨look_le (Int.le_trans (ih hlooks).1 hle), look_recent hinterval⟩

theorem start_le_lastWork (interval : Int) (h : Spaced gap start looks) :
    start ≤ lastWork interval start looks := by
  induction looks using List.reverseRecOn with
  | nil => exact Int.le_refl _
  | append_singleton looks now ih =>
    obtain ⟨hlooks, hle, -⟩ := spaced_concat.mp h
    have hnow := Int.le_trans hlooks.start_le hle
    rw [lastWork_concat, look]
    split
    · exact hnow
    · exact ih hlooks

end look

end Periodic

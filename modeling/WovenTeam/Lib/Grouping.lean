import Mathlib.Data.List.Dedup
import Mathlib.Data.List.Sort

/-!
# Groups, orders and limits of a query

`groups` is the `GROUP BY` of a query: each key that occurs with the rows that have it. `thenBy` is
an `ORDER BY` with several columns, and `top` the first rows in an order. A row that a limit leaves
out is outranked by as many rows as the limit lets through (`top_full`).
-/

namespace Grouping

variable {α κ : Type}

/-! ## Groups -/

section groups

variable [DecidableEq κ] {key : α → κ} {rows : List α} {k : κ}

def group (key : α → κ) (rows : List α) (k : κ) : List α := rows.filter fun a => key a = k

/-- `GROUP BY`. -/
def groups (key : α → κ) (rows : List α) : List (κ × List α) :=
  (rows.map key).dedup.map fun k => (k, group key rows k)

theorem group_ne_nil_iff : group key rows k ≠ [] ↔ k ∈ rows.map key := by
  simp only [group, ne_eq, List.filter_eq_nil_iff, decide_eq_true_eq, List.mem_map, not_forall,
    not_not, exists_prop]

theorem mem_groups_iff {g : κ × List α} :
    g ∈ groups key rows ↔ g.1 ∈ rows.map key ∧ g.2 = group key rows g.1 := by
  obtain ⟨k, members⟩ := g
  simp only [groups, List.mem_map, List.mem_dedup, Prod.mk.injEq]
  constructor
  · rintro ⟨k', hmem, rfl, rfl⟩
    exact ⟨hmem, rfl⟩
  · rintro ⟨hmem, hmembers⟩
    exact ⟨k, hmem, rfl, hmembers.symm⟩

theorem groups_keys (key : α → κ) (rows : List α) :
    (groups key rows).map Prod.fst = (rows.map key).dedup := by
  simp [groups, Function.comp_def]

/-- Every key has one group. -/
theorem groups_nodup (key : α → κ) (rows : List α) : ((groups key rows).map Prod.fst).Nodup := by
  rw [groups_keys]
  exact List.nodup_dedup _

/-- Where the rows are cut down by a condition on the key, the groups that are left are the same. -/
theorem group_filter {p : α → Bool} (h : ∀ a ∈ rows, key a = k → p a = true) :
    group key (rows.filter p) k = group key rows k := by
  rw [group, group, List.filter_filter]
  refine List.filter_congr fun a ha => ?_
  by_cases hk : key a = k
  · simp [hk, h a ha hk]
  · simp [hk]

end groups

/-! ## Orders -/

section orders

variable {β : Type} {r s : α → α → Prop}

/-- By the first order, and by the second where the first has a tie. -/
def thenBy (r s : α → α → Prop) (a b : α) : Prop := r a b ∧ (r b a → s a b)

def ascending [LE β] (f : α → β) (a b : α) : Prop := f a ≤ f b

def descending [LE β] (f : α → β) (a b : α) : Prop := f b ≤ f a

instance [DecidableRel r] [DecidableRel s] : DecidableRel (thenBy r s) := fun a b =>
  inferInstanceAs (Decidable (r a b ∧ (r b a → s a b)))

instance [LE β] [DecidableLE β] (f : α → β) : DecidableRel (ascending f) := fun a b =>
  inferInstanceAs (Decidable (f a ≤ f b))

instance [LE β] [DecidableLE β] (f : α → β) : DecidableRel (descending f) := fun a b =>
  inferInstanceAs (Decidable (f b ≤ f a))

instance [Std.Total r] [Std.Total s] : Std.Total (thenBy r s) where
  total a b := by
    by_cases hab : r a b
    · by_cases hba : r b a
      · exact (Std.Total.total (r := s) a b).imp (fun h => ⟨hab, fun _ => h⟩)
          fun h => ⟨hba, fun _ => h⟩
      · exact .inl ⟨hab, fun h => absurd h hba⟩
    · exact .inr ⟨(Std.Total.total (r := r) a b).resolve_left hab, fun h => absurd h hab⟩

instance [IsTrans α r] [IsTrans α s] : IsTrans α (thenBy r s) where
  trans a b c hab hbc := by
    refine ⟨IsTrans.trans _ _ _ hab.1 hbc.1, fun hca => ?_⟩
    exact IsTrans.trans _ _ _ (hab.2 (IsTrans.trans _ _ _ hbc.1 hca))
      (hbc.2 (IsTrans.trans _ _ _ hca hab.1))

instance [LE β] [Std.IsLinearPreorder β] (f : α → β) : Std.Total (ascending f) :=
  ⟨fun _ _ => Std.le_total⟩

instance [LE β] [Std.IsLinearPreorder β] (f : α → β) : Std.Total (descending f) :=
  ⟨fun _ _ => Std.le_total⟩

instance [LE β] [Std.IsLinearPreorder β] (f : α → β) : IsTrans α (ascending f) :=
  ⟨fun _ _ _ h h' => Std.le_trans h h'⟩

instance [LE β] [Std.IsLinearPreorder β] (f : α → β) : IsTrans α (descending f) :=
  ⟨fun _ _ _ h h' => Std.le_trans h' h⟩

end orders

/-! ## Limits -/

section top

variable {r : α → α → Prop} [DecidableRel r] {n : Nat} {l : List α} {a : α}

/-- `ORDER BY … LIMIT n`. -/
def top (r : α → α → Prop) [DecidableRel r] (n : Nat) (l : List α) : List α :=
  (l.insertionSort r).take n

theorem mem_of_mem_top (h : a ∈ top r n l) : a ∈ l :=
  (List.mem_insertionSort r).mp (List.mem_of_mem_take h)

theorem top_pairwise [Std.Total r] [IsTrans α r] : (top r n l).Pairwise r :=
  (List.pairwise_insertionSort r l).sublist (List.take_sublist n _)

/-- What the limit leaves out comes behind `n` others. -/
theorem top_full [Std.Total r] [IsTrans α r] (h : a ∈ l) (hout : a ∉ top r n l) :
    (top r n l).length = n ∧ ∀ b ∈ top r n l, r b a := by
  have hsorted : a ∈ (l.insertionSort r).take n ++ (l.insertionSort r).drop n := by
    rw [List.take_append_drop]
    exact (List.mem_insertionSort r).mpr h
  have hlate : a ∈ (l.insertionSort r).drop n := (List.mem_append.mp hsorted).resolve_left hout
  refine ⟨?_, fun b hb => ?_⟩
  · have hlt : n < (l.insertionSort r).length := by
      by_contra hle
      rw [List.drop_of_length_le (by omega)] at hlate
      cases hlate
    rw [top, List.length_take]
    omega
  · have hpairs := List.pairwise_insertionSort r l
    rw [← List.take_append_drop n (l.insertionSort r), List.pairwise_append] at hpairs
    exact hpairs.2.2 b hb a hlate

end top

end Grouping

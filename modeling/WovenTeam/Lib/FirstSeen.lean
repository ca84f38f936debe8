import Mathlib.Data.List.Induction
import Mathlib.Data.List.Nodup

/-!
# First-seen tables over a log

A reader of a log keeps one row for each key, in the order in which the keys first appeared in a
record that creates rows, and updates the row of a key with every later record of it. A bounded
table has no row for the keys that come when it is full.

`scan_eq` separates the keys of such a scan: the table is the list of the first keys, each with
the state its own records fold to. What other keys' records do shows only in the order and in
which keys have a row.
-/

namespace FirstSeen

/-! ## The last value -/

section lastOf

variable {α β : Type} {value : α → Option β}

/-- The last of the values that records give. -/
def lastOf (value : α → Option β) (log : List α) : Option β := (log.filterMap value).getLast?

theorem foldl_getD (value : α → Option β) (log : List α) (start : β) :
    log.foldl (fun old a => (value a).getD old) start = (lastOf value log).getD start := by
  induction log using List.reverseRecOn with
  | nil => rfl
  | append_singleton log a ih =>
    rw [List.foldl_append, List.foldl_cons, List.foldl_nil, ih, lastOf, lastOf,
      List.filterMap_append]
    cases hv : value a <;> simp [hv]

theorem lastOf_append (log log' : List α) :
    lastOf value (log ++ log') = (lastOf value log').or (lastOf value log) := by
  rw [lastOf, List.filterMap_append, List.getLast?_append]
  rfl

theorem lastOf_eq_none {log : List α} (h : ∀ a ∈ log, value a = none) : lastOf value log = none := by
  rw [lastOf, List.filterMap_eq_nil_iff.mpr h]
  rfl

theorem lastOf_cons_of_none {a : α} {log : List α} (h : ∀ b ∈ log, value b = none) :
    lastOf value (a :: log) = value a := by
  rw [← List.singleton_append, lastOf_append, lastOf_eq_none h, Option.none_or, lastOf]
  cases hv : value a <;> simp [hv]

theorem lastOf_cons (a : α) (log : List α) :
    lastOf value (a :: log) = (lastOf value log).or (value a) := by
  rw [← List.singleton_append, lastOf_append, lastOf_cons_of_none (by simp)]

theorem lastOf_eq_some_iff {log : List α} {v : β} :
    lastOf value log = some v ↔
      ∃ before a after, log = before ++ a :: after ∧ value a = some v ∧
        ∀ b ∈ after, value b = none := by
  constructor
  · induction log using List.reverseRecOn with
    | nil => simp [lastOf]
    | append_singleton log a ih =>
      intro h
      cases hv : value a with
      | some w =>
        rw [lastOf_append, lastOf_cons_of_none (by simp), hv] at h
        exact ⟨log, a, [], rfl, hv.trans h, by simp⟩
      | none =>
        rw [lastOf_append, lastOf_cons_of_none (by simp), hv] at h
        obtain ⟨before, b, after, rfl, hb, hafter⟩ := ih h
        refine ⟨before, b, after ++ [a], by simp, hb, fun c hc => ?_⟩
        rcases List.mem_append.mp hc with hc | hc
        · exact hafter c hc
        · rw [List.mem_singleton.mp hc, hv]
  · rintro ⟨before, a, after, rfl, ha, hafter⟩
    rw [lastOf_append, lastOf_cons_of_none hafter, ha]
    rfl

theorem lastOf_of_suffix {log log' : List α} (h : log' <:+ log) {v : β}
    (hv : lastOf value log' = some v) : lastOf value log = some v := by
  obtain ⟨before, rfl⟩ := h
  rw [lastOf_append, hv]
  rfl

theorem lastOf_map {γ : Type} (f : γ → α) (log : List γ) :
    lastOf value (log.map f) = lastOf (fun c => value (f c)) log := by
  rw [lastOf, List.filterMap_map]
  rfl

theorem lastOf_option_map {γ : Type} (f : β → γ) (log : List α) :
    lastOf (fun a => (value a).map f) log = (lastOf value log).map f := by
  simp only [lastOf, ← List.map_filterMap, List.getLast?_map]

/-- Records without a value may be left out. -/
theorem lastOf_filter {p : α → Bool} {log : List α} (h : ∀ a ∈ log, (value a).isSome → p a) :
    lastOf value (log.filter p) = lastOf value log := by
  rw [lastOf, lastOf, List.filterMap_filter]
  congr 1
  refine List.filterMap_congr fun a ha => ?_
  by_cases hp : p a
  · rw [if_pos hp]
  · rw [if_neg hp]
    cases hv : value a with
    | none => rfl
    | some v => exact absurd (h a ha (by simp [hv])) hp

end lastOf

/-- Records that change no state may be left out of a fold. -/
theorem foldl_filter_of_inert {α β : Type} {p : α → Bool} {step : β → α → β} {log : List α}
    (h : ∀ a ∈ log, p a = false → ∀ s, step s a = s) (start : β) :
    (log.filter p).foldl step start = log.foldl step start := by
  induction log generalizing start with
  | nil => rfl
  | cons a log ih =>
    rw [List.forall_mem_cons] at h
    cases hp : p a with
    | true =>
      rw [List.filter_cons_of_pos hp, List.foldl_cons, List.foldl_cons]
      exact ih h.2 _
    | false =>
      rw [List.filter_cons_of_neg (by simp [hp]), List.foldl_cons, h.1 hp]
      exact ih h.2 _

/-! ## The first of its kind -/

section firstWith

variable {κ : Type}

/-- The first of the elements with the property. -/
def FirstWith (p : κ → Prop) (ks : List κ) (k : κ) : Prop :=
  ∃ before after, ks = before ++ k :: after ∧ p k ∧ ∀ j ∈ before, ¬ p j

theorem FirstWith.congr {p q : κ → Prop} {ks : List κ} (h : ∀ j ∈ ks, (p j ↔ q j)) (k : κ) :
    FirstWith p ks k ↔ FirstWith q ks k := by
  refine exists_congr fun before => exists_congr fun after => and_congr_right fun hsplit => ?_
  subst hsplit
  rw [h k (by simp)]
  exact and_congr_right fun _ => forall_congr' fun j => forall_congr' fun hj =>
    not_congr (h j (by simp [hj]))

theorem firstWith_iff_find? {p : κ → Prop} [DecidablePred p] {ks : List κ} {k : κ} :
    FirstWith p ks k ↔ ks.find? (fun j => p j) = some k := by
  rw [List.find?_eq_some_iff_append]
  simp only [decide_eq_true_eq, Bool.not_eq_true', decide_eq_false_iff_not]
  exact ⟨fun ⟨before, after, hsplit, hk, hno⟩ => ⟨hk, before, after, hsplit, hno⟩,
    fun ⟨hk, before, after, hsplit, hno⟩ => ⟨before, after, hsplit, hk, hno⟩⟩

theorem FirstWith.unique {p : κ → Prop} {ks : List κ} {j k : κ} (hj : FirstWith p ks j)
    (hk : FirstWith p ks k) : j = k := by
  classical
  rw [firstWith_iff_find?] at hj hk
  exact Option.some.inj (hj.symm.trans hk)

theorem firstWith_exists {p : κ → Prop} {ks : List κ} :
    (∃ k, FirstWith p ks k) ↔ ∃ k ∈ ks, p k := by
  classical
  simp only [firstWith_iff_find?, ← Option.isSome_iff_exists, List.find?_isSome,
    decide_eq_true_eq]

end firstWith

/-! ## Tables -/

/-- How a reader of records `α` keeps rows `σ` by key `κ`. -/
structure Table (α κ σ : Type) where
  key : α → Option κ
  creates : α → Bool
  idOf : σ → κ
  create : α → κ → σ
  update : α → σ → σ
  idOf_create : ∀ a k, idOf (create a k) = k
  idOf_update : ∀ a s, idOf (update a s) = idOf s

variable {α κ σ : Type}

/-- The first `cap` keys. -/
def admitted (cap : Option Nat) (ks : List κ) : List κ :=
  match cap with
  | none => ks
  | some c => ks.take c

theorem admitted_initial (cap : Option Nat) (ks : List κ) : admitted cap ks <+: ks := by
  cases cap with
  | none => exact List.prefix_rfl
  | some c => exact List.take_prefix c ks

/-- A new key gets a row exactly when there is room. -/
theorem admitted_append (cap : Option Nat) (ks : List κ) (k : κ) :
    admitted cap (ks ++ [k]) =
      if cap.all (fun c => (admitted cap ks).length < c) then admitted cap ks ++ [k]
      else admitted cap ks := by
  cases cap with
  | none => simp [admitted]
  | some c =>
    simp only [admitted, Option.all_some, List.length_take, decide_eq_true_eq]
    by_cases h : ks.length < c
    · rw [if_pos (by omega), List.take_of_length_le (by simp; omega),
        List.take_of_length_le (by omega)]
    · rw [if_neg (by omega), List.take_append_of_le_length (by omega)]

theorem length_filterMap_of_isSome {S : κ → Option σ} {ks : List κ}
    (h : ∀ k ∈ ks, (S k).isSome) :
    (ks.filterMap S).length = ks.length := by
  induction ks with
  | nil => rfl
  | cons k ks ih =>
    obtain ⟨s, hs⟩ := Option.isSome_iff_exists.mp (h k (by simp))
    simp [hs, ih fun j hj => h j (by simp [hj])]

namespace Table

variable [DecidableEq κ] (T : Table α κ σ)

/-- The row of a key. -/
def row (rows : List σ) (k : κ) : Option Nat := rows.findIdx? fun s => T.idOf s = k

/-- One record: update the key's row, or create it while there is room for `cap` rows. -/
def step (cap : Option Nat) (rows : List σ) (a : α) : List σ :=
  match T.key a with
  | none => rows
  | some k =>
    match T.row rows k with
    | some i => rows.modify i (T.update a)
    | none =>
      if T.creates a ∧ cap.all (fun c => rows.length < c) then rows ++ [T.create a k]
      else rows

def scan (cap : Option Nat) (log : List α) : List σ := log.foldl (T.step cap) []

/-! ## One key at a time -/

def stateStep (k : κ) (o : Option σ) (a : α) : Option σ :=
  if T.key a = some k then
    match o with
    | some s => some (T.update a s)
    | none => if T.creates a then some (T.create a k) else none
  else o

/-- The state the records of one key fold to. -/
def stateOf (log : List α) (k : κ) : Option σ := log.foldl (T.stateStep k) none

def seenStep (ks : List κ) (a : α) : List κ :=
  match T.key a with
  | none => ks
  | some k => if T.creates a ∧ k ∉ ks then ks ++ [k] else ks

/-- The keys in the order of their first creating records. -/
def firstSeen (log : List α) : List κ := log.foldl T.seenStep []

/-- The place of the record that creates a key's row. -/
def firstIndex (log : List α) (k : κ) : Option Nat :=
  log.findIdx? fun a => T.key a = some k ∧ T.creates a

@[simp] theorem scan_nil (cap : Option Nat) : T.scan cap [] = [] := rfl

theorem scan_append (cap : Option Nat) (log : List α) (a : α) :
    T.scan cap (log ++ [a]) = T.step cap (T.scan cap log) a := by simp [scan]

@[simp] theorem stateOf_nil (k : κ) : T.stateOf [] k = none := rfl

theorem stateOf_append (log : List α) (a : α) (k : κ) :
    T.stateOf (log ++ [a]) k = T.stateStep k (T.stateOf log k) a := by simp [stateOf]

theorem firstSeen_append (log : List α) (a : α) :
    T.firstSeen (log ++ [a]) = T.seenStep (T.firstSeen log) a := by simp [firstSeen]

theorem stateStep_of_ne {k : κ} {a : α} (h : T.key a ≠ some k) (o : Option σ) :
    T.stateStep k o a = o := if_neg h

theorem stateStep_some {k : κ} {a : α} (h : T.key a = some k) (s : σ) :
    T.stateStep k (some s) a = some (T.update a s) := if_pos h

theorem stateStep_none {k : κ} {a : α} (h : T.key a = some k) :
    T.stateStep k none a = if T.creates a then some (T.create a k) else none := if_pos h

theorem idOf_stateOf {log : List α} {k : κ} {s : σ} (h : T.stateOf log k = some s) :
    T.idOf s = k := by
  induction log using List.reverseRecOn generalizing s with
  | nil => cases h
  | append_singleton log a ih =>
    rw [stateOf_append] at h
    by_cases hk : T.key a = some k
    · cases ho : T.stateOf log k with
      | some s' =>
        rw [ho, T.stateStep_some hk] at h
        cases h
        rw [T.idOf_update, ih ho]
      | none =>
        rw [ho, T.stateStep_none hk] at h
        split at h
        · cases h
          rw [T.idOf_create]
        · cases h
    · rw [T.stateStep_of_ne hk] at h
      exact ih h

/-- A record that creates no row changes at most the row of its own key. -/
theorem forall_stateOf_append {P : σ → Prop} {log : List α} {a : α} (hc : T.creates a = false) :
    (∀ k s, T.stateOf (log ++ [a]) k = some s → P s) ↔
      ∀ k s, T.stateOf log k = some s → P (if T.key a = some k then T.update a s else s) := by
  refine forall_congr' fun k => ?_
  rw [stateOf_append]
  by_cases hk : T.key a = some k
  · cases T.stateOf log k with
    | none => simp [T.stateStep_none hk, hc]
    | some s => simp [T.stateStep_some hk, hk]
  · simp [T.stateStep_of_ne hk, hk]

theorem mem_firstSeen_iff {log : List α} {k : κ} :
    k ∈ T.firstSeen log ↔ (T.stateOf log k).isSome := by
  induction log using List.reverseRecOn with
  | nil => simp [firstSeen]
  | append_singleton log a ih =>
    rw [firstSeen_append, stateOf_append, seenStep]
    by_cases hk : T.key a = some k
    · simp only [hk]
      cases hs : T.stateOf log k with
      | some s =>
        have hmem : k ∈ T.firstSeen log := ih.mpr (by simp [hs])
        simp [T.stateStep_some hk, hmem]
      | none =>
        have hmem : k ∉ T.firstSeen log := fun h => by simp [hs] at ih; exact ih h
        by_cases hc : T.creates a <;> simp [T.stateStep_none hk, hmem, hc]
    · rw [T.stateStep_of_ne hk, ← ih]
      cases hkey : T.key a with
      | none => rfl
      | some k' =>
        have : k ≠ k' := fun h => hk (by rw [hkey, h])
        simp only
        split <;> simp [this]

theorem firstSeen_nodup (log : List α) : (T.firstSeen log).Nodup := by
  induction log using List.reverseRecOn with
  | nil => exact List.nodup_nil
  | append_singleton log a ih =>
    rw [firstSeen_append, seenStep]
    split
    · exact ih
    · split
      · rename_i k h
        exact List.nodup_append.mpr ⟨ih, List.nodup_singleton _, by
          intro x hx y hy
          rw [List.mem_singleton] at hy
          rintro rfl
          exact h.2 (hy ▸ hx)⟩
      · exact ih

/-! ## The table is its keys' states -/

section rows

variable {S S' : κ → Option σ} {ks : List κ}

theorem row_eq_none (hid : ∀ k s, S k = some s → T.idOf s = k) {k : κ} (h : k ∉ ks) :
    T.row (ks.filterMap S) k = none := by
  rw [row, List.findIdx?_eq_none_iff]
  intro s hs
  obtain ⟨k', hk', hS⟩ := List.mem_filterMap.mp hs
  simp only [decide_eq_false_iff_not]
  rintro rfl
  rw [hid k' s hS] at h
  exact h hk'

theorem modify_row (hid : ∀ k s, S k = some s → T.idOf s = k) (hks : ks.Nodup) {k : κ}
    (hk : k ∈ ks) {s : σ} (hs : S k = some s) {a : α} (hS' : S' k = some (T.update a s))
    (hne : ∀ j, j ≠ k → S' j = S j) :
    ∃ i, T.row (ks.filterMap S) k = some i ∧
      (ks.filterMap S).modify i (T.update a) = ks.filterMap S' := by
  induction ks with
  | nil => simp at hk
  | cons j ks ih =>
    obtain ⟨hj, hks⟩ := List.nodup_cons.mp hks
    by_cases hjk : j = k
    · subst hjk
      refine ⟨0, ?_, ?_⟩
      · have hjs := hid j s hs
        simp [row, hs, List.findIdx?_cons, hjs]
      · have hrest : ks.filterMap S = ks.filterMap S' :=
          List.filterMap_congr fun i hi => (hne i fun h => hj (h ▸ hi)).symm
        simp [hs, hS', hrest]
    · have hk' : k ∈ ks := (List.mem_cons.mp hk).resolve_left (Ne.symm hjk)
      obtain ⟨i, hi, hmod⟩ := ih hks hk'
      cases hSj : S j with
      | none => exact ⟨i, by simpa [hSj] using hi, by simpa [hSj, hne j hjk] using hmod⟩
      | some t =>
        refine ⟨i + 1, ?_, ?_⟩
        · have ht : T.idOf t ≠ k := by rw [hid j t hSj]; exact hjk
          rw [row] at hi ⊢
          simp [hSj, List.findIdx?_cons, ht, hi]
        · simp [hSj, hne j hjk, hmod]

end rows

/-- **A bounded first-seen table is the list of its first keys' states.** -/
theorem scan_eq (cap : Option Nat) (log : List α) :
    T.scan cap log = (admitted cap (T.firstSeen log)).filterMap (T.stateOf log) := by
  induction log using List.reverseRecOn with
  | nil => cases cap <;> simp [firstSeen, admitted]
  | append_singleton log a ih =>
    have hid : ∀ k s, T.stateOf log k = some s → T.idOf s = k := fun k s h => T.idOf_stateOf h
    have hsub := (admitted_initial cap (T.firstSeen log)).sublist
    have hsome : ∀ k ∈ admitted cap (T.firstSeen log), (T.stateOf log k).isSome :=
      fun k hk => T.mem_firstSeen_iff.mp (hsub.subset hk)
    have hlen := length_filterMap_of_isSome hsome
    rw [scan_append, step, ih]
    cases hkey : T.key a with
    | none =>
      have hst : T.stateOf (log ++ [a]) = T.stateOf log :=
        funext fun k => by rw [stateOf_append, stateStep_of_ne]; simp [hkey]
      rw [hst, firstSeen_append]
      simp [seenStep, hkey]
    | some k =>
      have hne : ∀ j, j ≠ k → T.stateOf (log ++ [a]) j = T.stateOf log j := fun j hj => by
        rw [stateOf_append, stateStep_of_ne]
        simp [hkey, Ne.symm hj]
      simp only
      by_cases hadm : k ∈ admitted cap (T.firstSeen log)
      · -- the key has a row
        obtain ⟨s, hs⟩ := Option.isSome_iff_exists.mp (hsome k hadm)
        have hS' : T.stateOf (log ++ [a]) k = some (T.update a s) := by
          rw [stateOf_append, hs, T.stateStep_some hkey]
        obtain ⟨i, hi, hmod⟩ :=
          T.modify_row hid ((T.firstSeen_nodup log).sublist hsub) hadm hs hS' hne
        have hseen : T.firstSeen (log ++ [a]) = T.firstSeen log := by
          rw [firstSeen_append]
          simp [seenStep, hkey, hsub.subset hadm]
        simp only [hi, hmod, hseen]
      · have hrow := T.row_eq_none hid hadm
        have hsame : (admitted cap (T.firstSeen log)).filterMap (T.stateOf (log ++ [a])) =
            (admitted cap (T.firstSeen log)).filterMap (T.stateOf log) :=
          List.filterMap_congr fun j hj => hne j fun h => hadm (h ▸ hj)
        simp only [hrow, hlen]
        by_cases hnew : T.creates a ∧ k ∉ T.firstSeen log
        · have hseen : T.firstSeen (log ++ [a]) = T.firstSeen log ++ [k] := by
            rw [firstSeen_append]
            simp [seenStep, hkey, hnew]
          have hS' : T.stateOf (log ++ [a]) k = some (T.create a k) := by
            have hnone : T.stateOf log k = none := by
              have := hnew.2
              rw [mem_firstSeen_iff, Option.not_isSome_iff_eq_none] at this
              exact this
            simp [stateOf_append, hnone, T.stateStep_none hkey, hnew.1]
          rw [hseen, admitted_append]
          by_cases hroom : cap.all (fun c => (admitted cap (T.firstSeen log)).length < c)
          · rw [if_pos ⟨hnew.1, hroom⟩, if_pos hroom, List.filterMap_append, hsame]
            simp [hS']
          · rw [if_neg (fun h => hroom h.2), if_neg hroom, hsame]
        · have hseen : T.firstSeen (log ++ [a]) = T.firstSeen log := by
            rw [firstSeen_append, seenStep, hkey]
            exact if_neg hnew
          rw [hseen, hsame]
          by_cases hc : T.creates a
          · -- the key was seen when the table was full
            have hk : k ∈ T.firstSeen log := by
              by_contra h
              exact hnew ⟨hc, h⟩
            rw [if_neg]
            rintro ⟨-, hroom⟩
            cases cap with
            | none => exact hadm hk
            | some c =>
              simp only [Option.all_some, decide_eq_true_eq, admitted, List.length_take] at hroom
              refine hadm ?_
              rw [admitted, List.take_of_length_le (by omega)]
              exact hk
          · rw [if_neg (fun h => hc h.1)]

theorem mem_scan_iff {cap : Option Nat} {log : List α} {s : σ} :
    s ∈ T.scan cap log ↔
      T.idOf s ∈ admitted cap (T.firstSeen log) ∧ T.stateOf log (T.idOf s) = some s := by
  rw [scan_eq, List.mem_filterMap]
  constructor
  · rintro ⟨k, hk, hs⟩
    rw [T.idOf_stateOf hs]
    exact ⟨hk, hs⟩
  · rintro ⟨hk, hs⟩
    exact ⟨T.idOf s, hk, hs⟩

/-- A property that every record gives the row it creates or updates holds of all rows. -/
theorem scan_forall {P : σ → Prop} {log : List α} (hc : ∀ a ∈ log, ∀ k, P (T.create a k))
    (hu : ∀ a ∈ log, ∀ s, P (T.update a s)) (cap : Option Nat) : ∀ s ∈ T.scan cap log, P s := by
  induction log using List.reverseRecOn with
  | nil => simp
  | append_singleton log a ih =>
    have ih' := ih (fun b hb => hc b (by simp [hb])) fun b hb => hu b (by simp [hb])
    have ha := hu a (by simp)
    rw [scan_append, step]
    split
    · exact ih'
    · split
      · intro s hs
        obtain ⟨j, hj⟩ := List.mem_iff_getElem?.mp hs
        rw [List.getElem?_modify] at hj
        obtain ⟨s', hs', rfl⟩ := Option.map_eq_some_iff.mp hj
        split
        · exact ha s'
        · exact ih' s' (List.mem_of_getElem? hs')
      · split
        · intro s hs
          rcases List.mem_append.mp hs with hs | hs
          · exact ih' s hs
          · rw [List.mem_singleton.mp hs]
            exact hc a (by simp) _
        · exact ih'

/-- With room for every key, a search finds a row exactly when some key's state fits. -/
theorem find?_scan_isSome {c : Nat} {log : List α} (h : (T.firstSeen log).length ≤ c)
    (p : σ → Bool) :
    ((T.scan (some c) log).find? p).isSome ↔
      ∃ k ∈ T.firstSeen log, ∃ s, T.stateOf log k = some s ∧ p s := by
  have hall : admitted (some c) (T.firstSeen log) = T.firstSeen log := List.take_of_length_le h
  rw [List.find?_isSome]
  constructor
  · rintro ⟨s, hs, hp⟩
    obtain ⟨hmem, hstate⟩ := T.mem_scan_iff.mp hs
    rw [hall] at hmem
    exact ⟨_, hmem, s, hstate, hp⟩
  · rintro ⟨k, hmem, s, hstate, hp⟩
    obtain rfl := T.idOf_stateOf hstate
    exact ⟨s, T.mem_scan_iff.mpr ⟨by rwa [hall], hstate⟩, hp⟩

/-- The row a scan finds is the one of the first key whose state fits. -/
theorem find?_scan_iff {c : Nat} {log : List α} (h : (T.firstSeen log).length ≤ c) {p : σ → Bool}
    {s : σ} :
    (T.scan (some c) log).find? p = some s ↔
      FirstWith (fun k => (T.stateOf log k).any p) (T.firstSeen log) (T.idOf s) ∧
        T.stateOf log (T.idOf s) = some s := by
  have hall : admitted (some c) (T.firstSeen log) = T.firstSeen log := List.take_of_length_le h
  rw [scan_eq, hall, List.find?_filterMap, firstWith_iff_find?]
  simp only [Bool.decide_eq_true, Option.bind_eq_some_iff]
  refine ⟨fun ⟨k, hfind, hstate⟩ => ?_, fun ⟨hfind, hstate⟩ => ⟨_, hfind, hstate⟩⟩
  obtain rfl := T.idOf_stateOf hstate
  exact ⟨hfind, hstate⟩

/-- A full table takes no new key. -/
theorem scan_append_of_full {c : Nat} {log : List α} {a : α} {k : κ} (ha : T.key a = some k)
    (hk : k ∉ T.firstSeen log) (hfull : c ≤ (T.firstSeen log).length) :
    T.scan (some c) (log ++ [a]) = T.scan (some c) log := by
  have hpre := admitted_initial (some c) (T.firstSeen log)
  have hsome : ∀ j ∈ admitted (some c) (T.firstSeen log), (T.stateOf log j).isSome :=
    fun j hj => T.mem_firstSeen_iff.mp (hpre.subset hj)
  have hlen : (T.scan (some c) log).length = c := by
    rw [scan_eq, length_filterMap_of_isSome hsome, admitted, List.length_take]
    omega
  have hrow : T.row (T.scan (some c) log) k = none := by
    rw [scan_eq]
    exact T.row_eq_none (fun _ _ h => T.idOf_stateOf h) fun h => hk (hpre.subset h)
  rw [scan_append, step, ha]
  simp only [hrow]
  exact if_neg fun h => by simp [hlen] at h

/-! ## One row and the others -/

/-- The rows of the other keys. -/
def others (log : List α) (k : κ) : List σ := ((T.firstSeen log).erase k).filterMap (T.stateOf log)

/-- An unbounded table is one key's row and the rows of the others. -/
theorem scan_perm (log : List α) (k : κ) :
    (T.scan none log).Perm ((T.stateOf log k).toList ++ T.others log k) := by
  rw [show T.scan none log = (T.firstSeen log).filterMap (T.stateOf log) from T.scan_eq none log,
    others]
  by_cases hk : k ∈ T.firstSeen log
  · obtain ⟨s, hs⟩ := Option.isSome_iff_exists.mp (T.mem_firstSeen_iff.mp hk)
    have hperm := (List.perm_cons_erase hk).filterMap (T.stateOf log)
    rw [List.filterMap_cons_some hs] at hperm
    rw [hs]
    exact hperm
  · have hnone : T.stateOf log k = none := by
      rw [mem_firstSeen_iff, Option.not_isSome_iff_eq_none] at hk
      exact hk
    rw [List.erase_of_not_mem hk, hnone]
    exact List.Perm.refl _

theorem idOf_others {log : List α} {k : κ} {s : σ} (h : s ∈ T.others log k) : T.idOf s ≠ k := by
  obtain ⟨j, hj, hs⟩ := List.mem_filterMap.mp h
  rw [T.idOf_stateOf hs]
  exact fun hjk => (T.firstSeen_nodup log).not_mem_erase (hjk ▸ hj)

/-- A record changes no row of another key. -/
theorem others_append {log : List α} {a : α} {k : κ} (h : ∀ j ∈ T.key a, j = k) :
    T.others (log ++ [a]) k = T.others log k := by
  have hseen : (T.firstSeen (log ++ [a])).erase k = (T.firstSeen log).erase k := by
    rw [firstSeen_append, seenStep]
    split
    · rfl
    · rename_i j hj
      obtain rfl := h j hj
      split
      · rename_i hnew
        rw [List.erase_append_right _ hnew.2]
        simp [List.erase_of_not_mem hnew.2]
      · rfl
  rw [others, others, hseen]
  refine List.filterMap_congr fun j hj => ?_
  have hne : j ≠ k := fun hjk => (T.firstSeen_nodup log).not_mem_erase (hjk ▸ hj)
  rw [stateOf_append, T.stateStep_of_ne fun hk => hne (h j hk)]

/-! ## The order of the rows -/

theorem firstIndex_append_of_some {log : List α} {a : α} {k : κ} {i : Nat}
    (h : T.firstIndex log k = some i) : T.firstIndex (log ++ [a]) k = some i := by
  rw [firstIndex] at h ⊢
  rw [List.findIdx?_append, h]
  rfl

theorem firstIndex_isSome_iff {log : List α} {k : κ} :
    (T.firstIndex log k).isSome ↔ k ∈ T.firstSeen log := by
  induction log using List.reverseRecOn with
  | nil => simp [firstIndex, firstSeen]
  | append_singleton log a ih =>
    rw [firstSeen_append, seenStep]
    cases hi : T.firstIndex log k with
    | some i =>
      rw [T.firstIndex_append_of_some hi]
      have : k ∈ T.firstSeen log := ih.mp (by simp [hi])
      split
      · simpa
      · split <;> simp [this]
    | none =>
      have hk : k ∉ T.firstSeen log := fun h => by simp [hi] at ih; exact ih h
      rw [firstIndex] at hi ⊢
      rw [List.findIdx?_append, hi]
      by_cases ha : T.key a = some k ∧ T.creates a
      · simp [ha.1, ha.2, hk]
      · have hlast : k ∉ (match T.key a with
            | none => T.firstSeen log
            | some k' => if T.creates a ∧ k' ∉ T.firstSeen log then T.firstSeen log ++ [k']
              else T.firstSeen log) := by
          cases hkey : T.key a with
          | none => exact hk
          | some k' =>
            simp only
            split
            · rename_i hc
              have : k ≠ k' := fun h => ha ⟨by rw [hkey, h], hc.1⟩
              simp [hk, this]
            · exact hk
        simp only [hlast, iff_false]
        simp [List.findIdx?_cons, ha]

theorem firstIndex_lt {log : List α} {k : κ} {i : Nat} (h : T.firstIndex log k = some i) :
    i < log.length := by
  rw [firstIndex, List.findIdx?_eq_some_iff_findIdx_eq] at h
  exact h.1

/-- The keys stand in the order of their creating records. -/
theorem firstSeen_pairwise (log : List α) :
    (T.firstSeen log).Pairwise fun j k =>
      ∀ i i', T.firstIndex log j = some i → T.firstIndex log k = some i' → i < i' := by
  induction log using List.reverseRecOn with
  | nil => exact List.Pairwise.nil
  | append_singleton log a ih =>
    have hold : (T.firstSeen log).Pairwise fun j k => ∀ i i',
        T.firstIndex (log ++ [a]) j = some i → T.firstIndex (log ++ [a]) k = some i' →
          i < i' := by
      refine ih.imp_of_mem fun {j k} hj hk hjk i i' hi hi' => ?_
      obtain ⟨n, hn⟩ := Option.isSome_iff_exists.mp (T.firstIndex_isSome_iff.mpr hj)
      obtain ⟨n', hn'⟩ := Option.isSome_iff_exists.mp (T.firstIndex_isSome_iff.mpr hk)
      rw [T.firstIndex_append_of_some hn] at hi
      rw [T.firstIndex_append_of_some hn'] at hi'
      cases hi
      cases hi'
      exact hjk _ _ hn hn'
    rw [firstSeen_append, seenStep]
    split
    · exact hold
    · rename_i k hkey
      split
      · rename_i hnew
        refine List.pairwise_append.mpr ⟨hold, List.pairwise_singleton _ _, ?_⟩
        intro j hj k' hk' i i' hi hi'
        rw [List.mem_singleton] at hk'
        subst hk'
        obtain ⟨n, hn⟩ := Option.isSome_iff_exists.mp (T.firstIndex_isSome_iff.mpr hj)
        have hlt := T.firstIndex_lt hn
        rw [T.firstIndex_append_of_some hn] at hi
        cases hi
        have hnone : T.firstIndex log k' = none := by
          rw [← Option.not_isSome_iff_eq_none, firstIndex_isSome_iff]
          exact hnew.2
        rw [firstIndex] at hnone hi'
        rw [List.findIdx?_append, hnone] at hi'
        simp only [Option.none_or, Option.map_eq_some_iff] at hi'
        obtain ⟨m, -, rfl⟩ := hi'
        omega
      · exact hold

/-- The first row that fits belongs to the earliest of all keys whose state fits. -/
theorem find?_scan_le {cap : Option Nat} {log : List α} {p : σ → Bool} {s : σ}
    (h : (T.scan cap log).find? p = some s) {k : κ} {s' : σ} (hk : T.stateOf log k = some s')
    (hp : p s') :
    ∃ i j, T.firstIndex log (T.idOf s) = some i ∧ T.firstIndex log k = some j ∧ i ≤ j := by
  have hmem := T.mem_scan_iff.mp (List.mem_of_find?_eq_some h)
  have hpre := admitted_initial cap (T.firstSeen log)
  have hseen : k ∈ T.firstSeen log := T.mem_firstSeen_iff.mpr (by simp [hk])
  obtain ⟨i, hi⟩ := Option.isSome_iff_exists.mp
    (T.firstIndex_isSome_iff.mpr (hpre.subset hmem.1))
  obtain ⟨j, hj⟩ := Option.isSome_iff_exists.mp (T.firstIndex_isSome_iff.mpr hseen)
  refine ⟨i, j, hi, hj, ?_⟩
  rw [scan_eq] at h
  obtain ⟨-, as, bs, hsplit, hno⟩ := List.find?_eq_some_iff_append.mp h
  obtain ⟨ks, ks', hks, has, hbs⟩ := List.filterMap_eq_append_iff.mp hsplit
  obtain ⟨ls, k', ls', hks', hnone, hs, -⟩ := List.filterMap_eq_cons_iff.mp hbs
  have hid := T.idOf_stateOf hs
  obtain ⟨rest, hrest⟩ := hpre
  have hall : T.firstSeen log = (ks ++ ls) ++ T.idOf s :: (ls' ++ rest) := by
    rw [← hrest, hks, hks', hid]
    simp
  have hbefore : k ∉ ks ++ ls := by
    intro hin
    rcases List.mem_append.mp hin with hin | hin
    · have hmem : s' ∈ as := by
        rw [← has]
        exact List.mem_filterMap.mpr ⟨k, hin, hk⟩
      simpa [hp] using hno s' hmem
    · rw [hnone k hin] at hk
      cases hk
  rw [hall] at hseen
  rcases List.mem_cons.mp ((List.mem_append.mp hseen).resolve_left hbefore) with rfl | hafter
  · rw [hi] at hj
    cases hj
    exact Nat.le_refl i
  · have hpair := T.firstSeen_pairwise log
    rw [hall] at hpair
    have := (List.pairwise_cons.mp (List.pairwise_append.mp hpair).2.1).1 k hafter i j hi hj
    omega

/-! ## The history of a key -/

/-- The latest creating record of a key and the records of the key since. -/
def historyStep (k : κ) (h : Option (α × List α)) (a : α) : Option (α × List α) :=
  if T.key a = some k then
    if T.creates a then some (a, []) else h.map fun p => (p.1, p.2 ++ [a])
  else h

def history (log : List α) (k : κ) : Option (α × List α) := log.foldl (T.historyStep k) none

theorem history_append (log : List α) (a : α) (k : κ) :
    T.history (log ++ [a]) k = T.historyStep k (T.history log k) a := by simp [history]

/-- **A part of the state that every creating record sets anew depends on the history alone.** -/
theorem stateOf_view {β : Type} (view : σ → β) (init : α → β) (next : α → β → β)
    (hcreate : ∀ a k, T.creates a → view (T.create a k) = init a)
    (hreset : ∀ a s, T.creates a → view (T.update a s) = init a)
    (hnext : ∀ a s, ¬ T.creates a → view (T.update a s) = next a (view s))
    (log : List α) (k : κ) :
    (T.stateOf log k).map view =
      (T.history log k).map fun p => p.2.foldl (fun b a => next a b) (init p.1) := by
  induction log using List.reverseRecOn with
  | nil => rfl
  | append_singleton log a ih =>
    rw [stateOf_append, history_append, historyStep]
    by_cases hk : T.key a = some k
    · rw [if_pos hk]
      by_cases hc : T.creates a
      · rw [if_pos hc]
        cases T.stateOf log k with
        | none => simp [T.stateStep_none hk, hc, hcreate a k hc]
        | some s => simp [T.stateStep_some hk, hreset a s hc]
      · rw [if_neg hc]
        cases hs : T.stateOf log k with
        | none =>
          rw [hs] at ih
          rw [T.stateStep_none hk, if_neg hc]
          cases hh : T.history log k with
          | none => rfl
          | some p => simp [hh] at ih
        | some s =>
          rw [hs] at ih
          rw [T.stateStep_some hk]
          cases hh : T.history log k with
          | none => simp [hh] at ih
          | some p =>
            rw [hh] at ih
            have hv := Option.some.inj ih
            simp [hnext a s hc, hv]
    · rw [if_neg hk, T.stateStep_of_ne hk, ih]

theorem history_isSome_iff {log : List α} {k : κ} :
    (T.history log k).isSome ↔ (T.stateOf log k).isSome := by
  have := T.stateOf_view (fun _ => ()) (fun _ => ()) (fun _ _ => ()) (fun _ _ _ => rfl)
    (fun _ _ _ => rfl) (fun _ _ _ => rfl) log k
  rw [← Option.isSome_map (f := fun _ : σ => ()), this, Option.isSome_map]

theorem history_creates {log : List α} {k : κ} {a : α} {as : List α}
    (h : T.history log k = some (a, as)) : a ∈ log ∧ T.creates a ∧ T.key a = some k := by
  induction log using List.reverseRecOn generalizing as with
  | nil => cases h
  | append_singleton log b ih =>
    rw [history_append, historyStep] at h
    split at h
    · split at h
      · rename_i hk hc
        cases h
        exact ⟨by simp, hc, hk⟩
      · obtain ⟨p, hp, heq⟩ := Option.map_eq_some_iff.mp h
        cases heq
        obtain ⟨hmem, hrest⟩ := ih hp
        exact ⟨by simp [hmem], hrest⟩
    · obtain ⟨hmem, hrest⟩ := ih h
      exact ⟨by simp [hmem], hrest⟩

/-- Two tables that take the same records for a key's have the same history of it. -/
theorem history_map {α' σ' : Type} {T : Table α κ σ} {T' : Table α' κ σ'} {f : α → α'} {k : κ}
    (hkey : ∀ a, T'.key (f a) = some k ↔ T.key a = some k)
    (hcreates : ∀ a, T.key a = some k → T'.creates (f a) = T.creates a) (log : List α) :
    T'.history (log.map f) k = (T.history log k).map fun p => (f p.1, p.2.map f) := by
  induction log using List.reverseRecOn with
  | nil => rfl
  | append_singleton log a ih =>
    rw [List.map_append, List.map_singleton, history_append, history_append, ih, historyStep,
      historyStep]
    by_cases hk : T.key a = some k
    · rw [if_pos ((hkey a).mpr hk), if_pos hk, hcreates a hk]
      split
      · rfl
      · cases T.history log k <;> simp
    · rw [if_neg fun h => hk ((hkey a).mp h), if_neg hk]

/-! ## The life of a key -/

/-- The first creating record of a key and the records of the key since. -/
def lifeStep (k : κ) (h : Option (α × List α)) (a : α) : Option (α × List α) :=
  if T.key a = some k then
    match h with
    | some p => some (p.1, p.2 ++ [a])
    | none => if T.creates a then some (a, []) else none
  else h

def life (log : List α) (k : κ) : Option (α × List α) := log.foldl (T.lifeStep k) none

theorem life_append (log : List α) (a : α) (k : κ) :
    T.life (log ++ [a]) k = T.lifeStep k (T.life log k) a := by simp [life]

theorem stateOf_eq_life (log : List α) (k : κ) :
    T.stateOf log k =
      (T.life log k).map fun p => p.2.foldl (fun s a => T.update a s) (T.create p.1 k) := by
  induction log using List.reverseRecOn with
  | nil => rfl
  | append_singleton log a ih =>
    rw [stateOf_append, life_append, ih]
    unfold lifeStep
    by_cases hk : T.key a = some k
    · rw [if_pos hk]
      cases T.life log k with
      | none =>
        rw [Option.map_none, T.stateStep_none hk]
        split <;> rfl
      | some p => simp [T.stateStep_some hk]
    · rw [if_neg hk, T.stateStep_of_ne hk]

/-- **A part of the state that records set or leave alone is what the last record that set it since
the key's first gave it.** -/
theorem stateOf_kept {β : Type} (view : σ → β) (change : α → Option β)
    (h : ∀ a s, view (T.update a s) = (change a).getD (view s)) (log : List α) (k : κ) :
    (T.stateOf log k).map view =
      (T.life log k).map fun p => (lastOf change p.2).getD (view (T.create p.1 k)) := by
  rw [stateOf_eq_life, Option.map_map]
  refine congrArg (Option.map · _) (funext fun p => ?_)
  rw [← foldl_getD]
  exact (List.foldl_hom view fun s a => (h a s).symm).symm

theorem life_suffix {log : List α} {k : κ} {a : α} {as : List α}
    (h : T.life log k = some (a, as)) : as <:+ log.filter fun b => T.key b = some k := by
  induction log using List.reverseRecOn generalizing as with
  | nil => cases h
  | append_singleton log b ih =>
    rw [life_append] at h
    unfold lifeStep at h
    rw [List.filter_append]
    by_cases hk : T.key b = some k
    · rw [if_pos hk] at h
      simp only [hk, decide_true, List.filter_cons_of_pos, List.filter_nil]
      cases hl : T.life log k with
      | none =>
        rw [hl] at h
        dsimp only at h
        split at h
        · cases h
          exact List.nil_suffix
        · cases h
      | some p =>
        rw [hl] at h
        cases h
        obtain ⟨before, hbefore⟩ := ih hl
        exact ⟨before, by rw [← hbefore, List.append_assoc]⟩
    · rw [if_neg hk] at h
      simpa [hk] using ih h

/-- A part that every creating record sets is what the last record of the key that set it gave
it. -/
theorem lastOf_of_stateOf {β : Type} (view : σ → β) (change : α → Option β)
    (hcreate : ∀ a k, T.creates a → change a = some (view (T.create a k)))
    (hupdate : ∀ a s, view (T.update a s) = (change a).getD (view s)) {log : List α} {k : κ} {s : σ}
    (h : T.stateOf log k = some s) :
    lastOf change (log.filter fun a => T.key a = some k) = some (view s) := by
  induction log using List.reverseRecOn generalizing s with
  | nil => cases h
  | append_singleton log a ih =>
    rw [stateOf_append] at h
    rw [List.filter_append]
    by_cases hk : T.key a = some k
    · simp only [hk, decide_true, List.filter_cons_of_pos, List.filter_nil]
      rw [lastOf_append, lastOf_cons_of_none (by simp)]
      cases ho : T.stateOf log k with
      | none =>
        rw [ho, T.stateStep_none hk] at h
        split at h
        · rename_i hc
          cases h
          rw [hcreate a k hc, Option.some_or]
        · cases h
      | some old =>
        rw [ho, T.stateStep_some hk] at h
        cases h
        rw [hupdate, ih ho]
        cases change a <;> rfl
    · rw [T.stateStep_of_ne hk] at h
      simpa [hk] using ih h

/-- Records that make the same of a part of equal parts keep it equal. -/
theorem stateStep_map_congr {β : Type} {view : σ → β} {k : κ} {a : α}
    (h : ∀ s s', view s = view s' → view (T.update a s) = view (T.update a s'))
    {o o' : Option σ} (ho : o.map view = o'.map view) :
    (T.stateStep k o a).map view = (T.stateStep k o' a).map view := by
  by_cases hk : T.key a = some k
  · cases o with
    | none =>
      cases o' with
      | none => rfl
      | some s' => cases ho
    | some s =>
      cases o' with
      | none => cases ho
      | some s' =>
        rw [T.stateStep_some hk, T.stateStep_some hk]
        exact congrArg some (h s s' (Option.some.inj ho))
  · rw [T.stateStep_of_ne hk, T.stateStep_of_ne hk, ho]

/-! ### Records of other keys -/

section later

variable {log later : List α} {k : κ} (h : ∀ a ∈ later, T.key a ≠ some k)

include h

theorem stateOf_append_of_ne : T.stateOf (log ++ later) k = T.stateOf log k := by
  induction later using List.reverseRecOn with
  | nil => rw [List.append_nil]
  | append_singleton later a ih =>
    rw [← List.append_assoc, T.stateOf_append, T.stateStep_of_ne (h a (by simp))]
    exact ih fun b hb => h b (by simp [hb])

theorem firstSeen_append_of_ne : ∃ more, T.firstSeen (log ++ later) = T.firstSeen log ++ more ∧
    k ∉ more := by
  induction later using List.reverseRecOn with
  | nil => exact ⟨[], by simp, by simp⟩
  | append_singleton later a ih =>
    obtain ⟨more, hmore, hnew⟩ := ih fun b hb => h b (by simp [hb])
    have ha := h a (by simp)
    rw [← List.append_assoc, T.firstSeen_append, hmore, Table.seenStep]
    cases hkey : T.key a with
    | none => exact ⟨more, rfl, hnew⟩
    | some j =>
      dsimp only
      split
      · have hne : k ≠ j := fun heq => ha (heq ▸ hkey)
        exact ⟨more ++ [j], by rw [List.append_assoc], by simp [hnew, hne]⟩
      · exact ⟨more, rfl, hnew⟩

theorem mem_admitted_append_of_ne (cap : Option Nat) :
    k ∈ admitted cap (T.firstSeen (log ++ later)) ↔ k ∈ admitted cap (T.firstSeen log) := by
  obtain ⟨more, hmore, hnew⟩ := firstSeen_append_of_ne T h
  rw [hmore]
  cases cap with
  | none => simp [admitted, hnew]
  | some c =>
    have htake : k ∉ more.take (c - (T.firstSeen log).length) :=
      fun hmem => hnew (List.mem_of_mem_take hmem)
    simp [admitted, List.take_append, htake]

end later

/-! ## The records behind the first -/

/-- The log from the record that creates the key's row. -/
def fromFirst (log : List α) (k : κ) : List α :=
  log.dropWhile fun a => !(decide (T.key a = some k) && T.creates a)

/-- The records behind it. -/
def later (log : List α) (k : κ) : List α := (T.fromFirst log k).tail

theorem fromFirst_append (log : List α) (a : α) (k : κ) : T.fromFirst (log ++ [a]) k =
    if T.fromFirst log k = [] then
      if T.key a = some k ∧ T.creates a then [a] else []
    else T.fromFirst log k ++ [a] := by
  rw [fromFirst, List.dropWhile_append, ← fromFirst]
  by_cases hnil : T.fromFirst log k = []
  · rw [if_pos hnil, hnil, List.isEmpty_nil, if_pos rfl]
    by_cases hkey : T.key a = some k
    · by_cases hc : T.creates a
      · simp [hkey, hc]
      · simp [hc]
    · simp [hkey]
  · rw [if_neg hnil, if_neg (by simpa using hnil)]

theorem fromFirst_eq_nil_iff {log : List α} {k : κ} :
    T.fromFirst log k = [] ↔ T.stateOf log k = none := by
  induction log using List.reverseRecOn with
  | nil => exact iff_of_true rfl rfl
  | append_singleton log a ih =>
    rw [fromFirst_append, stateOf_append]
    cases hs : T.stateOf log k with
    | none =>
      rw [if_pos (ih.mpr hs)]
      by_cases hkey : T.key a = some k
      · rw [T.stateStep_none hkey]
        by_cases hc : T.creates a
        · simp [hkey, hc]
        · simp [hc]
      · rw [T.stateStep_of_ne hkey]
        simp [hkey]
    | some s =>
      rw [if_neg fun hnil => by rw [ih.mp hnil] at hs; cases hs]
      refine iff_of_false (by simp) ?_
      by_cases hkey : T.key a = some k
      · rw [T.stateStep_some hkey]
        simp
      · rw [T.stateStep_of_ne hkey]
        simp

theorem later_append {log : List α} {k : κ} {s : σ} (h : T.stateOf log k = some s) (a : α) :
    T.later (log ++ [a]) k = T.later log k ++ [a] := by
  have hne : T.fromFirst log k ≠ [] := fun hnil => by
    rw [T.fromFirst_eq_nil_iff.mp hnil] at h
    cases h
  rw [later, fromFirst_append, if_neg hne, List.tail_append_of_ne_nil hne, ← later]

/-- **A part of the state that every creation starts with the same value, and no other record
resets, is the last of the values it was given since the row was created.** -/
theorem stateOf_latched {β : Type} {view : σ → β} {value : α → Option β} {start : β} {k : κ}
    (hcreate : ∀ a, view (T.create a k) = start)
    (hupdate : ∀ a s, T.key a = some k → view (T.update a s) = (value a).getD (view s))
    (hother : ∀ a, T.key a ≠ some k → value a = none) {log : List α} {s : σ}
    (h : T.stateOf log k = some s) : view s = (lastOf value (T.later log k)).getD start := by
  induction log using List.reverseRecOn generalizing s with
  | nil => cases h
  | append_singleton log a ih =>
    cases hs : T.stateOf log k with
    | none =>
      have hlater : T.later (log ++ [a]) k = [] := by
        rw [later, fromFirst_append, if_pos (T.fromFirst_eq_nil_iff.mpr hs)]
        split <;> rfl
      rw [hlater]
      rw [stateOf_append, hs] at h
      by_cases hkey : T.key a = some k
      · rw [T.stateStep_none hkey] at h
        split at h
        · cases h
          exact hcreate a
        · cases h
      · rw [T.stateStep_of_ne hkey] at h
        cases h
    | some old =>
      rw [T.later_append hs, lastOf_append, lastOf_cons_of_none (by simp)]
      rw [stateOf_append, hs] at h
      by_cases hkey : T.key a = some k
      · rw [T.stateStep_some hkey] at h
        cases h
        rw [hupdate a old hkey, ih hs]
        cases value a <;> rfl
      · rw [T.stateStep_of_ne hkey] at h
        cases h
        rw [ih hs, hother a hkey, Option.none_or]

end Table

/-! ## Upserts -/

section upserts

variable {α β κ : Type} [DecidableEq κ] {key : α → Option κ} {value : α → β} {log : List α} {k : κ}

/-- A table whose rows are overwritten by every record of their key. -/
def upserts (key : α → Option κ) (value : α → β) : Table α κ (κ × β) where
  key := key
  creates _ := true
  idOf := Prod.fst
  create a k := (k, value a)
  update a s := (s.1, value a)
  idOf_create _ _ := rfl
  idOf_update _ _ := rfl

/-- What the record says of the key. -/
def valueFor (key : α → Option κ) (value : α → β) (k : κ) (a : α) : Option β :=
  if key a = some k then some (value a) else none

/-- A row has the last value of its key. -/
theorem stateOf_upserts (log : List α) (k : κ) :
    (upserts key value).stateOf log k = (lastOf (valueFor key value k) log).map (k, ·) := by
  induction log using List.reverseRecOn with
  | nil => rfl
  | append_singleton log a ih =>
    rw [Table.stateOf_append, ih, lastOf_append, lastOf_cons_of_none (by simp), valueFor]
    by_cases hkey : key a = some k
    · rw [if_pos hkey, Option.some_or]
      cases lastOf (valueFor key value k) log <;> simp [Table.stateStep, upserts, hkey]
    · rw [if_neg hkey, Option.none_or]
      exact Table.stateStep_of_ne (T := upserts key value) hkey _

theorem mem_scan_upserts {s : κ × β} : s ∈ (upserts key value).scan none log ↔
    lastOf (valueFor key value s.1) log = some s.2 := by
  obtain ⟨k, v⟩ := s
  have hstate : (upserts key value).stateOf log k = some (k, v) ↔
      lastOf (valueFor key value k) log = some v := by
    rw [stateOf_upserts]
    simp
  rw [Table.mem_scan_iff, ← hstate]
  exact ⟨fun h => h.2, fun h =>
    ⟨(upserts key value).mem_firstSeen_iff.mpr (Option.isSome_of_eq_some h), h⟩⟩

/-- A lookup by the primary key. -/
theorem find?_scan_upserts (log : List α) (k : κ) :
    ((upserts key value).scan none log).find? (fun s => s.1 = k) =
      (lastOf (valueFor key value k) log).map (k, ·) := by
  cases hfind : ((upserts key value).scan none log).find? fun s => s.1 = k with
  | some s =>
    obtain ⟨k', v⟩ := s
    obtain rfl : k' = k := by simpa using List.find?_some hfind
    rw [mem_scan_upserts.mp (List.mem_of_find?_eq_some hfind), Option.map_some]
  | none =>
    cases hlast : lastOf (valueFor key value k) log with
    | none => rfl
    | some v =>
      have hmem : (k, v) ∈ (upserts key value).scan none log := mem_scan_upserts.mpr hlast
      exact absurd (decide_eq_true rfl) (List.find?_eq_none.mp hfind (k, v) hmem)

/-- No key has two rows. -/
theorem Table.idOf_scan_nodup {σ : Type} (T : Table α κ σ) (cap : Option Nat) (log : List α) :
    ((T.scan cap log).map T.idOf).Nodup := by
  have hkeys : ∀ ks : List κ, (ks.filterMap (T.stateOf log)).map T.idOf =
      ks.filter fun k => (T.stateOf log k).isSome := by
    intro ks
    induction ks with
    | nil => rfl
    | cons k ks ih =>
      cases hstate : T.stateOf log k with
      | none => simp [hstate, ih]
      | some s => simp [hstate, ih, T.idOf_stateOf hstate]
  rw [T.scan_eq, hkeys]
  exact ((T.firstSeen_nodup log).sublist (admitted_initial cap _).sublist).filter _

end upserts

end FirstSeen

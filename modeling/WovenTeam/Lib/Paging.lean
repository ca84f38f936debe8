import WovenTeam.Lib.CText

/-!
# Paging by time

A list of dated records is handed out in pages of at most `limit`. A page says whether more is to
come, and then the next one takes the records from the time after the latest of this page on. The
order of the list need not be that of the times: `InOrder` says for which lists every record comes
in exactly one page (`InOrder.exists_run`, `Run.inOrder`).
-/

namespace Paging

open CText

variable {α : Type}

/-- The latest time of a page, 0 at least. -/
def latest (time : α → Int) (page : List α) : Int := page.foldl (fun m a => max m (time a)) 0

/-- The records from a time on; 0 and less stand for all of them. -/
def since (time : α → Int) (records : List α) (s : Int) : List α :=
  if 0 < s then records.filter fun a => s ≤ time a else records

/-- A list to be handed out, and when a page says that more is to come: certainly where a record is
left, and with a full page also where there is something behind the last record. -/
structure Pager (α : Type) where
  time : α → Int
  records : List α
  limit : Nat
  more : Int → Bool
  pending : Prop
  limit_pos : 0 < limit
  time_lt : ∀ a ∈ records, time a < 2 ^ 63
  more_of_lt : ∀ s, limit < (since time records s).length → more s = true
  le_of_more : ∀ s, more s = true → limit ≤ (since time records s).length
  more_at : ∀ s, since time records s <:+ records → (since time records s).length = limit →
    (more s = true ↔ pending)
  more_of_nonpos : ∀ s ≤ 0, more s = more 0

section latest

variable (time : α → Int)

theorem latest_append (page page' : List α) :
    latest time (page ++ page') = page'.foldl (fun m a => max m (time a)) (latest time page) := by
  rw [latest, List.foldl_append, ← latest]

theorem latest_nonneg (page : List α) : 0 ≤ latest time page := by
  induction page using List.reverseRecOn with
  | nil => exact Int.le_refl 0
  | append_singleton page a ih =>
    rw [latest_append]
    exact le_max_of_le_left ih

theorem le_latest {page : List α} {a : α} (h : a ∈ page) : time a ≤ latest time page := by
  induction page using List.reverseRecOn with
  | nil => cases h
  | append_singleton page b ih =>
    rw [latest_append]
    rcases List.mem_append.mp h with h | h
    · exact le_max_of_le_left (ih h)
    · rw [List.mem_singleton.mp h]
      exact le_max_right _ _

theorem latest_lt {page : List α} {bound : Int} (hbound : 0 < bound)
    (h : ∀ a ∈ page, time a < bound) : latest time page < bound := by
  induction page using List.reverseRecOn with
  | nil => exact hbound
  | append_singleton page b ih =>
    rw [latest_append]
    exact max_lt (ih fun a ha => h a (List.mem_append_left _ ha)) (h b (by simp))

end latest

namespace Pager

variable (p : Pager α)

def onward (s : Int) : List α := since p.time p.records s

def page (s : Int) : List α := (p.onward s).take p.limit

/-- Where the next page begins, in 64 bits. -/
def cursor (s : Int) : Int := wrap64 (latest p.time (p.page s) + 1)

/-- The pages from a time on, up to the one that says there is no more. -/
inductive Run : Int → List (List α) → Prop where
  | last {s : Int} (h : p.more s = false) : Run s [p.page s]
  | next {s : Int} {pages : List (List α)} (h : p.more s = true) (hrest : Run (p.cursor s) pages) :
    Run s (p.page s :: pages)

/-- At each cut between two pages, what is behind it is newer than what is in front. -/
def Ordered (l : List α) : Prop :=
  ∀ k, k * p.limit < l.length →
    ∀ a ∈ l.take (k * p.limit), ∀ b ∈ l.drop (k * p.limit), max 0 (p.time a) < p.time b

/-- Where a full page with nothing behind it says that more is to come, the next one begins at a
time that 64 bits hold. -/
structure InOrder : Prop where
  ordered : p.Ordered p.records
  last : p.limit ∣ p.records.length → p.pending → ∀ a ∈ p.records, p.time a < 2 ^ 63 - 1

variable {p}

theorem full_of_more {s : Int} (h : p.more s = true) : p.limit ≤ (p.onward s).length :=
  p.le_of_more s h

theorem short_of_not_more {s : Int} (h : p.more s = false) : (p.onward s).length ≤ p.limit := by
  by_contra hgt
  rw [p.more_of_lt s (Nat.lt_of_not_le hgt)] at h
  cases h

theorem more_iff_pending {s : Int} (hsuffix : p.onward s <:+ p.records)
    (hexact : (p.onward s).length = p.limit) : p.more s = true ↔ p.pending :=
  p.more_at s hsuffix hexact

theorem Run.unique {s : Int} {pages pages' : List (List α)} (h : p.Run s pages)
    (h' : p.Run s pages') : pages = pages' := by
  induction h generalizing pages' with
  | last hmore =>
    cases h' with
    | last _ => rfl
    | next hmore' _ =>
      rw [hmore] at hmore'
      cases hmore'
  | next hmore _ ih =>
    cases h' with
    | last hmore' =>
      rw [hmore] at hmore'
      cases hmore'
    | next _ hrest' => rw [ih hrest']

theorem onward_of_nonpos {s : Int} (hs : s ≤ 0) : p.onward s = p.records := by
  rw [onward, since, if_neg (by omega)]

theorem Run.sublist {s : Int} {pages : List (List α)} (h : p.Run s pages) :
    ∀ l ∈ pages, l.Sublist p.records := by
  have hpage : ∀ s, (p.page s).Sublist p.records := by
    intro s
    refine (List.take_sublist _ _).trans ?_
    unfold onward since
    split
    · exact List.filter_sublist
    · exact .refl _
  induction h with
  | last _ =>
    rw [List.forall_mem_singleton]
    exact hpage _
  | next _ _ ih =>
    rw [List.forall_mem_cons]
    exact ⟨hpage _, ih⟩

/-- A run from 0 or less is the run from the start. -/
theorem Run.restart {s : Int} {pages : List (List α)} (h : p.Run s pages) (hs : s ≤ 0) :
    p.Run 0 pages := by
  have hpage : p.page s = p.page 0 := by
    rw [page, page, onward_of_nonpos hs, onward_of_nonpos (Int.le_refl 0)]
  have hmore := p.more_of_nonpos s hs
  cases h with
  | last h =>
    rw [hpage]
    exact .last (hmore ▸ h)
  | next h hrest =>
    rw [hpage]
    refine .next (hmore ▸ h) ?_
    rw [cursor, hpage] at hrest
    exact hrest

/-- A proper part of a run does not begin again. -/
theorem Run.pos_of_length_lt {whole pages : List (List α)} {s : Int} (hwhole : p.Run 0 whole)
    (h : p.Run s pages) (hlt : pages.length < whole.length) : 0 < s := by
  by_contra hs
  rw [(h.restart (by omega)).unique hwhole] at hlt
  omega

theorem ordered_iff {l : List α} : p.Ordered l ↔
    (∀ a ∈ l.take p.limit, ∀ b ∈ l.drop p.limit, max 0 (p.time a) < p.time b) ∧
      p.Ordered (l.drop p.limit) := by
  have hpos := p.limit_pos
  constructor
  · intro h
    refine ⟨fun a ha b hb => ?_, fun k hk a ha b hb => ?_⟩
    · have hlt : p.limit < l.length := by
        have := List.length_pos_of_mem hb
        rw [List.length_drop] at this
        omega
      refine h 1 (by omega) a ?_ b ?_
      · rwa [Nat.one_mul]
      · rwa [Nat.one_mul]
    · rw [List.length_drop] at hk
      have hsucc : (k + 1) * p.limit = p.limit + k * p.limit := by rw [Nat.succ_mul, Nat.add_comm]
      refine h (k + 1) (by omega) a ?_ b ?_
      · rw [hsucc, List.take_add]
        exact List.mem_append_right _ ha
      · rwa [hsucc, ← List.drop_drop]
  · rintro ⟨hfirst, hrest⟩ k hk a ha b hb
    cases k with
    | zero => simp at ha
    | succ k =>
      have hsucc : (k + 1) * p.limit = p.limit + k * p.limit := by rw [Nat.succ_mul, Nat.add_comm]
      rw [hsucc, List.take_add] at ha
      rw [hsucc, ← List.drop_drop] at hb
      rcases List.mem_append.mp ha with ha | ha
      · exact hfirst a ha b (List.mem_of_mem_drop hb)
      · exact hrest k (by rw [List.length_drop]; omega) a ha b hb

theorem latest_page_lt (s : Int) : latest p.time (p.page s) < 2 ^ 63 := by
  refine latest_lt p.time (by norm_num) fun a ha => p.time_lt a ?_
  have hmem := List.mem_of_mem_take ha
  unfold onward since at hmem
  split at hmem
  · exact List.mem_of_mem_filter hmem
  · exact hmem

/-- The next page takes of what this one has left the records that are newer than all of it. -/
theorem onward_cursor {s : Int} (hmore : p.more s = true)
    (hlt : latest p.time (p.page s) < 2 ^ 63 - 1) :
    p.onward (p.cursor s) =
      ((p.onward s).drop p.limit).filter fun b => latest p.time (p.page s) < p.time b := by
  have hnonneg := latest_nonneg p.time (p.page s)
  have hcursor : p.cursor s = latest p.time (p.page s) + 1 :=
    wrap64_of_range (by omega)
  have hfull := full_of_more hmore
  have hpos := p.limit_pos
  have hle : 0 < s → s ≤ latest p.time (p.page s) := by
    intro hs
    obtain ⟨a, ha⟩ : ∃ a, a ∈ p.page s := by
      refine List.exists_mem_of_length_pos ?_
      rw [page, List.length_take]
      omega
    have hmem : a ∈ p.records.filter fun a => s ≤ p.time a := by
      have := List.mem_of_mem_take ha
      rwa [onward, since, if_pos hs] at this
    have htime : s ≤ p.time a := by simpa using (List.mem_filter.mp hmem).2
    exact htime.trans (le_latest p.time ha)
  have hfilter : p.onward (p.cursor s) =
      (p.onward s).filter fun b => latest p.time (p.page s) < p.time b := by
    rw [onward, since, if_pos (by omega), hcursor]
    by_cases hs : 0 < s
    · rw [onward, since, if_pos hs, List.filter_filter]
      refine List.filter_congr fun a _ => ?_
      have := hle hs
      rw [← Bool.decide_and]
      exact decide_eq_decide.mpr (by omega)
    · rw [onward, since, if_neg hs]
      exact List.filter_congr fun a _ => decide_eq_decide.mpr (by omega)
  have hpage : (p.page s).filter (fun b => latest p.time (p.page s) < p.time b) = [] := by
    rw [List.filter_eq_nil_iff]
    intro a ha
    have := le_latest p.time ha
    simpa using this
  rw [hfilter]
  conv_lhs => rw [← List.take_append_drop p.limit (p.onward s)]
  rw [List.filter_append, ← page, hpage, List.nil_append]

theorem latest_lt_of_cursor {s : Int} (h : 0 < p.cursor s) :
    latest p.time (p.page s) < 2 ^ 63 - 1 := by
  by_contra hge
  have hlt := latest_page_lt (p := p) s
  have heq : latest p.time (p.page s) + 1 = 2 ^ 63 := by omega
  rw [cursor, heq] at h
  exact absurd h (by decide)

/-! ## Enough -/

theorem exists_run (hlast : p.limit ∣ p.records.length → p.pending →
      ∀ a ∈ p.records, p.time a < 2 ^ 63 - 1) {s : Int} (hsuffix : p.onward s <:+ p.records)
    (hordered : p.Ordered (p.onward s)) (hdvd : p.limit ∣ p.records.length - (p.onward s).length) :
    ∃ pages, p.Run s pages ∧ pages.flatten = p.onward s := by
  have hpos := p.limit_pos
  generalize hn : (p.onward s).length = n
  induction n using Nat.strong_induction_on generalizing s with
  | _ n ih =>
    cases hmore : p.more s with
    | false =>
      refine ⟨_, .last hmore, ?_⟩
      rw [List.flatten_singleton, page, List.take_of_length_le (short_of_not_more hmore)]
    | true =>
      have hfull := full_of_more hmore
      obtain ⟨hcut, hrest⟩ := ordered_iff.mp hordered
      have hnewer : ∀ b ∈ (p.onward s).drop p.limit, latest p.time (p.page s) < p.time b := by
        intro b hb
        obtain ⟨a, ha⟩ : ∃ a, a ∈ p.page s := by
          refine List.exists_mem_of_length_pos ?_
          rw [page, List.length_take]
          omega
        have hb0 : 0 < p.time b := (le_max_left _ _).trans_lt (hcut a ha b hb)
        exact latest_lt p.time hb0 fun a ha => (le_max_right _ _).trans_lt (hcut a ha b hb)
      have hlt : latest p.time (p.page s) < 2 ^ 63 - 1 := by
        by_cases hexact : (p.onward s).length = p.limit
        · have hall : p.limit ∣ p.records.length := by
            have hle := hsuffix.length_le
            rw [hexact] at hdvd hle
            have hsub : p.records.length - p.limit + p.limit = p.records.length := by omega
            rw [← hsub]
            exact Nat.dvd_add hdvd (Nat.dvd_refl _)
          have hpending := (more_iff_pending hsuffix hexact).mp hmore
          refine latest_lt p.time (by norm_num) fun a ha => hlast hall hpending a ?_
          exact hsuffix.subset (List.mem_of_mem_take ha)
        · obtain ⟨b, hb⟩ : ∃ b, b ∈ (p.onward s).drop p.limit := by
            refine List.exists_mem_of_length_pos ?_
            rw [List.length_drop]
            omega
          have htime := p.time_lt b (hsuffix.subset (List.mem_of_mem_drop hb))
          have := hnewer b hb
          omega
      have honward : p.onward (p.cursor s) = (p.onward s).drop p.limit := by
        rw [onward_cursor hmore hlt, List.filter_eq_self]
        exact fun b hb => decide_eq_true (hnewer b hb)
      have hlength : (p.onward (p.cursor s)).length = n - p.limit := by
        rw [honward, List.length_drop, hn]
      have hle := hsuffix.length_le
      have hdvd' : p.limit ∣ p.records.length - (p.onward (p.cursor s)).length := by
        have hsub : p.records.length - (n - p.limit) = (p.records.length - n) + p.limit := by omega
        rw [hlength, hsub, ← hn]
        exact Nat.dvd_add hdvd (Nat.dvd_refl _)
      obtain ⟨pages, hrun, hflatten⟩ := ih (n - p.limit) (by omega)
        (by rw [honward]; exact (List.drop_suffix _ _).trans hsuffix) (by rw [honward]; exact hrest)
        hdvd' hlength
      refine ⟨_, .next hmore hrun, ?_⟩
      rw [List.flatten_cons, hflatten, honward, page, List.take_append_drop]

/-! ## Necessary -/

theorem Run.length_flatten_le {whole : List (List α)} (hwhole : p.Run 0 whole) {s : Int}
    {pages : List (List α)} (h : p.Run s pages) (hle : pages.length ≤ whole.length) :
    pages.flatten.length ≤ (p.onward s).length := by
  induction h with
  | last _ =>
    rw [List.flatten_singleton, page]
    exact (List.take_sublist _ _).length_le
  | @next s pages hmore hrest ih =>
    rw [List.length_cons] at hle
    have hlt := latest_lt_of_cursor (hwhole.pos_of_length_lt hrest (by omega))
    have hrestLength := ih (by omega)
    rw [onward_cursor hmore hlt] at hrestLength
    have hfilter := hrestLength.trans (List.length_filter_le _ _)
    have hfull := full_of_more hmore
    rw [List.length_drop] at hfilter
    rw [List.flatten_cons, List.length_append, page, List.length_take]
    omega

theorem Run.ordered {whole : List (List α)} (hwhole : p.Run 0 whole) {s : Int}
    {pages : List (List α)} (h : p.Run s pages) (hle : pages.length ≤ whole.length)
    (hsuffix : p.onward s <:+ p.records) (hall : pages.flatten.length = (p.onward s).length) :
    p.Ordered (p.onward s) ∧ (p.limit ∣ (p.onward s).length → p.pending →
      ∀ a ∈ p.onward s, p.time a < 2 ^ 63 - 1) := by
  have hpos := p.limit_pos
  induction h with
  | @last s hmore =>
    have hshort := short_of_not_more hmore
    refine ⟨fun k hk a ha => ?_, fun hdvd hpending a ha => ?_⟩
    · cases k with
      | zero => simp at ha
      | succ k =>
        rw [Nat.succ_mul] at hk
        omega
    · have hexact : (p.onward s).length = p.limit := by
        have := Nat.le_of_dvd (List.length_pos_of_mem ha) hdvd
        omega
      rw [(more_iff_pending hsuffix hexact).mpr hpending] at hmore
      cases hmore
  | @next s pages hmore hrest ih =>
    rw [List.length_cons] at hle
    have hlt := latest_lt_of_cursor (hwhole.pos_of_length_lt hrest (by omega))
    have hrestLength := hwhole.length_flatten_le hrest (by omega)
    have honward := onward_cursor hmore hlt
    have hfull := full_of_more hmore
    have hfilter := List.length_filter_le (fun b => latest p.time (p.page s) < p.time b)
      ((p.onward s).drop p.limit)
    have hlength : (p.onward (p.cursor s)).length ≤ (p.onward s).length - p.limit := by
      rw [honward]
      rwa [List.length_drop] at hfilter
    rw [List.flatten_cons, List.length_append, page, List.length_take] at hall
    -- nothing is lost at this cut, so all that is left is newer
    have hkept : ((p.onward s).drop p.limit).filter
        (fun b => latest p.time (p.page s) < p.time b) = (p.onward s).drop p.limit := by
      refine List.filter_sublist.eq_of_length ?_
      rw [← honward, List.length_drop]
      omega
    have hnewer : ∀ b ∈ (p.onward s).drop p.limit, latest p.time (p.page s) < p.time b := by
      intro b hb
      simpa using List.filter_eq_self.mp hkept b hb
    rw [hkept] at honward
    have hih := ih (by omega) (by rw [honward]; exact (List.drop_suffix _ _).trans hsuffix)
      (by omega)
    rw [honward] at hih
    refine ⟨ordered_iff.mpr ⟨fun a ha b hb => ?_, hih.1⟩, fun hdvd hpending a ha => ?_⟩
    · refine lt_of_le_of_lt (max_le (latest_nonneg p.time (p.page s)) ?_) (hnewer b hb)
      exact le_latest p.time ha
    · have hdvd' : p.limit ∣ ((p.onward s).drop p.limit).length := by
        rw [List.length_drop]
        exact Nat.dvd_sub hdvd (Nat.dvd_refl _)
      rw [← List.take_append_drop p.limit (p.onward s)] at ha
      rcases List.mem_append.mp ha with ha | ha
      · have := le_latest p.time ha
        rw [← page] at this
        omega
      · exact hih.2 hdvd' hpending a ha

theorem onward_zero : p.onward 0 = p.records := onward_of_nonpos (Int.le_refl 0)

/-- **A list in order is handed out whole.** -/
theorem InOrder.exists_run (h : p.InOrder) : ∃ pages, p.Run 0 pages ∧ pages.flatten = p.records := by
  obtain ⟨pages, hrun, hflatten⟩ := Pager.exists_run h.last (s := 0) (by rw [onward_zero])
    (by rw [onward_zero]; exact h.ordered) (by simp [onward_zero])
  exact ⟨pages, hrun, by rw [hflatten, onward_zero]⟩

/-- **A list that is handed out whole is in order.** -/
theorem Run.inOrder {pages : List (List α)} (h : p.Run 0 pages)
    (hall : pages.flatten.length = p.records.length) : p.InOrder := by
  have hordered := h.ordered h (Nat.le_refl _) (by rw [onward_zero]) (by rw [onward_zero, hall])
  rw [onward_zero] at hordered
  exact ⟨hordered.1, hordered.2⟩

end Pager

end Paging

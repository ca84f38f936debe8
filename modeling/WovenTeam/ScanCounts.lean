import Mathlib.Algebra.Order.BigOperators.Group.List
import WovenTeam.SecretScan

/-!
# Counts of the secret scan

The scan counts a pattern by asking for a match again from the next byte on, until there is none.
What it counts are the positions in front of the end of the matches, not those where a match
begins: `scanCounts_iff` says when the two are the same.
-/

namespace WovenTeam

open CText

/-! ## Matches -/

/-- `regexec` answers whether a match begins anywhere in the string, and what is cut off in front of
a match does not take it away. -/
structure FindsMatches (regexec : Bytes → Bool) (begins : Bytes → Nat → Bool) : Prop where
  contains : ∀ text, regexec text = true ↔ ∃ p ≤ text.length, begins text p = true
  behind : ∀ text p j, begins text p = true → j ≤ p → begins (text.drop j) (p - j) = true

/-- How many positions of the text a match begins at. -/
def occurrences (begins : Bytes → Nat → Bool) (text : Bytes) : Nat :=
  (List.range text.length).countP (begins text)

/-- How many positions in front of the first from which no match is found. -/
def matchRun (regexec : Bytes → Bool) : Bytes → Nat
  | [] => 0
  | b :: t => if regexec (b :: t) then matchRun regexec t + 1 else 0

section pattern

variable {regexec : Bytes → Bool} {begins : Bytes → Nat → Bool} {text : Bytes}

theorem patternHits_eq (left : Nat) (text : Bytes) :
    patternHits regexec left text = min left (matchRun regexec text) := by
  induction text generalizing left with
  | nil => cases left <;> simp [patternHits, matchRun]
  | cons b t ih =>
    cases left with
    | zero => simp [patternHits]
    | succ left =>
      rw [patternHits, matchRun, ih]
      split <;> omega

theorem matchRun_le (text : Bytes) : matchRun regexec text ≤ text.length := by
  induction text with
  | nil => rfl
  | cons b t ih =>
    rw [matchRun, List.length_cons]
    split <;> omega

/-- A position is counted where a match is found from it and from all before it. -/
theorem lt_matchRun_iff {i : Nat} :
    i < matchRun regexec text ↔ i < text.length ∧ ∀ j ≤ i, regexec (text.drop j) = true := by
  induction text generalizing i with
  | nil => simp [matchRun]
  | cons b t ih =>
    rw [matchRun]
    split
    · rename_i hfirst
      cases i with
      | zero => simp [hfirst]
      | succ i =>
        rw [Nat.succ_lt_succ_iff, ih, List.length_cons, Nat.succ_lt_succ_iff]
        refine and_congr_right fun _ => ⟨fun h j hj => ?_, fun h j hj => ?_⟩
        · cases j with
          | zero => exact hfirst
          | succ j => exact h j (Nat.succ_le_succ_iff.mp hj)
        · exact h (j + 1) (Nat.succ_le_succ hj)
    · rename_i hfirst
      simp only [Nat.not_lt_zero, false_iff, not_and]
      exact fun _ h => hfirst (h 0 (Nat.zero_le i))

/-- Up to a position where a match begins, a match is found from everywhere. -/
theorem FindsMatches.lt_matchRun (h : FindsMatches regexec begins) {p : Nat}
    (hp : p < text.length) (hbegins : begins text p = true) : p < matchRun regexec text := by
  refine lt_matchRun_iff.mpr ⟨hp, fun j hj => (h.contains _).mpr ⟨p - j, ?_, ?_⟩⟩
  · rw [List.length_drop]
    omega
  · exact h.behind text p j hbegins hj

/-- All positions where a match begins are counted. -/
theorem FindsMatches.occurrences_eq (h : FindsMatches regexec begins) (text : Bytes) :
    occurrences begins text = (List.range (matchRun regexec text)).countP (begins text) := by
  have hle : matchRun regexec text ≤ text.length := matchRun_le text
  obtain ⟨k, hk⟩ := Nat.exists_eq_add_of_le hle
  rw [occurrences, hk, List.range_add, List.countP_append, Nat.add_eq_left, List.countP_eq_zero]
  intro p hp hbegins
  obtain ⟨i, hi, rfl⟩ := List.mem_map.mp hp
  have hlt := h.lt_matchRun (by have := List.mem_range.mp hi; omega) hbegins
  omega

theorem FindsMatches.occurrences_le (h : FindsMatches regexec begins) (text : Bytes) :
    occurrences begins text ≤ matchRun regexec text := by
  rw [h.occurrences_eq]
  exact List.countP_le_length.trans_eq List.length_range

/-- A match begins wherever one is found from there and from everywhere before, or matches begin at
a hundred positions. -/
def CountedRight (regexec : Bytes → Bool) (begins : Bytes → Nat → Bool) (text : Bytes) : Prop :=
  100 ≤ occurrences begins text ∨
    ∀ i < text.length, (∀ j ≤ i, regexec (text.drop j) = true) → begins text i = true

theorem FindsMatches.patternHits_eq_iff (h : FindsMatches regexec begins) (text : Bytes) :
    patternHits regexec 100 text = min 100 (occurrences begins text) ↔
      CountedRight regexec begins text := by
  have hle := h.occurrences_le text
  have hall : occurrences begins text = matchRun regexec text ↔
      ∀ i < text.length, (∀ j ≤ i, regexec (text.drop j) = true) → begins text i = true := by
    have hlength : (List.range (matchRun regexec text)).length = matchRun regexec text :=
      List.length_range
    rw [h.occurrences_eq text]
    nth_rewrite 2 [← hlength]
    rw [List.countP_eq_length]
    simp only [List.mem_range, lt_matchRun_iff, and_imp]
  rw [patternHits_eq, CountedRight, ← hall]
  omega

theorem FindsMatches.le_patternHits (h : FindsMatches regexec begins) (text : Bytes) :
    min 100 (occurrences begins text) ≤ patternHits regexec 100 text := by
  have hle := h.occurrences_le text
  rw [patternHits_eq]
  omega

end pattern

/-! ## The scan -/

section scan

variable {regcomp : Regcomp} {begins : WtPattern → Bytes → Nat → Bool}

/-- Sums of counts that are at most as large are equal where all counts are. -/
theorem sum_eq_iff_of_le {α : Type} {f g : α → Nat} {xs : List α} (hle : ∀ x ∈ xs, f x ≤ g x) :
    (xs.map g).sum = (xs.map f).sum ↔ ∀ x ∈ xs, g x = f x := by
  induction xs with
  | nil => simp
  | cons x xs ih =>
    have hrest := fun y hy => hle y (List.mem_cons_of_mem x hy)
    have hsum : (xs.map f).sum ≤ (xs.map g).sum := List.sum_le_sum hrest
    have hx := hle x List.mem_cons_self
    rw [List.map_cons, List.map_cons, List.sum_cons, List.sum_cons, List.forall_mem_cons,
      ← ih hrest]
    omega

/-- The counts of the patterns: where a match begins, a hundred at most. -/
def trueCounts (begins : WtPattern → Bytes → Nat → Bool) (text : Bytes)
    (patterns : List WtPattern) : List (Bytes × Nat) :=
  patterns.map fun pattern => (pattern.name, min 100 (occurrences (begins pattern) text))

/-- The scan records for each pattern with a match at how many positions one begins, and their
sum. -/
def CountsOccurrences (config : WtConfig) (regcomp : Regcomp) (file content : Bytes)
    (begins : WtPattern → Bytes → Nat → Bool) : Prop :=
  ∀ scan, wtDeliverableScanFile config regcomp (some file) (some content) = some scan →
    scan.patterns = (trueCounts begins content
      (loadPatterns regcomp file wtDeliverableMaxPatterns)).filter (0 < ·.2) ∧
    scan.hitCount = ((trueCounts begins content
      (loadPatterns regcomp file wtDeliverableMaxPatterns)).map (·.2)).sum

theorem scannedText_of_notMem {content : Bytes} (hcontent : 0 ∉ content)
    (hsize : content.length < scanMaxRead) : scannedText content = content := by
  rw [scannedText, cString, List.take_of_length_le (by omega), List.takeWhile_eq_self_iff]
  intro b hb
  rw [bne_iff_ne]
  rintro rfl
  exact hcontent hb

theorem scanFile_eq {config : WtConfig} {file content : Bytes}
    (hconfigured : config.secretScanPatternsFile.text ≠ [])
    (hload : loadPatterns regcomp file wtDeliverableMaxPatterns ≠ []) :
    wtDeliverableScanFile config regcomp (some file) (some content) =
      some (scanText (loadPatterns regcomp file wtDeliverableMaxPatterns)
        (scannedText content)) := by
  unfold wtDeliverableScanFile
  rw [if_neg hconfigured]
  cases hpatterns : loadPatterns regcomp file wtDeliverableMaxPatterns with
  | nil => exact absurd hpatterns hload
  | cons pattern patterns => simp [hpatterns]

/-- What is recorded of a list of patterns is right where each count is, and all with a match are
named. -/
theorem scanText_iff {patterns : List WtPattern} {text : Bytes}
    (hfinds : ∀ pattern ∈ patterns, FindsMatches pattern.regexec (begins pattern)) :
    (scanText patterns text).patterns = (trueCounts begins text patterns).filter (0 < ·.2) ∧
      (scanText patterns text).hitCount = ((trueCounts begins text patterns).map (·.2)).sum ↔
    (∀ pattern ∈ patterns, CountedRight pattern.regexec (begins pattern) text) ∧
      (patterns.filter fun pattern => 0 < occurrences (begins pattern) text).length ≤ 8 := by
  have hcounts : (scanText patterns text).hitCount =
        ((trueCounts begins text patterns).map (·.2)).sum ↔
      ∀ pattern ∈ patterns, CountedRight pattern.regexec (begins pattern) text := by
    simp only [scanText, trueCounts, List.map_map, Function.comp_def]
    rw [sum_eq_iff_of_le fun pattern hmem => (hfinds pattern hmem).le_patternHits text]
    exact forall₂_congr fun pattern hmem => (hfinds pattern hmem).patternHits_eq_iff text
  rw [and_comm, hcounts]
  refine and_congr_right fun hright => ?_
  have hhits : (patterns.map fun pattern => (pattern.name, patternHits pattern.regexec 100 text)) =
      trueCounts begins text patterns :=
    List.map_congr_left fun pattern hmem => by
      rw [((hfinds pattern hmem).patternHits_eq_iff text).mpr (hright pattern hmem)]
  have hnamed : ((trueCounts begins text patterns).filter (0 < ·.2)).length =
      (patterns.filter fun pattern => 0 < occurrences (begins pattern) text).length := by
    rw [trueCounts, List.filter_map, List.length_map]
    congr 2
    funext pattern
    simp
  rw [scanText, hhits, List.take_eq_self_iff, hnamed]

end scan

/-! ## One key -/

/-- The expressions of a library that takes them literally. -/
def literalRegcomp : Regcomp := fun expr => some fun text => (strstr expr text).isSome

def literalBegins (expr text : Bytes) (p : Nat) : Bool := expr.isPrefixOf (text.drop p)

theorem findsMatches_literal (expr : Bytes) :
    FindsMatches (fun text => (strstr expr text).isSome) (literalBegins expr) where
  contains := by
    intro text
    rw [strstr_isSome_iff]
    simp only [literalBegins, List.isPrefixOf_iff_prefix]
    constructor
    · rintro ⟨front, rest, rfl⟩
      exact ⟨front.length, by simp, by simp⟩
    · rintro ⟨p, -, h⟩
      exact h.isInfix.trans (List.drop_suffix p text).isInfix
  behind := by
    intro text p j h hj
    rw [literalBegins, List.drop_drop, Nat.add_sub_cancel' hj]
    exact h

/-- The patterns of a file with one line. -/
theorem loadPatterns_aws :
    loadPatterns literalRegcomp (bytes "aws=AKIA\n") wtDeliverableMaxPatterns =
      [⟨bytes "aws", fun text => (strstr (bytes "AKIA") text).isSome⟩] := rfl

theorem findsMatches_aws : ∀ pattern ∈ loadPatterns literalRegcomp (bytes "aws=AKIA\n")
    wtDeliverableMaxPatterns, FindsMatches pattern.regexec (literalBegins (bytes "AKIA")) := by
  rw [loadPatterns_aws]
  intro pattern hmem
  rw [List.mem_singleton.mp hmem]
  exact findsMatches_literal _

end WovenTeam

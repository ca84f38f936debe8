import WovenTeam.Lib.CText

/-!
# Redaction of adapter output

What `runCodexAdapter` does to an output file: `capFileSize` cuts or zero-extends it to the limit,
`redactFileInPlace` replaces the secrets of its text by a marker that may be longer than they are,
and keeps the file as it is where the result does not fit. No secret survives a redaction that
succeeds (`noSecret_of_redacted`); `redacted_iff` says for which files it has to.
-/

namespace WovenTeam

open CText

/-! ## Secrets -/

def secretMarks : List Bytes :=
  [bytes "wt_", bytes "ghp_", bytes "github_pat_", bytes "AKIA", bytes "-----BEGIN "]

def looksSecretAt (s : Bytes) : Bool := secretMarks.any fun mark => mark.isPrefixOf s

/-- The bytes a secret ends at. -/
def endsSecret (b : UInt8) : Bool := isSpace b || b == quote || b == 39 || b == comma || b == 125

/-- There is no position where a secret begins. -/
def NoSecret (file : Bytes) : Prop := ∀ position, looksSecretAt (file.drop position) = false

/-! ## Redacting -/

def redactedMark : Bytes := bytes "[REDACTED]"

/-- The loop of `wtRedactSecrets`, with room for at most `outputSize` bytes, its terminator
included. -/
def redactLoop (outputSize : Nat) : Nat → Nat → Bytes → Option Bytes
  | _, _, [] => some []
  | 0, _, _ :: _ => none
  | fuel + 1, used, b :: t =>
    if looksSecretAt (b :: t) then
      if used + redactedMark.length + 1 ≥ outputSize then none
      else
        (redactLoop outputSize fuel (used + redactedMark.length)
          ((b :: t).dropWhile fun c => !endsSecret c)).map (redactedMark ++ ·)
    else if used + 2 ≥ outputSize then none
    else (redactLoop outputSize fuel (used + 1) t).map (b :: ·)

def wtRedactSecrets (input : Bytes) (outputSize : Nat) : Option Bytes :=
  if outputSize = 0 then none else redactLoop outputSize input.length 0 input

/-- `truncate` to the limit: a longer file is cut, a shorter one is filled with zero bytes. -/
def capFileSize (file : Bytes) (maxBytes : Int) : Bytes :=
  if 0 < maxBytes then
    file.take maxBytes.toNat ++ List.replicate (maxBytes.toNat - file.length) 0
  else file

def redactFileInPlace (file : Bytes) (maxBytes : Int) : Bytes :=
  if maxBytes ≤ 0 ∨ maxBytes > 4 * 1024 * 1024 then file
  else
    let input := (file.take maxBytes.toNat).takeWhile (· != 0)
    match wtRedactSecrets input (maxBytes.toNat + 1) with
    | some output => output
    | none => file

/-! ## A redacted text has no secret -/

theorem looksSecretAt_iff {s : Bytes} : looksSecretAt s ↔ ∃ mark ∈ secretMarks, mark <+: s := by
  simp [looksSecretAt, List.any_eq_true, List.isPrefixOf_iff_prefix]

theorem looksSecretAt_nil : looksSecretAt [] = false := by decide

theorem noSecret_cons {b : UInt8} {t : Bytes} :
    NoSecret (b :: t) ↔ looksSecretAt (b :: t) = false ∧ NoSecret t := by
  constructor
  · exact fun h => ⟨h 0, fun position => h (position + 1)⟩
  · rintro ⟨hb, ht⟩ position
    cases position with
    | zero => exact hb
    | succ position => exact ht position

theorem noSecret_nil : NoSecret [] := fun position => by
  rw [List.drop_nil]
  exact looksSecretAt_nil

/-- A secret ends before a byte that no mark has. -/
theorem looksSecretAt_append {q : UInt8} (hq : ∀ mark ∈ secretMarks, q ∉ mark) {s t : Bytes}
    (h : looksSecretAt (s ++ q :: t)) : looksSecretAt s := by
  obtain ⟨mark, hmark, hpre⟩ := looksSecretAt_iff.mp h
  refine looksSecretAt_iff.mpr ⟨mark, hmark, ?_⟩
  refine List.prefix_of_prefix_length_le hpre (List.prefix_append s (q :: t)) ?_
  by_contra hlong
  -- a longer mark has the byte behind `s`
  obtain ⟨rest, hrest⟩ := hpre
  have hget : mark[s.length]? = some q := by
    have hall := congrArg (·[s.length]?) hrest
    simpa [List.getElem?_append, Nat.lt_of_not_le hlong] using hall
  exact hq mark hmark (List.mem_of_getElem? hget)

theorem looksSecretAt_mono {s t : Bytes} (h : looksSecretAt s) : looksSecretAt (s ++ t) := by
  obtain ⟨mark, hmark, hpre⟩ := looksSecretAt_iff.mp h
  exact looksSecretAt_iff.mpr ⟨mark, hmark, hpre.trans (List.prefix_append s t)⟩

/-- A byte that no mark has separates what is in front of it from what is behind. -/
theorem noSecret_append {q : UInt8} (hq : ∀ mark ∈ secretMarks, q ∉ mark) {s t : Bytes} :
    NoSecret (s ++ q :: t) ↔ NoSecret s ∧ NoSecret t := by
  have hsame : ∀ s, looksSecretAt (s ++ q :: t) = looksSecretAt s := fun s =>
    Bool.eq_iff_iff.mpr ⟨looksSecretAt_append hq, looksSecretAt_mono⟩
  induction s with
  | nil =>
    rw [List.nil_append, noSecret_cons, ← List.nil_append (q :: t), hsame]
    simp [looksSecretAt_nil, noSecret_nil]
  | cons b s ih =>
    rw [List.cons_append, noSecret_cons, ← List.cons_append, hsame, noSecret_cons, and_assoc]
    exact and_congr_right fun _ => ih

theorem noSecret_zeros (s : Bytes) (n : Nat) : NoSecret (s ++ List.replicate n 0) ↔ NoSecret s := by
  have hzeros : ∀ n, NoSecret (List.replicate n 0) := by
    intro n
    induction n with
    | zero => exact noSecret_nil
    | succ n ih =>
      rw [List.replicate_succ, ← List.nil_append (0 :: List.replicate n 0),
        noSecret_append (by decide)]
      exact ⟨noSecret_nil, ih⟩
  cases n with
  | zero => rw [List.replicate_zero, List.append_nil]
  | succ n =>
    rw [List.replicate_succ, noSecret_append (by decide)]
    simp [hzeros n]

theorem noSecret_marker : NoSecret redactedMark.dropLast := by
  intro position
  by_cases hlt : position < 9
  · have hall : ∀ position < 9, looksSecretAt (redactedMark.dropLast.drop position) = false := by
      decide
    exact hall position hlt
  · have hlen : redactedMark.dropLast.length = 9 := by decide
    rw [List.drop_eq_nil_of_le (by omega)]
    exact looksSecretAt_nil

section loop

variable {outputSize fuel used : Nat} {s output : Bytes}

/-- What is written starts as the text does, up to the first marker. -/
theorem redactLoop_start (h : redactLoop outputSize fuel used s = some output) :
    ∃ copied rest, s = copied ++ rest ∧
      (output = copied ∨ ∃ later, output = copied ++ 91 :: later) := by
  induction fuel generalizing used s output with
  | zero =>
    cases s with
    | nil => exact ⟨[], [], rfl, .inl (Option.some.inj h).symm⟩
    | cons => cases h
  | succ fuel ih =>
    cases s with
    | nil => exact ⟨[], [], rfl, .inl (Option.some.inj h).symm⟩
    | cons b t =>
      rw [redactLoop] at h
      split at h
      · split at h
        · cases h
        · obtain ⟨later, -, rfl⟩ := Option.map_eq_some_iff.mp h
          exact ⟨[], b :: t, rfl, .inr ⟨redactedMark.tail ++ later, rfl⟩⟩
      · split at h
        · cases h
        · obtain ⟨output, hrest, rfl⟩ := Option.map_eq_some_iff.mp h
          obtain ⟨copied, rest, rfl, hout⟩ := ih hrest
          refine ⟨b :: copied, rest, rfl, ?_⟩
          rcases hout with rfl | ⟨later, rfl⟩
          · exact .inl rfl
          · exact .inr ⟨later, rfl⟩

/-- **A redacted text has no secret.** -/
theorem noSecret_of_redacted (h : redactLoop outputSize fuel used s = some output) :
    NoSecret output := by
  induction fuel generalizing used s output with
  | zero =>
    cases s with
    | nil =>
      cases h
      exact noSecret_nil
    | cons => cases h
  | succ fuel ih =>
    cases s with
    | nil =>
      cases h
      exact noSecret_nil
    | cons b t =>
      rw [redactLoop] at h
      split at h
      · split at h
        · cases h
        · obtain ⟨later, hlater, rfl⟩ := Option.map_eq_some_iff.mp h
          -- the marker has no secret and ends in a byte that no mark has
          have hmarker : NoSecret (redactedMark.dropLast ++ 93 :: later) :=
            (noSecret_append (by decide)).mpr ⟨noSecret_marker, ih hlater⟩
          exact hmarker
      · rename_i hplain
        split at h
        · cases h
        · obtain ⟨rest, hrest, rfl⟩ := Option.map_eq_some_iff.mp h
          refine noSecret_cons.mpr ⟨?_, ih hrest⟩
          obtain ⟨copied, behind, rfl, hout⟩ := redactLoop_start hrest
          refine Bool.eq_false_iff.mpr fun hlooks => hplain ?_
          have hcopied : looksSecretAt (b :: copied) := by
            rcases hout with rfl | ⟨later, rfl⟩
            · exact hlooks
            · exact looksSecretAt_append (q := 91) (by decide) hlooks
          exact looksSecretAt_mono hcopied

end loop

/-! ## When the result fits -/

/-- The texts of the secrets, each to the byte that ends it. -/
def secretSpans : Nat → Bytes → List Bytes
  | _, [] => []
  | 0, _ :: _ => []
  | fuel + 1, b :: t =>
    if looksSecretAt (b :: t) then
      ((b :: t).takeWhile fun c => !endsSecret c) ::
        secretSpans fuel ((b :: t).dropWhile fun c => !endsSecret c)
    else secretSpans fuel t

def secretsOf (text : Bytes) : List Bytes := secretSpans text.length text

/-- The text is shorter than `limit` when each of its secrets counts as its marker. -/
def FitsRedacted (text : Bytes) (limit : Nat) : Prop :=
  text.length + redactedMark.length * (secretsOf text).length <
    limit + ((secretsOf text).map List.length).sum

instance (text : Bytes) (limit : Nat) : Decidable (FitsRedacted text limit) := by
  unfold FitsRedacted
  infer_instance

/-- A secret does not end where it begins. -/
theorem not_endsSecret {b : UInt8} {t : Bytes} (h : looksSecretAt (b :: t)) :
    endsSecret b = false := by
  obtain ⟨mark, hmark, hpre⟩ := looksSecretAt_iff.mp h
  have hall : ∀ mark ∈ secretMarks, mark.head?.map endsSecret = some false := by decide
  have hhead := hall mark hmark
  cases mark with
  | nil => cases hhead
  | cons c mark =>
    obtain ⟨rfl, -⟩ := List.cons_prefix_cons.mp hpre
    simpa using hhead

theorem length_dropSecret {b : UInt8} {t : Bytes} (h : looksSecretAt (b :: t)) :
    ((b :: t).dropWhile fun c => !endsSecret c).length ≤ t.length := by
  rw [List.dropWhile_cons_of_pos (by simp [not_endsSecret h])]
  exact (List.dropWhile_suffix _).length_le

theorem length_spans_le (fuel : Nat) (s : Bytes) :
    ((secretSpans fuel s).map List.length).sum ≤ s.length := by
  induction fuel generalizing s with
  | zero => cases s <;> simp [secretSpans]
  | succ fuel ih =>
    cases s with
    | nil => simp [secretSpans]
    | cons b t =>
      rw [secretSpans]
      split
      · have hrest := ih ((b :: t).dropWhile fun c => !endsSecret c)
        have hsplit := congrArg List.length
          (List.takeWhile_append_dropWhile (p := fun c => !endsSecret c) (l := b :: t))
        rw [List.length_append] at hsplit
        rw [List.map_cons, List.sum_cons]
        omega
      · exact (ih t).trans (by simp)

/-- **The loop succeeds exactly where the text fits with a marker for each secret.** -/
theorem redactLoop_isSome {outputSize fuel used : Nat} {s : Bytes} (hfuel : s.length ≤ fuel)
    (hused : used + 1 < outputSize) :
    (redactLoop outputSize fuel used s).isSome ↔
      used + s.length + redactedMark.length * (secretSpans fuel s).length + 1 <
        outputSize + ((secretSpans fuel s).map List.length).sum := by
  induction fuel generalizing used s with
  | zero =>
    obtain rfl := List.eq_nil_of_length_eq_zero (Nat.le_zero.mp hfuel)
    simpa [redactLoop, secretSpans] using hused
  | succ fuel ih =>
    cases s with
    | nil => simpa [redactLoop, secretSpans] using hused
    | cons b t =>
      have hmark : redactedMark.length = 10 := by decide
      simp only [hmark] at ih
      simp only [redactLoop, secretSpans, hmark]
      split
      · rename_i hlooks
        have hrest := length_dropSecret hlooks
        have hsplit := congrArg List.length
          (List.takeWhile_append_dropWhile (p := fun c => !endsSecret c) (l := b :: t))
        have hle := length_spans_le fuel ((b :: t).dropWhile fun c => !endsSecret c)
        rw [List.length_append] at hsplit
        rw [List.length_cons] at hfuel
        rw [List.length_cons, List.map_cons, List.sum_cons, List.length_cons] at *
        split
        · simp only [Option.isSome_none, Bool.false_eq_true, false_iff]
          omega
        · rw [Option.isSome_map, ih (by omega) (by omega)]
          omega
      · have hle := length_spans_le fuel t
        rw [List.length_cons] at hfuel ⊢
        split
        · simp only [Option.isSome_none, Bool.false_eq_true, false_iff]
          omega
        · rw [Option.isSome_map, ih (by omega) (by omega)]
          omega

/-! ## A file -/

/-- The text that is redacted: what stands in the capped file in front of its first zero byte. -/
def adapterText (file : Bytes) (maxBytes : Int) : Bytes :=
  (file.take maxBytes.toNat).takeWhile (· != 0)

theorem takeWhile_zeros (s : Bytes) (n : Nat) :
    (s ++ List.replicate n 0).takeWhile (· != 0) = s.takeWhile (· != 0) := by
  induction s with
  | nil => cases n <;> rfl
  | cons b s ih =>
    rw [List.cons_append, List.takeWhile_cons, List.takeWhile_cons, ih]

section file

variable {file : Bytes} {maxBytes : Int}

theorem capFileSize_eq (h : 0 < maxBytes) : capFileSize file maxBytes =
    file.take maxBytes.toNat ++ List.replicate (maxBytes.toNat - file.length) 0 := if_pos h

theorem capFileSize_take (h : 0 < maxBytes) :
    (capFileSize file maxBytes).take maxBytes.toNat = capFileSize file maxBytes := by
  refine List.take_of_length_le ?_
  rw [capFileSize_eq h, List.length_append, List.length_take, List.length_replicate]
  omega

theorem wtRedactSecrets_isSome (h : 0 < maxBytes) (text : Bytes) :
    (wtRedactSecrets text (maxBytes.toNat + 1)).isSome ↔ FitsRedacted text maxBytes.toNat := by
  unfold wtRedactSecrets FitsRedacted secretsOf
  rw [if_neg (by omega), redactLoop_isSome le_rfl (by omega)]
  omega

/-- What the two calls leave of a file. -/
theorem redactFileInPlace_eq (h : 0 < maxBytes) :
    redactFileInPlace (capFileSize file maxBytes) maxBytes =
      if maxBytes ≤ 4 * 1024 * 1024 then
        (wtRedactSecrets (adapterText file maxBytes) (maxBytes.toNat + 1)).getD
          (capFileSize file maxBytes)
      else capFileSize file maxBytes := by
  have htext : ((capFileSize file maxBytes).take maxBytes.toNat).takeWhile (· != 0) =
      adapterText file maxBytes := by
    rw [capFileSize_take h, capFileSize_eq h, takeWhile_zeros]
    rfl
  unfold redactFileInPlace
  by_cases hle : maxBytes ≤ 4 * 1024 * 1024
  · rw [if_neg (by omega), if_pos hle]
    dsimp only
    rw [htext]
    cases wtRedactSecrets (adapterText file maxBytes) (maxBytes.toNat + 1) <;> rfl
  · rw [if_pos (by omega), if_neg hle]

/-- **A capped and redacted file has no secret exactly where its first `maxBytes` bytes have none, or
the limit is at most 4 MiB and the text fits it with a marker for each secret.** -/
theorem redacted_iff (h : 0 < maxBytes) :
    NoSecret (redactFileInPlace (capFileSize file maxBytes) maxBytes) ↔
      NoSecret (file.take maxBytes.toNat) ∨
        maxBytes ≤ 4 * 1024 * 1024 ∧ FitsRedacted (adapterText file maxBytes) maxBytes.toNat := by
  have hcapped : NoSecret (capFileSize file maxBytes) ↔ NoSecret (file.take maxBytes.toNat) := by
    rw [capFileSize_eq h, noSecret_zeros]
  have hsome := wtRedactSecrets_isSome h (adapterText file maxBytes)
  rw [redactFileInPlace_eq h]
  split
  · rename_i hle
    cases hredacted : wtRedactSecrets (adapterText file maxBytes) (maxBytes.toNat + 1) with
    | none =>
      rw [hredacted] at hsome
      have hlong : ¬ FitsRedacted (adapterText file maxBytes) maxBytes.toNat :=
        fun hfits => by simpa using hsome.mpr hfits
      simp only [Option.getD_none, hcapped, hlong, and_false, or_false]
    | some output =>
      rw [hredacted] at hsome
      have hnone : NoSecret output := by
        unfold wtRedactSecrets at hredacted
        rw [if_neg (by omega)] at hredacted
        exact noSecret_of_redacted hredacted
      exact iff_of_true hnone (.inr ⟨hle, hsome.mp rfl⟩)
  · rename_i hlarge
    simp only [hcapped, hlarge, false_and, or_false]

end file

/-- A token in front of the end of the file leaves room for its marker. -/
theorem redacted_roomy : NoSecret (redactFileInPlace (capFileSize (bytes "wt_1 done") 20) 20) :=
  (redacted_iff (by decide)).mpr (.inr ⟨by decide, by decide⟩)

/-- A token that fills the file to its limit stays. -/
theorem not_redacted : ¬ ∀ (file : Bytes) (maxBytes : Int), 0 < maxBytes →
    NoSecret (redactFileInPlace (capFileSize file maxBytes) maxBytes) := by
  intro hall
  exact absurd (hall (bytes "wt_1") 4 (by decide) 0) (by decide)

end WovenTeam

import WovenTeam.Redaction

/-!
# Redacted texts

`wtRedactSecrets` replaces each stretch of bytes from a mark of a secret to the next byte that ends
one. `wtRedactSecrets_spec` says this of the text as a whole. The mark of a private key holds a
space, which ends a secret: `keyRedacted_iff` says which keys are gone all the same.
-/

namespace WovenTeam

open CText

/-! ## What is replaced -/

/-- The byte belongs to a secret: a mark begins at or in front of it, and nothing from there to
it ends a secret. -/
def Covered (text : Bytes) (position : Nat) : Prop :=
  ∃ start < position + 1, looksSecretAt (text.drop start) ∧
    ∀ b ∈ (text.take (position + 1)).drop start, endsSecret b = false

theorem covered_iff_any {text : Bytes} {position : Nat} :
    ((List.range (position + 1)).any fun start => looksSecretAt (text.drop start) &&
      ((text.take (position + 1)).drop start).all fun b => !endsSecret b) = true ↔
    Covered text position := by
  simp [Covered]

instance decidableCovered (text : Bytes) (position : Nat) : Decidable (Covered text position) :=
  decidable_of_iff _ covered_iff_any

/-- What stands for the byte: itself where it belongs to no secret, and the marker for the first
byte of a covered stretch. -/
def redactedPiece (text : Bytes) (position : Nat) : Bytes :=
  if ¬ Covered text position then (text.drop position).take 1
  else if position = 0 ∨ ¬ Covered text (position - 1) then redactedMark
  else []

/-- The text with each stretch of covered bytes replaced by the marker. -/
def redactedText (text : Bytes) : Bytes := (List.range text.length).flatMap (redactedPiece text)

section covered

variable {b c : UInt8} {s t run rest : Bytes} {position : Nat}

theorem covered_zero : Covered (b :: t) 0 ↔ looksSecretAt (b :: t) := by
  constructor
  · rintro ⟨start, hstart, hlooks, -⟩
    obtain rfl : start = 0 := by omega
    exact hlooks
  · intro hlooks
    exact ⟨0, by omega, hlooks, by simp [not_endsSecret hlooks]⟩

theorem covered_succ (hplain : looksSecretAt (b :: t) = false) :
    Covered (b :: t) (position + 1) ↔ Covered t position := by
  constructor
  · rintro ⟨start, hstart, hlooks, hrun⟩
    cases start with
    | zero => simp [hplain] at hlooks
    | succ start => exact ⟨start, by omega, hlooks, hrun⟩
  · rintro ⟨start, hstart, hlooks, hrun⟩
    exact ⟨start + 1, by omega, hlooks, hrun⟩

/-- A secret covers all its bytes. -/
theorem covered_run (hlooks : looksSecretAt (run ++ rest))
    (hrun : ∀ b ∈ run, endsSecret b = false) (hlt : position < run.length) :
    Covered (run ++ rest) position := by
  refine ⟨0, by omega, hlooks, fun b hb => hrun b ?_⟩
  rw [List.drop_zero, List.take_append_of_le_length (by omega)] at hb
  exact List.mem_of_mem_take hb

/-- No secret reaches past a byte that ends secrets. -/
theorem covered_behind (hend : endsSecret c = true) :
    Covered (s ++ c :: t) (s.length + position) ↔ Covered (c :: t) position := by
  have htake : (s ++ c :: t).take (s.length + position + 1) = s ++ (c :: t).take (position + 1) := by
    rw [Nat.add_assoc, List.take_length_add_append]
  constructor
  · rintro ⟨start, hstart, hlooks, hrun⟩
    rw [htake] at hrun
    by_cases hle : s.length ≤ start
    · obtain ⟨start, rfl⟩ := Nat.exists_eq_add_of_le hle
      rw [List.drop_length_add_append] at hlooks
      refine ⟨start, by omega, hlooks, fun b hb => hrun b ?_⟩
      rwa [List.drop_length_add_append]
    · -- a mark in front of `c` would have to pass it
      have hc := hrun c (by
        rw [List.drop_append_of_le_length (by omega), List.take_succ_cons]
        simp)
      rw [hend] at hc
      cases hc
  · rintro ⟨start, hstart, hlooks, hrun⟩
    refine ⟨s.length + start, by omega, by rwa [List.drop_length_add_append], fun b hb => hrun b ?_⟩
    rwa [htake, List.drop_length_add_append] at hb

theorem not_covered_end (hend : endsSecret c = true) : ¬ Covered (c :: t) 0 := by
  intro hcovered
  have := not_endsSecret (covered_zero.mp hcovered)
  rw [hend] at this
  cases this

/-- A byte that no mark has keeps what is in front of it apart. -/
theorem covered_front (hc : ∀ mark ∈ secretMarks, c ∉ mark) (hlt : position < s.length) :
    Covered (s ++ c :: t) position ↔ Covered s position := by
  have hlooks : ∀ start < position + 1,
      looksSecretAt ((s ++ c :: t).drop start) = looksSecretAt (s.drop start) := by
    intro start hstart
    rw [List.drop_append_of_le_length (by omega)]
    exact Bool.eq_iff_iff.mpr ⟨looksSecretAt_append hc, looksSecretAt_mono⟩
  rw [Covered, Covered, List.take_append_of_le_length (by omega)]
  refine exists_congr fun start => and_congr_right fun hstart => ?_
  rw [hlooks start hstart]

/-! ### The pieces -/

theorem redactedText_nil : redactedText [] = [] := rfl

theorem redactedText_cons (hplain : looksSecretAt (b :: t) = false) :
    redactedText (b :: t) = b :: redactedText t := by
  have hzero : ¬ Covered (b :: t) 0 := by rw [covered_zero, hplain]; decide
  have hsucc : ∀ position, redactedPiece (b :: t) (position + 1) = redactedPiece t position := by
    intro position
    have hprevious : (position + 1 = 0 ∨ ¬ Covered (b :: t) (position + 1 - 1)) ↔
        (position = 0 ∨ ¬ Covered t (position - 1)) := by
      cases position with
      | zero => simp [hzero]
      | succ position => simp [covered_succ hplain]
    simp only [redactedPiece, covered_succ hplain, hprevious, List.drop_succ_cons]
  rw [redactedText, List.length_cons, List.range_succ_eq_map, List.flatMap_cons, List.flatMap_map,
    redactedPiece, if_pos hzero]
  simp only [Nat.succ_eq_add_one, hsucc]
  rfl

/-- The text behind a byte that ends secrets is redacted by itself. -/
theorem redactedText_append_end (hend : endsSecret c = true) : redactedText (s ++ c :: t) =
    (List.range s.length).flatMap (redactedPiece (s ++ c :: t)) ++ redactedText (c :: t) := by
  have hshift : ∀ position, redactedPiece (s ++ c :: t) (s.length + position) =
      redactedPiece (c :: t) position := by
    intro position
    have hdrop : (s ++ c :: t).drop (s.length + position) = (c :: t).drop position :=
      List.drop_length_add_append _
    cases position with
    | zero =>
      have hfront : ¬ Covered (s ++ c :: t) (s.length + 0) := by
        rw [covered_behind hend]
        exact not_covered_end hend
      rw [redactedPiece, redactedPiece, if_pos hfront, if_pos (not_covered_end hend), hdrop]
    | succ position =>
      have hprevious : s.length + (position + 1) - 1 = s.length + position := by omega
      simp only [redactedPiece, covered_behind hend, hdrop, hprevious, Nat.add_one_sub_one]
      simp
  rw [redactedText, redactedText, List.length_append, List.range_add, List.flatMap_append,
    List.flatMap_map]
  simp only [hshift]

theorem redactedText_end (hend : endsSecret c = true) :
    redactedText (c :: t) = c :: redactedText t :=
  redactedText_cons (Bool.eq_false_iff.mpr fun hlooks =>
    not_covered_end hend (covered_zero.mpr hlooks))

/-- The pieces of a secret: the marker, and nothing for its other bytes. -/
theorem flatMap_run (hne : run ≠ []) (hlooks : looksSecretAt (run ++ rest))
    (hrun : ∀ b ∈ run, endsSecret b = false) :
    (List.range run.length).flatMap (redactedPiece (run ++ rest)) = redactedMark := by
  obtain ⟨n, hn⟩ := Nat.exists_eq_succ_of_ne_zero (List.length_pos_iff.mpr hne).ne'
  have hcovered : ∀ position < n + 1, Covered (run ++ rest) position := fun position hlt =>
    covered_run hlooks hrun (by omega)
  have hlater : (List.range n).flatMap (fun position => redactedPiece (run ++ rest) (position + 1)) =
      [] := by
    rw [List.flatMap_eq_nil_iff]
    intro position hposition
    have hlt := List.mem_range.mp hposition
    rw [redactedPiece, if_neg (not_not_intro (hcovered _ (by omega))),
      if_neg (by simp [hcovered position (by omega)])]
  rw [hn, Nat.succ_eq_add_one, List.range_succ_eq_map, List.flatMap_cons, List.flatMap_map]
  simp only [Nat.succ_eq_add_one]
  rw [hlater, redactedPiece, if_neg (not_not_intro (hcovered 0 (by omega))), if_pos (.inl rfl),
    List.append_nil]

theorem redactedText_run (hlooks : looksSecretAt (run ++ rest)) (hne : run ≠ [])
    (hrun : ∀ b ∈ run, endsSecret b = false) (hrest : ∀ b ∈ rest.head?, endsSecret b = true) :
    redactedText (run ++ rest) = redactedMark ++ redactedText rest := by
  cases rest with
  | nil =>
    rw [redactedText_nil, redactedText, List.append_nil] at *
    have hpieces := @flatMap_run run [] hne (by simpa using hlooks) hrun
    simpa using hpieces
  | cons c rest =>
    rw [redactedText_append_end (hrest c rfl), flatMap_run hne hlooks hrun]

/-- Lines are redacted one by one. -/
theorem redactedText_append (hc : ∀ mark ∈ secretMarks, c ∉ mark) (hend : endsSecret c = true) :
    redactedText (s ++ c :: t) = redactedText s ++ c :: redactedText t := by
  have hfront : (List.range s.length).flatMap (redactedPiece (s ++ c :: t)) = redactedText s := by
    refine List.flatMap_congr fun position hposition => ?_
    have hlt := List.mem_range.mp hposition
    have htake : ((s ++ c :: t).drop position).take 1 = (s.drop position).take 1 := by
      rw [List.drop_append_of_le_length (by omega), List.take_append_of_le_length]
      rw [List.length_drop]
      omega
    simp only [redactedPiece, covered_front hc hlt, covered_front hc (show position - 1 < s.length by omega),
      htake]
  rw [redactedText_append_end hend, hfront, redactedText_end hend]

theorem redactedText_of_noSecret (h : NoSecret s) : redactedText s = s := by
  induction s with
  | nil => rfl
  | cons b s ih =>
    obtain ⟨hb, hs⟩ := noSecret_cons.mp h
    rw [redactedText_cons hb, ih hs]

end covered

section loop

variable {outputSize fuel used : Nat} {input output s : Bytes}

/-- The loop writes the redacted text. -/
theorem redactLoop_eq (h : redactLoop outputSize fuel used s = some output) :
    output = redactedText s := by
  induction fuel generalizing used s output with
  | zero =>
    cases s with
    | nil => exact (Option.some.inj h).symm
    | cons => cases h
  | succ fuel ih =>
    cases s with
    | nil => exact (Option.some.inj h).symm
    | cons b t =>
      rw [redactLoop] at h
      split at h
      · rename_i hlooks
        split at h
        · cases h
        · obtain ⟨later, hlater, rfl⟩ := Option.map_eq_some_iff.mp h
          have hsplit := List.takeWhile_append_dropWhile (p := fun c => !endsSecret c) (l := b :: t)
          have hrun : redactedText (b :: t) = redactedMark ++
              redactedText ((b :: t).dropWhile fun c => !endsSecret c) := by
            conv_lhs => rw [← hsplit]
            refine redactedText_run (by rwa [hsplit]) ?_ (fun c hc => ?_) (fun c hc => ?_)
            · rw [List.takeWhile_cons_of_pos (by simp [not_endsSecret hlooks])]
              exact List.cons_ne_nil _ _
            · simpa using List.mem_takeWhile_imp hc
            · have := List.head?_dropWhile_not (fun c => !endsSecret c) (b :: t)
              rw [Option.mem_def.mp hc] at this
              simpa using this
          rw [hrun, ih hlater]
      · rename_i hplain
        split at h
        · cases h
        · obtain ⟨rest, hrest, rfl⟩ := Option.map_eq_some_iff.mp h
          rw [redactedText_cons (Bool.eq_false_iff.mpr hplain), ih hrest]

/-- A text without secrets is copied. -/
theorem redactLoop_of_noSecret (h : NoSecret s) (hfuel : s.length ≤ fuel)
    (hroom : used + s.length + 1 < outputSize) :
    redactLoop outputSize fuel used s = some s := by
  induction fuel generalizing used s with
  | zero =>
    obtain rfl := List.eq_nil_of_length_eq_zero (Nat.le_zero.mp hfuel)
    rfl
  | succ fuel ih =>
    cases s with
    | nil => rfl
    | cons b t =>
      obtain ⟨hb, ht⟩ := noSecret_cons.mp h
      rw [List.length_cons] at hfuel hroom
      rw [redactLoop, if_neg (by simp [hb]), if_neg (by omega), ih ht (by omega) (by omega)]
      rfl

theorem wtRedactSecrets_loop (h : wtRedactSecrets input outputSize = some output) :
    redactLoop outputSize input.length 0 input = some output := by
  unfold wtRedactSecrets at h
  split at h
  · cases h
  · exact h

/-- **A redacted text has no mark, is left as it is by a second redaction, and is the text with
each secret replaced by the marker.** -/
theorem wtRedactSecrets_spec (h : wtRedactSecrets input outputSize = some output) :
    (∀ position, looksSecretAt (output.drop position) = false) ∧
      (∀ size, output.length + 1 < size → wtRedactSecrets output size = some output) ∧
      output = redactedText input := by
  have hloop := wtRedactSecrets_loop h
  have hnone : NoSecret output := noSecret_of_redacted hloop
  refine ⟨hnone, fun size hsize => ?_, redactLoop_eq hloop⟩
  rw [wtRedactSecrets, if_neg (by omega)]
  exact redactLoop_of_noSecret hnone le_rfl (by omega)

end loop

theorem wtRedactSecrets_spec_token :
    (∀ position, looksSecretAt ((bytes "[REDACTED], ok").drop position) = false) ∧
      (∀ size, (bytes "[REDACTED], ok").length + 1 < size →
        wtRedactSecrets (bytes "[REDACTED], ok") size = some (bytes "[REDACTED], ok")) ∧
      bytes "[REDACTED], ok" = redactedText (bytes "wt_AKIA, ok") :=
  wtRedactSecrets_spec (show wtRedactSecrets (bytes "wt_AKIA, ok") 16 = _ by decide)

/-! ## Private keys -/

/-- A text with a block of a PEM file: the lines in front of it, the label, the lines of the body
and the rest. -/
structure PemText where
  front : Bytes
  label : Bytes
  body : List Bytes
  back : Bytes
  front_lines : front = [] ∨ ∃ s, front = s ++ [newline]
  label_line : newline ∉ label
  body_lines : ∀ line ∈ body, newline ∉ line
  back_lines : back = [] ∨ ∃ s, back = newline :: s

namespace PemText

variable (p : PemText)

def beginLine : Bytes := bytes "-----BEGIN " ++ (p.label ++ bytes "-----")
def endLine : Bytes := bytes "-----END " ++ (p.label ++ bytes "-----")

def block : Bytes :=
  p.beginLine ++ newline :: ((p.body.flatMap fun line => line ++ [newline]) ++ p.endLine)

def text : Bytes := p.front ++ (p.block ++ p.back)

end PemText

/-- Where the redaction succeeds, no line of the body is left at the place of the block. -/
def KeyRedacted (p : PemText) (outputSize : Nat) : Prop :=
  ∀ output, wtRedactSecrets p.text outputSize = some output →
    ∃ place, output = redactedText p.front ++ (place ++ redactedText p.back) ∧
      ∀ line ∈ p.body, ¬ line <:+: place

theorem newline_notMem_marks : ∀ mark ∈ secretMarks, newline ∉ mark := by decide

theorem endsSecret_newline : endsSecret newline = true := by decide

theorem redactedText_newline (s t : Bytes) :
    redactedText (s ++ newline :: t) = redactedText s ++ newline :: redactedText t :=
  redactedText_append newline_notMem_marks endsSecret_newline

theorem redactedText_body (body : List Bytes) (t : Bytes) :
    redactedText ((body.flatMap fun line => line ++ [newline]) ++ t) =
      (body.flatMap fun line => redactedText line ++ [newline]) ++ redactedText t := by
  induction body with
  | nil => rfl
  | cons line body ih =>
    rw [List.flatMap_cons, List.append_assoc, List.append_assoc, List.singleton_append,
      redactedText_newline, ih]
    simp

theorem noSecret_iff {s : Bytes} : NoSecret s ↔ ∀ mark ∈ secretMarks, ¬ mark <:+: s := by
  constructor
  · intro h mark hmark hin
    obtain ⟨front, back, rfl⟩ := hin
    have hlooks := h front.length
    rw [List.append_assoc, List.drop_left] at hlooks
    exact Bool.false_ne_true
      (hlooks.symm.trans (looksSecretAt_iff.mpr ⟨mark, hmark, List.prefix_append mark back⟩))
  · intro h position
    refine Bool.eq_false_iff.mpr fun hlooks => ?_
    obtain ⟨mark, hmark, hpre⟩ := looksSecretAt_iff.mp hlooks
    exact h mark hmark (hpre.isInfix.trans (List.drop_suffix position s).isInfix)

theorem redactedText_pem (p : PemText) : redactedText p.text =
    redactedText p.front ++ (redactedText p.block ++ redactedText p.back) := by
  have hback : redactedText (p.block ++ p.back) = redactedText p.block ++ redactedText p.back := by
    rcases p.back_lines with hnil | ⟨s, hs⟩
    · rw [hnil, redactedText_nil, List.append_nil, List.append_nil]
    · rw [hs, redactedText_newline, redactedText_end endsSecret_newline]
  rw [PemText.text, ← hback]
  rcases p.front_lines with hnil | ⟨s, hs⟩
  · rw [hnil, redactedText_nil, List.nil_append, List.nil_append]
  · have hfront : redactedText (s ++ [newline]) = redactedText s ++ [newline] :=
      redactedText_newline s []
    rw [hs, hfront, List.append_assoc, List.singleton_append, redactedText_newline]
    simp

theorem redactedText_block (p : PemText) : redactedText p.block =
    redactedText p.beginLine ++ newline ::
      ((p.body.flatMap fun line => redactedText line ++ [newline]) ++ redactedText p.endLine) := by
  rw [PemText.block, redactedText_newline, redactedText_body]

theorem wtRedactSecrets_isSome_iff {input : Bytes} {outputSize : Nat} (hne : input ≠ []) :
    (wtRedactSecrets input outputSize).isSome ↔ FitsRedacted input (outputSize - 1) := by
  by_cases hsize : outputSize ≤ 1
  · have hpos : 0 < input.length := List.length_pos_iff.mpr hne
    have hle := length_spans_le input.length input
    have hshort : ¬ FitsRedacted input (outputSize - 1) := by
      rw [FitsRedacted, secretsOf]
      omega
    refine iff_of_false ?_ hshort
    obtain rfl | rfl : outputSize = 0 ∨ outputSize = 1 := by omega
    · simp [wtRedactSecrets]
    · cases input with
      | nil => exact absurd rfl hne
      | cons b t => simp [wtRedactSecrets, redactLoop, redactedMark]
  · obtain ⟨limit, rfl⟩ := Nat.exists_eq_add_of_lt (Nat.lt_of_not_le hsize)
    have hroom := @wtRedactSecrets_isSome (limit + 1 : Nat) (by omega) input
    rw [Int.toNat_natCast] at hroom
    rw [show 1 + limit + 1 = limit + 1 + 1 by omega, hroom, Nat.add_sub_cancel]

/-- **No line of the body survives exactly where the call fails for want of room or every line
has a mark of its own.** -/
theorem keyRedacted_iff (p : PemText) (outputSize : Nat) : KeyRedacted p outputSize ↔
    ¬ FitsRedacted p.text (outputSize - 1) ∨ ∀ line ∈ p.body, ¬ NoSecret line := by
  have hne : p.text ≠ [] := by simp [PemText.text, PemText.block]
  constructor
  · intro h
    refine or_iff_not_imp_left.mpr fun hfits line hline hnone => ?_
    obtain ⟨output, houtput⟩ :=
      Option.isSome_iff_exists.mp ((wtRedactSecrets_isSome_iff hne).mpr (not_not.mp hfits))
    obtain ⟨place, hplace, hlines⟩ := h output houtput
    rw [redactLoop_eq (wtRedactSecrets_loop houtput), redactedText_pem] at hplace
    have hblock : redactedText p.block = place :=
      List.append_cancel_right (List.append_cancel_left hplace)
    -- the line stands in the block as it was
    refine hlines line hline ?_
    have hbody : line <:+: p.body.flatMap fun line => redactedText line ++ [newline] := by
      obtain ⟨before, after, hbody⟩ := List.append_of_mem hline
      rw [hbody, List.flatMap_append, List.flatMap_cons, redactedText_of_noSecret hnone]
      exact ⟨before.flatMap fun line => redactedText line ++ [newline],
        newline :: after.flatMap fun line => redactedText line ++ [newline], by simp⟩
    rw [← hblock, redactedText_block]
    exact (hbody.trans (List.prefix_append _ _).isInfix).trans
      ((List.suffix_cons newline _).trans (List.suffix_append _ _)).isInfix
  · rintro h output houtput
    have hloop := wtRedactSecrets_loop houtput
    have hsome := (wtRedactSecrets_isSome_iff hne).mp (by rw [houtput]; rfl)
    have hmarks := h.resolve_left (not_not_intro hsome)
    have heq : output = redactedText p.front ++ (redactedText p.block ++ redactedText p.back) := by
      rw [redactLoop_eq hloop, redactedText_pem]
    refine ⟨redactedText p.block, heq, fun line hline hin => hmarks line hline ?_⟩
    -- a mark in the line would be one in the output
    rw [noSecret_iff]
    intro mark hmark hmarks
    refine noSecret_iff.mp (noSecret_of_redacted hloop) mark hmark ?_
    rw [heq]
    exact (hmarks.trans hin).trans ⟨_, _, by rw [List.append_assoc]⟩

/-- A key of one line. -/
def pemKey : PemText where
  front := []
  label := bytes "RSA PRIVATE KEY"
  body := [bytes "MIIEow"]
  back := []
  front_lines := .inl rfl
  label_line := by decide
  body_lines := by decide
  back_lines := .inl rfl

/-- Only the first word of the block is replaced. -/
theorem not_keyRedacted : ¬ ∀ (p : PemText) (outputSize : Nat), KeyRedacted p outputSize := by
  intro hall
  obtain ⟨place, hplace, hlines⟩ := hall pemKey 100
    (bytes "[REDACTED] RSA PRIVATE KEY-----\nMIIEow\n-----END RSA PRIVATE KEY-----")
    (by decide +kernel)
  have hempty : redactedText pemKey.front = [] ∧ redactedText pemKey.back = [] := ⟨rfl, rfl⟩
  rw [hempty.1, hempty.2, List.nil_append, List.append_nil] at hplace
  refine hlines (bytes "MIIEow") (by decide) ?_
  rw [← hplace]
  decide +kernel

end WovenTeam

import WovenTeam.Roomd.Compact
import WovenTeam.TokenSearch

/-!
# Reading a compacted line

A handler decides on the text of its body, and what it appends is read again from the compacted
line. `compact_reads`: for a JSON text and a key that cannot stand between two strings, all readers
find the same in both.
-/

namespace WovenTeam

open CText QuotedText JsonText

/-- What `compactJsonLine` leaves of the tokens. -/
def onOneLine (ts : List Token) : List Token := strip isLineSpace ts

theorem isWhite_of_isLineSpace (b : UInt8) (h : isLineSpace b) : isWhite b := by
  simp only [isLineSpace, Bool.or_eq_true, beq_iff_eq] at h
  rcases h with (rfl | rfl) | rfl <;> decide

/-! ## The loop -/

section loop

variable {ts : List Token} {place : Position} {room : Nat}

/-- A string comes out as it is. -/
theorem compactFrom_escaped {c : Bytes} (hc : Escaped c) (room : Nat) (rest : Bytes) :
    compactFrom true false (c.length + (room + 1)) (c ++ quote :: rest) =
      c ++ quote :: compactFrom false false room rest := by
  have hback : quote ≠ backslash := by decide
  induction hc with
  | nil => simp [compactFrom, hback]
  | @byte b t hq hb _ _ ih =>
    have hroom : (b :: t).length + (room + 1) = t.length + (room + 1) + 1 := by
      rw [List.length_cons]
      omega
    rw [hroom, List.cons_append, compactFrom, if_neg (by omega)]
    simp only [hq, hb, Bool.false_eq_true, if_false, false_and, Bool.not_true, Bool.false_and,
      Nat.add_one_sub_one, ih, List.cons_append]
  | @escape e t _ _ ih =>
    have hroom : (backslash :: e :: t).length + (room + 1) = t.length + (room + 1) + 1 + 1 := by
      rw [List.length_cons, List.length_cons]
      omega
    rw [hroom, List.cons_append, List.cons_append, compactFrom, if_neg (by omega)]
    simp only [Bool.false_eq_true, if_false, and_self, if_true, Nat.add_one_sub_one]
    rw [compactFrom, if_neg (by omega), if_pos rfl, Nat.add_one_sub_one, ih, List.cons_append,
      List.cons_append]

theorem compactFrom_render (h : Accepted place ts)
    (hroom : (textOf (onOneLine ts)).length ≤ room) :
    compactFrom false false room (textOf ts) = textOf (onOneLine ts) := by
  induction ts generalizing place room with
  | nil => rfl
  | cons t ts ih =>
    obtain ⟨next, hstep, hrest⟩ := Accepted.cons.mp h
    cases t with
    | str s =>
      have hkeep : onOneLine (.str s :: ts) = .str s :: onOneLine ts := rfl
      rw [hkeep, textOf_str] at hroom
      obtain ⟨room, rfl⟩ : ∃ more, room =
          (s.flatMap JsonChar.render).length + (more + 1) + 1 := by
        simp only [List.length_cons, List.length_append] at hroom
        exact ⟨room - (s.flatMap JsonChar.render).length - 2, by omega⟩
      rw [hkeep, textOf_str, textOf_str, compactFrom, if_neg (by omega)]
      simp only [Bool.false_eq_true, if_false, and_false, if_true, Bool.not_false,
        Nat.add_one_sub_one]
      rw [compactFrom_escaped (escaped_chars s), ih hrest]
      simp only [List.length_cons, List.length_append] at hroom
      omega
    | gap b =>
      have hb : b ≠ quote := by
        rintro rfl
        cases place <;> cases hstep
      rw [textOf_gap]
      cases hline : isLineSpace b with
      | true =>
        have hdrop : onOneLine (.gap b :: ts) = onOneLine ts :=
          List.filter_cons_of_neg (by simp [Token.keeps, hline])
        rw [hdrop] at hroom ⊢
        cases room with
        | zero =>
          have hnil := List.eq_nil_of_length_eq_zero (Nat.le_zero.mp hroom)
          rw [hnil, compactFrom, if_pos rfl]
        | succ room =>
          rw [compactFrom, if_neg (by omega)]
          simp only [Bool.false_eq_true, if_false, and_false, hb, hline, Bool.not_false,
            Bool.and_self, if_true]
          exact ih hrest hroom
      | false =>
        have hkeep : onOneLine (.gap b :: ts) = .gap b :: onOneLine ts :=
          List.filter_cons_of_pos (by simp [Token.keeps, hline])
        rw [hkeep, textOf_gap] at hroom ⊢
        rw [List.length_cons] at hroom
        rw [compactFrom, if_neg (by omega)]
        simp only [Bool.false_eq_true, if_false, and_false, hb, hline, Bool.and_false]
        rw [ih hrest (by omega)]

theorem compactJsonLine_render (h : Accepted place ts) {size : Nat}
    (hsize : (textOf ts).length < size) :
    compactJsonLine (textOf ts) size = textOf (onOneLine ts) := by
  refine compactFrom_render h ?_
  have hle : (textOf (onOneLine ts)).length ≤ (textOf ts).length :=
    (List.filter_sublist.flatMap _).length_le
  omega

theorem oneLine_char (c : JsonChar) : ∀ b ∈ c.render, isLineSpace b = false := by
  intro b hb
  rw [Bool.eq_false_iff]
  intro hline
  simp only [isLineSpace, Bool.or_eq_true, beq_iff_eq] at hline
  cases c with
  | byte c h =>
    rw [JsonChar.render, List.mem_singleton] at hb
    subst hb
    rcases hline with (rfl | rfl) | rfl <;> exact absurd h.1 (by decide)
  | short letter unit h =>
    simp only [JsonChar.render, List.mem_cons, List.not_mem_nil, or_false] at hb
    rcases hb with rfl | rfl
    · revert hline
      decide
    · rcases hline with (rfl | rfl) | rfl <;> simp [shortEscapes] at h
  | digits c d e f unit h =>
    have hnone : hexValue 10 = none ∧ hexValue 13 = none ∧ hexValue 9 = none := by decide
    simp only [JsonChar.render, List.mem_cons, List.not_mem_nil, or_false] at hb
    rcases hb with rfl | rfl | rfl | rfl | rfl | rfl
    · revert hline
      decide
    · revert hline
      decide
    all_goals rcases hline with (rfl | rfl) | rfl
    all_goals simp [hnone] at h

/-- No line break or tab is left. -/
theorem oneLine_onOneLine (ts : List Token) :
    ∀ b ∈ textOf (onOneLine ts), isLineSpace b = false := by
  intro b hb
  obtain ⟨t, ht, hmem⟩ := List.mem_flatMap.mp hb
  rw [onOneLine, strip, List.mem_filter] at ht
  cases t with
  | gap c =>
    rw [Token.render, List.mem_singleton] at hmem
    rw [hmem]
    simpa [Token.keeps] using ht.2
  | str s =>
    rw [Token.render, JsonString.render, List.mem_cons, List.mem_append, List.mem_flatMap] at hmem
    rcases hmem with rfl | ⟨c, -, hmem⟩ | hmem
    · decide
    · exact oneLine_char c b hmem
    · rw [List.mem_singleton.mp hmem]
      decide

end loop

/-! ## The readers -/

section readers

variable {ts : List Token} {place : Position} {key : Bytes}

theorem onOneLine_cons_solid {t : Token} (ht : t.solid) (ts : List Token) :
    onOneLine (t :: ts) = t :: onOneLine ts := by
  refine List.filter_cons_of_pos ?_
  cases t with
  | str s => rfl
  | gap b =>
    rw [Token.keeps, Bool.not_eq_true', Bool.eq_false_iff]
    intro hline
    have hspace := isSpace_of_isWhite (isWhite_of_isLineSpace b hline)
    rw [Token.solid, hspace] at ht
    cases ht

/-- Skipping white space comes to the same token in both texts. -/
theorem skip_onOneLine (ts : List Token) : skip (onOneLine ts) = onOneLine (skip ts) := by
  induction ts with
  | nil => rfl
  | cons t ts ih =>
    cases hsolid : t.solid with
    | true =>
      have hstart : ∀ us : List Token, skip (t :: us) = t :: us := fun us =>
        List.dropWhile_cons_of_neg (by simp [hsolid])
      rw [hstart, onOneLine_cons_solid hsolid, hstart]
    | false =>
      have hpass : ∀ us : List Token, skip (t :: us) = skip us := fun us =>
        List.dropWhile_cons_of_pos (by simp [hsolid])
      rw [hpass, ← ih]
      cases hkeeps : t.keeps isLineSpace with
      | true =>
        have hkeep : onOneLine (t :: ts) = t :: onOneLine ts := List.filter_cons_of_pos hkeeps
        rw [hkeep, hpass]
      | false =>
        have hdrop : onOneLine (t :: ts) = onOneLine ts :=
          List.filter_cons_of_neg (by simp [hkeeps])
        rw [hdrop]

/-- **The search ends at the same token in both texts.** -/
theorem fieldTokens_onOneLine (key : Bytes) (ts : List Token) :
    fieldTokens key (onOneLine ts) = (fieldTokens key ts).map onOneLine := by
  induction ts with
  | nil => rfl
  | cons t ts ih =>
    cases t with
    | gap b =>
      have hpass : ∀ us : List Token, fieldTokens key (.gap b :: us) = fieldTokens key us :=
        fun us => rfl
      rw [hpass, ← ih]
      cases hline : isLineSpace b with
      | true =>
        have hdrop : onOneLine (.gap b :: ts) = onOneLine ts :=
          List.filter_cons_of_neg (by simp [Token.keeps, hline])
        rw [hdrop]
      | false =>
        have hkeep : onOneLine (.gap b :: ts) = .gap b :: onOneLine ts :=
          List.filter_cons_of_pos (by simp [Token.keeps, hline])
        rw [hkeep, hpass]
    | str s =>
      rw [onOneLine_cons_solid rfl, fieldTokens, fieldTokens, skip_onOneLine, ih]
      cases hfirst : skip ts with
      | nil => simp [onOneLine, strip]
      | cons t us =>
        rw [onOneLine_cons_solid (solid_of_skip hfirst), List.tail_cons, List.tail_cons,
          skip_onOneLine, List.head?_cons, List.head?_cons]
        split <;> rfl

theorem takeWhile_digits_congr {a s t : Bytes} (hs : ∀ b ∈ s.head?, isDigit b = false)
    (ht : ∀ b ∈ t.head?, isDigit b = false) :
    (a ++ s).takeWhile isDigit = (a ++ t).takeWhile isDigit := by
  have hnil : ∀ s : Bytes, (∀ b ∈ s.head?, isDigit b = false) → s.takeWhile isDigit = [] := by
    intro s hs
    cases s with
    | nil => rfl
    | cons b s => exact List.takeWhile_cons_of_neg (by simp [hs b rfl])
  rw [List.takeWhile_append, List.takeWhile_append, hnil s hs, hnil t ht]

theorem strtoll_append_congr {a s t : Bytes} (ha : a ≠ [])
    (hspace : ∀ b ∈ a.head?, isSpace b = false) (hs : ∀ b ∈ s.head?, isDigit b = false)
    (ht : ∀ b ∈ t.head?, isDigit b = false) : strtoll (a ++ s) = strtoll (a ++ t) := by
  obtain ⟨b, a, rfl⟩ := List.exists_cons_of_ne_nil ha
  have hdrop : ∀ s : Bytes, dropSpaces (b :: a ++ s) = b :: (a ++ s) := fun s =>
    List.dropWhile_cons_of_neg (by simp [hspace b rfl])
  have hdigits : ∀ a : Bytes, (a ++ s).takeWhile isDigit = (a ++ t).takeWhile isDigit := fun a =>
    takeWhile_digits_congr hs ht
  simp only [strtoll, hdrop, readSign]
  split
  · rw [hdigits]
  · split
    · rw [hdigits]
    · rw [← List.cons_append, ← List.cons_append, hdigits]

/-- A text that begins with no sign and no digit has no number. -/
theorem strtoll_eq_none {s : Bytes} (h : ∀ b ∈ s.head?, isSpace b = false ∧ isAtom b = false) :
    strtoll s = none := by
  cases s with
  | nil => rfl
  | cons b s =>
    obtain ⟨hspace, hatom⟩ := h b rfl
    have hsign : b ≠ 45 ∧ b ≠ 43 := by
      constructor <;> rintro rfl <;> revert hatom <;> decide
    have hdigit : isDigit b = false := by
      rw [Bool.eq_false_iff]
      intro hdigit
      rw [isAtom_of_isDigit hdigit] at hatom
      cases hatom
    have hdrop : dropSpaces (b :: s) = b :: s := List.dropWhile_cons_of_neg (by simp [hspace])
    simp [strtoll, hdrop, readSign, hsign, hdigit]

/-- The token is part of a number or a word. -/
def isAtomToken : Token → Bool
  | .str _ => false
  | .gap b => isAtom b

theorem head_not_digit {t : Token} {ts : List Token} (h : isAtomToken t = false) :
    ∀ b ∈ (textOf (t :: ts)).head?, isDigit b = false := by
  intro b hb
  rw [Bool.eq_false_iff]
  intro hdigit
  have hatom := isAtom_of_isDigit hdigit
  cases t with
  | str s =>
    rw [textOf_str, List.head?_cons, Option.mem_some_iff] at hb
    subst hb
    revert hatom
    decide
  | gap c =>
    rw [textOf_gap, List.head?_cons, Option.mem_some_iff] at hb
    subst hb
    rw [isAtomToken, hatom] at h
    cases h

/-- Behind a value no number goes on, whatever white space is dropped. -/
theorem onOneLine_closed (h : Accepted .closed ts) :
    ∀ b ∈ (textOf (onOneLine ts)).head?, isDigit b = false := by
  induction ts with
  | nil => simp [onOneLine, strip]
  | cons t ts ih =>
    obtain ⟨next, hstep, hrest⟩ := Accepted.cons.mp h
    cases hkeeps : t.keeps isLineSpace with
    | true =>
      have hkeep : onOneLine (t :: ts) = t :: onOneLine ts := List.filter_cons_of_pos hkeeps
      rw [hkeep]
      refine head_not_digit ?_
      cases t with
      | str s => rfl
      | gap b =>
        rw [isAtomToken, Bool.eq_false_iff]
        intro hatom
        rw [Token.step, gapStep_atom hatom] at hstep
        cases hstep
    | false =>
      have hdrop : onOneLine (t :: ts) = onOneLine ts :=
        List.filter_cons_of_neg (by simp [hkeeps])
      rw [hdrop]
      cases t with
      | str s => cases hkeeps
      | gap b =>
        have hwhite := isWhite_of_isLineSpace b (by simpa [Token.keeps] using hkeeps)
        rw [Token.step, gapStep_white hwhite] at hstep
        cases hstep
        exact ih hrest

/-- Inside a number or a word, what follows it begins with no digit in both texts. -/
theorem inside_split (h : Accepted .inside ts) : ∃ (a : Bytes) (us : List Token),
    textOf ts = a ++ textOf us ∧ textOf (onOneLine ts) = a ++ textOf (onOneLine us) ∧
      (∀ b ∈ (textOf us).head?, isDigit b = false) ∧
      ∀ b ∈ (textOf (onOneLine us)).head?, isDigit b = false := by
  induction ts with
  | nil => exact ⟨[], [], rfl, rfl, by simp, by simp [onOneLine, strip]⟩
  | cons t ts ih =>
    obtain ⟨next, hstep, hrest⟩ := Accepted.cons.mp h
    cases hatom : isAtomToken t with
    | true =>
      cases t with
      | str s => cases hatom
      | gap b =>
        rw [Token.step, gapStep_atom hatom] at hstep
        cases hstep
        obtain ⟨a, us, htext, hline, hhead, hhead'⟩ := ih hrest
        refine ⟨b :: a, us, ?_, ?_, hhead, hhead'⟩
        · rw [textOf_gap, htext, List.cons_append]
        · rw [onOneLine_cons_solid (solid_of_atom hatom), textOf_gap, hline, List.cons_append]
    | false =>
      refine ⟨[], t :: ts, rfl, rfl, head_not_digit hatom, ?_⟩
      cases hkeeps : t.keeps isLineSpace with
      | true =>
        have hkeep : onOneLine (t :: ts) = t :: onOneLine ts := List.filter_cons_of_pos hkeeps
        rw [hkeep]
        exact head_not_digit hatom
      | false =>
        have hdrop : onOneLine (t :: ts) = onOneLine ts :=
          List.filter_cons_of_neg (by simp [hkeeps])
        rw [hdrop]
        cases t with
        | str s => cases hkeeps
        | gap b =>
          have hwhite := isWhite_of_isLineSpace b (by simpa [Token.keeps] using hkeeps)
          rw [Token.step, gapStep_white hwhite] at hstep
          cases hstep
          exact onOneLine_closed hrest

theorem strtoll_onOneLine (h : Accepted place ts) (hstarted : ∀ t ∈ ts.head?, t.solid) :
    strtoll (textOf ts) = strtoll (textOf (onOneLine ts)) := by
  cases ts with
  | nil => rfl
  | cons t ts =>
    have hsolid := hstarted t rfl
    obtain ⟨next, hstep, hrest⟩ := Accepted.cons.mp h
    rw [onOneLine_cons_solid hsolid]
    cases t with
    | str s =>
      have hnone : ∀ us : List Token, strtoll (textOf (.str s :: us)) = none := fun us =>
        strtoll_eq_none (by
          rw [textOf_str]
          intro b hb
          rw [← Option.mem_some_iff.mp hb]
          decide)
      rw [hnone, hnone]
    | gap b =>
      have hspace : isSpace b = false := by simpa [Token.solid] using hsolid
      cases hatom : isAtom b with
      | true =>
        rw [Token.step, gapStep_atom hatom] at hstep
        split at hstep
        · cases hstep
        · cases hstep
          obtain ⟨a, us, htext, hline, hhead, hhead'⟩ := inside_split hrest
          rw [textOf_gap, textOf_gap, htext, hline]
          exact strtoll_append_congr (a := b :: a) (by simp) (by simpa using hspace) hhead hhead'
      | false =>
        have hnone : ∀ us : List Token, strtoll (textOf (.gap b :: us)) = none := fun us =>
          strtoll_eq_none (by simp [hspace, hatom])
        rw [hnone, hnone]

/-! ## The line -/

section line

variable {key : String}

theorem findFieldValue_onOneLine (hkey : LineKey key) (h : Accepted place ts) :
    findFieldValue (textOf (onOneLine ts)) key =
      ((fieldTokens (bytes key) ts).map onOneLine).map textOf := by
  rw [← fieldTokens_onOneLine]
  exact findFieldValue_textOf hkey (accepted_strip isWhite_of_isLineSpace (.inl rfl) h)

theorem readString_onOneLine (hkey : LineKey key) (h : Accepted place ts) (size : Nat) :
    wtJsonReadString (textOf (onOneLine ts)) key size = wtJsonReadString (textOf ts) key size := by
  unfold wtJsonReadString
  rw [findFieldValue_onOneLine hkey h, findFieldValue_textOf hkey h]
  cases hfield : fieldTokens (bytes key) ts with
  | none => rfl
  | some us =>
    simp only [Option.map_some]
    cases us with
    | nil => rfl
    | cons t us =>
      rw [onOneLine_cons_solid (solid_of_fieldTokens hfield)]
      cases t with
      | str s =>
        rw [textOf_str, textOf_str]
        dsimp only
        rw [copyString_escaped (escaped_chars s), copyString_escaped (escaped_chars s)]
      | gap b =>
        obtain ⟨place', hus⟩ := h.suffix (fieldTokens_suffix hfield)
        obtain ⟨next, hstep, -⟩ := Accepted.cons.mp hus
        have hb : b ≠ quote := by
          rintro rfl
          cases place' <;> cases hstep
        rw [textOf_gap, textOf_gap]
        dsimp only
        rw [if_pos (.inl hb), if_pos (.inl hb)]

theorem readLong_onOneLine (hkey : LineKey key) (h : Accepted place ts) :
    wtJsonReadLong (textOf (onOneLine ts)) key = wtJsonReadLong (textOf ts) key := by
  unfold wtJsonReadLong
  rw [findFieldValue_onOneLine hkey h, findFieldValue_textOf hkey h]
  cases hfield : fieldTokens (bytes key) ts with
  | none => rfl
  | some us =>
    obtain ⟨place', hus⟩ := h.suffix (fieldTokens_suffix hfield)
    simp only [Option.map_some, Option.bind_some]
    refine (strtoll_onOneLine hus ?_).symm
    rintro t ht
    cases us with
    | nil => cases ht
    | cons t' us =>
      cases ht
      exact solid_of_fieldTokens hfield

end line

end readers

/-- All readers find the same in the text and the line. -/
structure ReadAlike (text line : Bytes) (key : String) : Prop where
  string : ∀ size, wtJsonReadString line key size = wtJsonReadString text key size
  long : wtJsonReadLong line key = wtJsonReadLong text key
  longLong : wtJsonReadLongLong line key = wtJsonReadLongLong text key

def OneLine (line : Bytes) : Prop := ∀ b ∈ line, b ≠ 10 ∧ b ≠ 13 ∧ b ≠ 9

/-- **A JSON text and its compacted line are read alike, and the line is one line.** -/
theorem compactJsonLine_reads {text : Bytes} {outputSize : Nat} (hjson : IsJson text)
    (hfits : text.length < outputSize) :
    (∀ key, LineKey key → ReadAlike text (compactJsonLine text outputSize) key) ∧
      OneLine (compactJsonLine text outputSize) := by
  obtain ⟨ts, rfl, h⟩ := accepted_of_isJson hjson
  rw [compactJsonLine_render h hfits]
  refine ⟨fun key hkey => ⟨readString_onOneLine hkey h, readLong_onOneLine hkey h,
    readLong_onOneLine hkey h⟩, fun b hb => ?_⟩
  have hline := oneLine_onOneLine ts b hb
  simp only [isLineSpace, Bool.or_eq_false_iff, beq_eq_false_iff_ne] at hline
  exact ⟨hline.1.1, hline.1.2, hline.2⟩

/-- An array of two strings on two lines. -/
def twoLines : Bytes := bytes "[\"a\",\n\":1\"]"

theorem isJson_twoLines : IsJson twoLines := by
  have hstring : ∀ name w : Bytes, isPlainName name → White w →
      IsJson (w ++ quote :: (name ++ [quote])) := by
    intro name w hname hw
    obtain ⟨s, hs⟩ := exists_jsonString hname
    exact ⟨w, s.render, [], hw, by simp [White], .string s, by rw [hs, List.append_nil]⟩
  have hall : ∀ text ∈ [bytes "\"a\"", bytes "\n\":1\""], IsJson text := by
    intro text htext
    rcases List.mem_pair.mp htext with rfl | rfl
    · exact hstring (bytes "a") [] (by decide) (by simp [White])
    · exact hstring (bytes ":1") [10] (by decide) (by simp [White, isWhite])
  exact (value_arrayText hall).isJson

theorem lineKey_id : LineKey "id" :=
  ⟨by decide, by decide, by decide, .inr (by decide +kernel)⟩

theorem compactJsonLine_reads_twoLines :
    ReadAlike twoLines (compactJsonLine twoLines 100) "id" ∧
      OneLine (compactJsonLine twoLines 100) :=
  have hreads := @compactJsonLine_reads twoLines 100 isJson_twoLines (by decide)
  ⟨hreads.1 "id" lineKey_id, hreads.2⟩

/-- A comma as the key is found between the strings once they stand on one line. -/
theorem not_compactJsonLine_reads : ¬ ∀ (text : Bytes) (outputSize : Nat), IsJson text →
    text.length < outputSize → (∀ key, ReadAlike text (compactJsonLine text outputSize) key) ∧
      OneLine (compactJsonLine text outputSize) := by
  intro hall
  have hlong := ((hall twoLines 100 isJson_twoLines (by decide)).1 ",").long
  exact absurd hlong (by decide +kernel)

end WovenTeam

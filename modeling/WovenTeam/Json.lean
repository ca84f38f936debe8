import WovenTeam.Lib.QuotedText

/-!
# JSON escaping and field extraction

`wt_json.c`: one function that escapes text into a string literal and readers that take a field
out of a line by searching for its quoted key. They do not parse: a key is found wherever its
quoted name stands in front of a colon, at any depth and inside other text.

`findFieldValue_object` says what the search finds in a record the program printed itself, and
`wtJsonReadString_object`, `wtJsonReadLong_object` what the readers return from one.
-/

namespace WovenTeam

open CText QuotedText

/-! ## Escaping -/

def hexDigit (n : Nat) : UInt8 := if n < 10 then 48 + n.toUInt8 else 87 + n.toUInt8

/-- The piece `wtJsonEscape` writes for one byte. -/
def escapePiece (b : UInt8) : Bytes :=
  if b = quote ∨ b = backslash then [backslash, b]
  else if b = 10 then bytes "\\n"
  else if b = 13 then bytes "\\r"
  else if b = 9 then bytes "\\t"
  else if b < 32 then bytes "\\u00" ++ [hexDigit (b.toNat / 16), hexDigit (b.toNat % 16)]
  else [b]

def unescapeByte (b : UInt8) : UInt8 :=
  if b = 110 then 10 else if b = 114 then 13 else if b = 116 then 9 else b

/-- What reading gives back of one escaped byte: control bytes other than the three with a letter
of their own come back as the letters of their `\u` form. -/
def rereadByte (b : UInt8) : Bytes :=
  if b < 32 ∧ b ≠ 10 ∧ b ≠ 13 ∧ b ≠ 9 then
    bytes "u00" ++ [hexDigit (b.toNat / 16), hexDigit (b.toNat % 16)]
  else [b]

def reread (s : Bytes) : Bytes := s.flatMap rereadByte

theorem rereadByte_ne_nil (b : UInt8) : rereadByte b ≠ [] := by
  unfold rereadByte
  split
  · exact List.append_ne_nil_of_right_ne_nil _ (List.cons_ne_nil _ _)
  · exact List.cons_ne_nil _ _

theorem reread_eq_nil_iff {s : Bytes} : reread s = [] ↔ s = [] := by
  cases s with
  | nil => simp [reread]
  | cons b t => simp [reread, rereadByte_ne_nil]

theorem plain_rereadByte {b : UInt8} (hq : b ≠ quote) (hb : b ≠ backslash) (hn : b ≠ newline) :
    Plain (rereadByte b) := by
  unfold rereadByte
  split
  · rename_i h
    have hlt : b.toNat < 32 := h.1
    have hx : ∀ n < 16, hexDigit n ≠ quote ∧ hexDigit n ≠ backslash ∧ hexDigit n ≠ newline := by
      decide
    intro c hc
    simp only [List.mem_append, List.mem_cons, List.not_mem_nil, or_false] at hc
    rcases hc with hc | rfl | rfl
    · have : Plain (bytes "u00") := by decide
      exact this c hc
    · exact hx _ (by omega)
    · exact hx _ (by omega)
  · intro c hc
    rw [List.mem_singleton.mp hc]
    exact ⟨hq, hb, hn⟩

/-- Every piece is an escape of one byte in front of plain bytes, or plain. -/
theorem escapePiece_cases (b : UInt8) :
    (∃ e, e ≠ newline ∧ escapePiece b = backslash :: e :: (rereadByte b).tail ∧
        rereadByte b = unescapeByte e :: (rereadByte b).tail ∧ Plain (rereadByte b).tail) ∨
      (escapePiece b = [b] ∧ rereadByte b = [b] ∧ b ≠ quote ∧ b ≠ backslash ∧ b ≠ newline) := by
  by_cases hq : b = quote ∨ b = backslash
  · rcases hq with rfl | rfl
    · exact .inl ⟨quote, by decide, by decide, by decide, by decide⟩
    · exact .inl ⟨backslash, by decide, by decide, by decide, by decide⟩
  · have hq' := not_or.mp hq
    by_cases h10 : b = 10
    · subst h10
      exact .inl ⟨110, by decide, by decide, by decide, by decide⟩
    by_cases h13 : b = 13
    · subst h13
      exact .inl ⟨114, by decide, by decide, by decide, by decide⟩
    by_cases h9 : b = 9
    · subst h9
      exact .inl ⟨116, by decide, by decide, by decide, by decide⟩
    by_cases hlt : b < 32
    · refine .inl ⟨117, by decide, ?_, ?_, ?_⟩
      · simp only [escapePiece, rereadByte, hq, h10, h13, h9, hlt, ↓reduceIte, ne_eq,
          not_false_eq_true, and_self]
        rfl
      · simp only [rereadByte, h10, h13, h9, hlt, ↓reduceIte, ne_eq, not_false_eq_true, and_self]
        rfl
      · exact fun c hc => plain_rereadByte hq'.1 hq'.2 h10 c (List.mem_of_mem_tail hc)
    · refine .inr ⟨?_, ?_, hq'.1, hq'.2, h10⟩
      · simp [escapePiece, hq, h10, h13, h9, hlt]
      · simp [rereadByte, hlt]

theorem escaped_escape (s : Bytes) : Escaped (s.flatMap escapePiece) := by
  induction s with
  | nil => exact .nil
  | cons b t ih =>
    rw [List.flatMap_cons]
    rcases escapePiece_cases b with ⟨e, hn, hp, -, hplain⟩ | ⟨hp, -, hq, hb, hn⟩
    · rw [hp]
      exact .escape hn ((Escaped.of_plain hplain).append ih)
    · rw [hp]
      exact .byte hq hb hn ih

/-- The escaped text, or nothing where it does not fit the output buffer. -/
def wtJsonEscape (input : Bytes) (outputSize : Nat) : Option Literal :=
  if (input.flatMap escapePiece).length + 1 > outputSize then none
  else some ⟨input.flatMap escapePiece, escaped_escape input⟩

/-! ## Reading -/

/-- What `wtJsonReadString` does to its buffer: nothing where the field is missing or not a
string; the part read so far where it is too long or not closed; else the value. Only the last
is a success. -/
inductive StringField where
  | absent
  | cut (written : Bytes)
  | ok (value : Bytes)
  deriving DecidableEq, Repr

/-- `readOptionalString` with a constant fallback. -/
def StringField.orElse : StringField → Bytes → Bytes
  | .ok value, _ => value
  | _, fallback => fallback

/-- `readOptionalString` with the buffer itself as the fallback: a failed read leaves in it what
it had written. -/
def StringField.overwrite : StringField → Bytes → Bytes
  | .absent, old => old
  | .cut written, _ => written
  | .ok value, _ => value

def StringField.toOption : StringField → Option Bytes
  | .ok value => some value
  | _ => none

/-- The text an attempted read leaves in the buffer, where it writes to it. -/
def StringField.written : StringField → Option Bytes
  | .absent => none
  | .cut text => some text
  | .ok text => some text

theorem StringField.overwrite_eq (r : StringField) (old : Bytes) :
    r.overwrite old = r.written.getD old := by cases r <;> rfl

theorem StringField.orElse_eq (r : StringField) (fallback : Bytes) :
    r.orElse fallback = r.toOption.getD fallback := by cases r <;> rfl

theorem StringField.toOption_eq_some_iff {r : StringField} {value : Bytes} :
    r.toOption = some value ↔ r = .ok value := by cases r <;> simp [StringField.toOption]

/-- The search loop of `findFieldValue`; each round consumes a match of the pattern, so `fuel`
beyond the length of the text is never used. -/
def findFieldFrom (pattern : Bytes) : Nat → Bytes → Option Bytes
  | 0, _ => none
  | fuel + 1, cursor =>
    match strstr pattern cursor with
    | none => none
    | some found =>
      match dropSpaces (found.drop pattern.length) with
      | [] => findFieldFrom pattern fuel []
      | b :: rest =>
        if b = colon then some (dropSpaces rest) else findFieldFrom pattern fuel (b :: rest)

/-- The text of the value of the first `"key"` that a colon follows. -/
def findFieldValue (json : Bytes) (key : String) : Option Bytes :=
  findFieldFrom (snprintf 128 (quoted (bytes key))) (json.length + 1) json

/-- The copy loop of `wtJsonReadString` with `room` bytes left in the buffer: what it writes, and
whether it reached the closing quote. -/
def copyString : Nat → Bytes → Bytes × Bool
  | _, [] => ([], false)
  | 0, b :: _ => ([], b == quote)
  | room + 1, b :: t =>
    if b = quote then ([], true)
    else if b = backslash then
      match t with
      | [] => ([], false)
      | e :: t => ((unescapeByte e) :: (copyString room t).1, (copyString room t).2)
    else (b :: (copyString room t).1, (copyString room t).2)

def wtJsonReadString (json : Bytes) (key : String) (outputSize : Nat) : StringField :=
  match findFieldValue json key with
  | none => .absent
  | some [] => .absent
  | some (b :: cursor) =>
    if b ≠ quote ∨ outputSize = 0 then .absent
    else
      let copied := copyString (outputSize - 1) cursor
      if copied.2 then .ok copied.1 else .cut copied.1

/-- `wtJsonReadLong` and `wtJsonReadLongLong`: both types have 64 bits. -/
def wtJsonReadLong (json : Bytes) (key : String) : Option Int :=
  (findFieldValue json key).bind strtoll

def wtJsonReadLongLong (json : Bytes) (key : String) : Option Int := wtJsonReadLong json key

theorem wtJsonReadLong_range {json : Bytes} {key : String} {n : Int}
    (h : wtJsonReadLong json key = some n) :
    -2 ^ 63 ≤ n ∧ n < 2 ^ 63 := by
  obtain ⟨s, -, hs⟩ := Option.bind_eq_some_iff.mp h
  exact strtoll_range hs

theorem copyString_length (room : Nat) (s : Bytes) : (copyString room s).1.length ≤ room := by
  fun_induction copyString room s with
  | case1 => simp
  | case2 => simp
  | case3 => simp
  | case4 => simp
  | case5 => simp_all
  | case6 => simp_all

theorem copyString_mono {room room' : Nat} (hle : room ≤ room') {s : Bytes}
    (h : (copyString room s).2 = true) : copyString room' s = copyString room s := by
  fun_induction copyString room s generalizing room' with
  | case1 => cases h
  | case2 b t =>
    have hb : b = quote := by simpa using h
    cases room' <;> simp [copyString, hb]
  | case3 room t =>
    cases room' with
    | zero => omega
    | succ room' => simp [copyString]
  | case4 => cases h
  | case5 room e t hq ih =>
    cases room' with
    | zero => omega
    | succ room' => simp only [copyString, hq, ↓reduceIte, ih (Nat.le_of_succ_le_succ hle) h]
  | case6 room b t hq hb ih =>
    cases room' with
    | zero => omega
    | succ room' =>
      rw [copyString.eq_def]
      simp only [hq, hb, ↓reduceIte, ih (Nat.le_of_succ_le_succ hle) h]

/-- A larger buffer takes the same value. -/
theorem wtJsonReadString_mono {json : Bytes} {key : String} {size size' : Nat} (hle : size ≤ size')
    {value : Bytes} (h : wtJsonReadString json key size = .ok value) :
    wtJsonReadString json key size' = .ok value := by
  unfold wtJsonReadString at h ⊢
  split at h
  · cases h
  · cases h
  · rename_i b cursor _
    split at h
    · cases h
    · rename_i hb
      simp only at h ⊢
      split at h
      · rename_i hdone
        have hb' : ¬ (b ≠ quote ∨ size' = 0) := by
          rw [not_or] at hb ⊢
          exact ⟨hb.1, by omega⟩
        rw [if_neg hb', copyString_mono (by omega) hdone, if_pos hdone, ← h]
      · cases h

theorem copyString_shrink {room room' : Nat} {s : Bytes} (h : (copyString room' s).2 = true)
    (hlen : (copyString room' s).1.length ≤ room) : copyString room s = copyString room' s := by
  fun_induction copyString room' s generalizing room with
  | case1 => cases h
  | case2 b t =>
    have hb : b = quote := by simpa using h
    cases room <;> simp [copyString, hb]
  | case3 room' t => cases room <;> simp [copyString]
  | case4 => cases h
  | case5 room' e t hq ih =>
    cases room with
    | zero => simp at hlen
    | succ room =>
      have hlen' : (copyString room' t).1.length ≤ room := by simpa using hlen
      simp only [copyString, hq, ↓reduceIte, ih h hlen']
  | case6 room' b t hq hb ih =>
    cases room with
    | zero => simp at hlen
    | succ room =>
      have hlen' : (copyString room' t).1.length ≤ room := by simpa using hlen
      rw [copyString.eq_def]
      simp only [hq, hb, ↓reduceIte, ih h hlen']

/-- A smaller buffer takes the same value if it fits. -/
theorem wtJsonReadString_shrink {json : Bytes} {key : String} {size size' : Nat} {value : Bytes}
    (h : wtJsonReadString json key size' = .ok value) (hlen : value.length < size) :
    wtJsonReadString json key size = .ok value := by
  unfold wtJsonReadString at h ⊢
  split at h
  · cases h
  · cases h
  · rename_i b cursor _
    split at h
    · cases h
    · rename_i hb
      simp only at h ⊢
      split at h
      · rename_i hdone
        have hvalue : (copyString (size' - 1) cursor).1 = value := by
          injection h
        have hb' : ¬ (b ≠ quote ∨ size = 0) := by
          rw [not_or] at hb ⊢
          exact ⟨hb.1, by omega⟩
        have hcopied : copyString (size - 1) cursor = copyString (size' - 1) cursor :=
          copyString_shrink hdone (by rw [hvalue]; omega)
        rw [if_neg hb', hcopied, if_pos hdone, ← h]
      · cases h

theorem wtJsonReadString_length {json : Bytes} {key : String} {size : Nat} {value : Bytes}
    (h : wtJsonReadString json key size = .ok value) : value.length < size := by
  unfold wtJsonReadString at h
  split at h
  · cases h
  · cases h
  · rename_i b cursor _
    have := copyString_length (size - 1) cursor
    split at h
    · cases h
    · rename_i hb
      simp only at h
      split at h
      · cases h
        omega
      · cases h

/-! ## Trailing white space -/

theorem copyString_byte {b : UInt8} (hq : b ≠ quote) (hb : b ≠ backslash) (room : Nat)
    (t : Bytes) :
    copyString (room + 1) (b :: t) = (b :: (copyString room t).1, (copyString room t).2) := by
  cases t <;> simp [copyString, hq, hb]

theorem quote_notMem_spaces {tail : Bytes} (ht : ∀ b ∈ tail, isSpace b) : quote ∉ tail :=
  fun h => absurd (ht quote h) (by decide)

theorem findFieldFrom_nil {pattern : Bytes} (h : pattern ≠ []) (fuel : Nat) :
    findFieldFrom pattern fuel [] = none := by
  cases fuel with
  | zero => rfl
  | succ fuel => simp [findFieldFrom, strstr, h]

theorem findFieldFrom_append {p : Bytes} {tail : Bytes} (ht : ∀ b ∈ tail, isSpace b)
    {fuel fuel' : Nat} {s : Bytes} (hf : s.length < fuel) (hf' : s.length < fuel') :
    findFieldFrom (p ++ [quote]) fuel' (s ++ tail) =
      (findFieldFrom (p ++ [quote]) fuel s).map fun value => dropSpaces (value ++ tail) := by
  induction fuel generalizing fuel' s with
  | zero => omega
  | succ fuel ih =>
    cases fuel' with
    | zero => omega
    | succ fuel' =>
      rw [findFieldFrom, findFieldFrom, strstr_append (quote_notMem_spaces ht)]
      cases hfound : strstr (p ++ [quote]) s with
      | none => rfl
      | some found =>
        obtain ⟨rest, hrest, hshort⟩ : ∃ rest, found = (p ++ [quote]) ++ rest ∧
            rest.length < s.length := by
          obtain ⟨pre, rest, hs, hfd⟩ := strstr_eq_some hfound
          refine ⟨rest, hfd, ?_⟩
          rw [hs]
          simp only [List.length_append, List.length_singleton]
          omega
        have hdrop : (found ++ tail).drop (p ++ [quote]).length = rest ++ tail := by
          rw [hrest, List.append_assoc, List.drop_left]
        have hdrop' : found.drop (p ++ [quote]).length = rest := by
          rw [hrest, List.drop_left]
        simp only [Option.map_some, hdrop, hdrop']
        cases hd : dropSpaces rest with
        | nil =>
          have hall : dropSpaces (rest ++ tail) = [] := by
            rw [← dropSpaces_append_dropSpaces, hd]
            exact dropSpaces_eq_nil_iff.mpr ht
          simp only [hall]
          rw [findFieldFrom_nil (by simp), findFieldFrom_nil (by simp)]
          rfl
        | cons b t =>
          have hb := not_isSpace_of_dropSpaces hd
          have hd' : dropSpaces (rest ++ tail) = b :: (t ++ tail) := by
            rw [← dropSpaces_append_dropSpaces, hd]
            simp [dropSpaces, hb]
          have hlen : (b :: t).length ≤ rest.length := by
            rw [← hd]
            exact (List.dropWhile_suffix _).length_le
          simp only [hd']
          split
          · rw [Option.map_some, dropSpaces_append_dropSpaces]
          · exact ih (s := b :: t) (by omega) (by omega)

theorem findFieldFrom_trimmed {pattern s v : Bytes} {fuel : Nat}
    (h : findFieldFrom pattern fuel s = some v) : dropSpaces v = v := by
  induction fuel generalizing s with
  | zero => cases h
  | succ fuel ih =>
    rw [findFieldFrom] at h
    split at h
    · cases h
    · split at h
      · exact ih h
      · split at h
        · cases h
          exact dropSpaces_dropSpaces _
        · exact ih h

theorem findFieldFrom_suffix {pattern value : Bytes} {fuel : Nat} {json : Bytes}
    (h : findFieldFrom pattern fuel json = some value) : value <:+ json := by
  induction fuel generalizing json with
  | zero => cases h
  | succ fuel ih =>
    rw [findFieldFrom] at h
    cases hfound : strstr pattern json with
    | none =>
      rw [hfound] at h
      cases h
    | some found =>
      obtain ⟨pre, rest, hjson, hfd⟩ := strstr_eq_some hfound
      have hrest : dropSpaces (found.drop pattern.length) <:+ json := by
        refine (List.dropWhile_suffix _).trans ((List.drop_suffix _ _).trans ?_)
        rw [hjson, hfd]
        exact List.suffix_append _ _
      rw [hfound] at h
      dsimp only at h
      split at h
      · exact (ih h).trans List.nil_suffix
      · rename_i b t htext
        rw [htext] at hrest
        split at h
        · cases h
          exact (List.dropWhile_suffix _).trans ((List.suffix_cons b t).trans hrest)
        · exact (ih h).trans hrest

/-- The pattern ends in a quote: all keys in use are far shorter than its buffer. -/
def KeyFits (k : String) : Prop := (bytes k).length < 126

instance (k : String) : Decidable (KeyFits k) := by unfold KeyFits; infer_instance

theorem pattern_eq {k : String} (hk : KeyFits k) :
    snprintf 128 (quoted (bytes k)) = (quote :: bytes k) ++ [quote] := by
  rw [snprintf_of_lt]
  · rfl
  · simp only [KeyFits] at hk
    simp only [quoted, quotedThen, List.length_cons, List.length_append, List.length_nil]
    omega

theorem findFieldValue_append {k : String} (hk : KeyFits k) {s tail : Bytes}
    (ht : ∀ b ∈ tail, isSpace b) :
    findFieldValue (s ++ tail) k =
      (findFieldValue s k).map fun value => dropSpaces (value ++ tail) := by
  rw [findFieldValue, findFieldValue, pattern_eq hk]
  exact findFieldFrom_append ht (by omega) (by simp only [List.length_append]; omega)

theorem copyString_no_quote {room : Nat} {s : Bytes} (h : quote ∉ s) :
    (copyString room s).2 = false := by
  fun_induction copyString room s with
  | case1 => rfl
  | case2 b t => exact beq_false_of_ne fun hb => h (by simp [hb])
  | case3 => simp_all
  | case4 => rfl
  | case5 => simp_all
  | case6 => simp_all

theorem copyString_append {room : Nat} {s tail : Bytes} (h : quote ∉ tail) :
    (copyString room (s ++ tail)).2 = (copyString room s).2 ∧
      ((copyString room s).2 = true → copyString room (s ++ tail) = copyString room s) := by
  fun_induction copyString room s with
  | case1 room => simp [copyString_no_quote h]
  | case2 b t => simp [copyString]
  | case3 room t => simp [copyString]
  | case4 room hq =>
    have hb : backslash ≠ quote := by decide
    cases tail with
    | nil => simp [copyString, hb]
    | cons e t =>
      have : quote ∉ t := fun hm => h (by simp [hm])
      simp [copyString, hb, copyString_no_quote this]
  | case5 room hq e t ih =>
    have hb : backslash ≠ quote := by decide
    simp only [List.cons_append, copyString, hb, ↓reduceIte, ih.1, true_and]
    intro h2
    rw [ih.2 h2]
  | case6 room b t hq hb ih =>
    rw [List.cons_append, copyString_byte hq hb]
    refine ⟨ih.1, fun h2 => ?_⟩
    rw [ih.2 h2]

/-- What a reader returns does not change with white space at the end of the line; what a failed
read leaves in the buffer may. -/
theorem wtJsonReadString_append {k : String} (hk : KeyFits k) {s tail : Bytes}
    (ht : ∀ b ∈ tail, isSpace b) (size : Nat) :
    (wtJsonReadString (s ++ tail) k size).toOption = (wtJsonReadString s k size).toOption := by
  rw [wtJsonReadString, wtJsonReadString, findFieldValue_append hk ht]
  cases hv : findFieldValue s k with
  | none => rfl
  | some v =>
    have htrim : dropSpaces v = v := findFieldFrom_trimmed hv
    cases v with
    | nil =>
      have : dropSpaces ([] ++ tail) = [] := dropSpaces_eq_nil_iff.mpr ht
      simp only [Option.map_some, this]
    | cons b cursor =>
      have hb := not_isSpace_of_dropSpaces htrim
      have hd : dropSpaces (b :: cursor ++ tail) = b :: (cursor ++ tail) := by
        simp [dropSpaces, hb]
      have hcopy := @copyString_append (size - 1) cursor tail (quote_notMem_spaces ht)
      simp only [Option.map_some, hd]
      split
      · rfl
      · cases h2 : (copyString (size - 1) cursor).2 with
        | true => rw [hcopy.2 h2, h2]
        | false =>
          rw [hcopy.1, h2]
          rfl

theorem wtJsonReadLong_append {k : String} (hk : KeyFits k) {s tail : Bytes}
    (ht : ∀ b ∈ tail, isSpace b) : wtJsonReadLong (s ++ tail) k = wtJsonReadLong s k := by
  rw [wtJsonReadLong, wtJsonReadLong, findFieldValue_append hk ht]
  cases hv : findFieldValue s k with
  | none => rfl
  | some v =>
    have htrim : dropSpaces v = v := findFieldFrom_trimmed hv
    have hsp : strtoll (dropSpaces (v ++ tail)) = strtoll (v ++ tail) := by
      simp only [strtoll, dropSpaces_dropSpaces]
    simp only [Option.map_some, Option.bind_some, hsp, strtoll_append_spaces htrim ht]

/-! ## Reading what was escaped -/

/-- The text of an escaped string, as the copy loop decodes it. -/
def unescape : Bytes → Bytes
  | [] => []
  | [b] => [b]
  | b :: e :: t => if b = backslash then unescapeByte e :: unescape t else b :: unescape (e :: t)

theorem unescape_byte {b : UInt8} (h : b ≠ backslash) (t : Bytes) :
    unescape (b :: t) = b :: unescape t := by
  cases t <;> simp [unescape, h]

theorem unescape_of_plain {s : Bytes} (h : Plain s) : unescape s = s := by
  induction s with
  | nil => rfl
  | cons b t ih =>
    rw [unescape_byte (h b (by simp)).2.1, ih fun c hc => h c (by simp [hc])]

theorem copyString_escaped {c : Bytes} (hc : Escaped c) (room : Nat) (T : Bytes) :
    copyString room (c ++ quote :: T) =
      if (unescape c).length ≤ room then (unescape c, true)
      else ((unescape c).take room, false) := by
  induction hc generalizing room with
  | nil => cases room <;> simp [copyString, unescape]
  | @byte b t hq hb _ ht ih =>
    cases room with
    | zero => simp [copyString, unescape_byte hb, hq]
    | succ room =>
      rw [unescape_byte hb, List.cons_append, copyString_byte hq hb, ih room]
      simp only [List.length_cons, Nat.add_le_add_iff_right]
      split <;> rfl
  | @escape e t _ ht ih =>
    cases room with
    | zero => simp [copyString, unescape, show backslash ≠ quote by decide]
    | succ room =>
      simp only [List.cons_append, copyString, show backslash ≠ quote by decide, ↓reduceIte,
        ih room, unescape, List.length_cons, Nat.add_le_add_iff_right]
      split <;> rfl

theorem unescape_append_plain {s t : Bytes} (hs : Plain s) :
    unescape (s ++ t) = s ++ unescape t := by
  induction s with
  | nil => rfl
  | cons b s ih =>
    rw [List.cons_append, unescape_byte (hs b (by simp)).2.1, ih fun c hc => hs c (by simp [hc]),
      List.cons_append]

theorem unescape_escape (s : Bytes) : unescape (s.flatMap escapePiece) = reread s := by
  induction s with
  | nil => rfl
  | cons b t ih =>
    rw [reread, List.flatMap_cons, List.flatMap_cons]
    rcases escapePiece_cases b with ⟨e, -, hp, hr, hplain⟩ | ⟨hp, hr, -, hb, -⟩
    · rw [hp, List.cons_append, List.cons_append, unescape, if_pos rfl,
        unescape_append_plain hplain, ih, hr]
      rfl
    · rw [hp, hr, List.singleton_append, unescape_byte hb, ih]
      rfl

theorem wtJsonEscape_eq {input : Bytes} {output : Literal} {size : Nat}
    (h : wtJsonEscape input size = some output) :
    unescape output.text = reread input ∧ output.text.length < size := by
  unfold wtJsonEscape at h
  split at h
  · cases h
  · cases h
    exact ⟨unescape_escape input, by dsimp only; omega⟩

/-! ### Which arguments fit -/

/-- The text fits a buffer when it is escaped. -/
def EscapeFits (text : Bytes) (size : Nat) : Prop := (text.flatMap escapePiece).length < size

instance (text : Bytes) (size : Nat) : Decidable (EscapeFits text size) := by
  unfold EscapeFits
  infer_instance

theorem wtJsonEscape_of_fits {text : Bytes} {size : Nat} (h : EscapeFits text size) :
    ∃ escaped, wtJsonEscape text size = some escaped := by
  unfold wtJsonEscape EscapeFits at *
  rw [if_neg (by omega)]
  exact ⟨_, rfl⟩

theorem escapeFits_of_escape {text : Bytes} {size : Nat} {escaped : Literal}
    (h : wtJsonEscape text size = some escaped) : EscapeFits text size := by
  unfold wtJsonEscape at h
  split at h
  · cases h
  · unfold EscapeFits
    omega

theorem length_escapePiece_le (b : UInt8) : (escapePiece b).length ≤ 6 := by
  unfold escapePiece
  split_ifs <;> simp [show (bytes "\\n").length = 2 by decide, show (bytes "\\r").length = 2 by decide,
    show (bytes "\\t").length = 2 by decide, show (bytes "\\u00").length = 4 by decide]

theorem length_escape_append (s t : Bytes) :
    ((s ++ t).flatMap escapePiece).length =
      (s.flatMap escapePiece).length + (t.flatMap escapePiece).length := by
  simp

theorem length_escape_le (s : Bytes) : (s.flatMap escapePiece).length ≤ 6 * s.length := by
  induction s with
  | nil => simp
  | cons b s ih =>
    have := length_escapePiece_le b
    simp only [List.flatMap_cons, List.length_append, List.length_cons]
    omega

theorem escapeFits_snprintf {s : Bytes} {size : Nat} (h : EscapeFits s size) (room : Nat) :
    EscapeFits (snprintf room s) size := by
  have hsplit := length_escape_append (s.take (room - 1)) (s.drop (room - 1))
  rw [List.take_append_drop] at hsplit
  unfold EscapeFits snprintf at *
  omega

/-! ## Searching a printed record -/

theorem findFieldFrom_congr {pattern s t : Bytes} (h : strstr pattern s = strstr pattern t)
    (fuel : Nat) : findFieldFrom pattern fuel s = findFieldFrom pattern fuel t := by
  cases fuel with
  | zero => rfl
  | succ fuel => simp only [findFieldFrom, h]

theorem dropSpaces_punct {b : UInt8} {t : Bytes} (h : isPunct b) :
    dropSpaces (b :: t) = b :: t := by
  have : isSpace b = false := by
    simp only [isPunct, Bool.or_eq_true, beq_iff_eq] at h
    rcases h with ((rfl | rfl) | rfl) | rfl <;> decide
  simp [dropSpaces, this]

theorem findFieldFrom_render {k : Bytes} (hk : Word k) {is : List Item} (h : ∀ i ∈ is, i.Ok)
    {pre tail : Bytes} (hpre : quote ∉ pre) (ht : quote ∉ tail) {fuel : Nat}
    (hfuel : is.length < fuel) :
    findFieldFrom (quoted k) fuel (pre ++ (render is ++ tail)) =
      (lookup k is).map fun value => dropSpaces (value ++ tail) := by
  induction is generalizing pre fuel with
  | nil =>
    cases fuel with
    | zero => omega
    | succ fuel =>
      have : strstr (quoted k) (pre ++ (render [] ++ tail)) = none := by
        rw [quoted, quotedThen, strstr_skip hpre]
        have := @strstr_skip quote (k ++ [quote]) tail [] ht
        simpa [render, strstr] using this
      simp only [findFieldFrom, this, lookup, Option.map_none]
  | cons i is ih =>
    have hi := h i (by simp)
    have his : ∀ j ∈ is, j.Ok := fun j hj => h j (by simp [hj])
    have hfuel' : is.length + 1 < fuel := by simpa using hfuel
    obtain ⟨b, hb, hpunct⟩ := hi.punct
    obtain ⟨f, hf⟩ : ∃ f, i.follow = b :: f := by
      cases hfol : i.follow with
      | nil => simp [hfol] at hb
      | cons c f =>
        simp only [hfol, List.head?_cons, Option.mem_some_iff] at hb
        exact ⟨f, by rw [hb]⟩
    have hs : strstr (quoted k) (pre ++ (render (i :: is) ++ tail)) =
        if hit k i.text then some (quoted k ++ (i.follow ++ (render is ++ tail)))
        else strstr (quoted k) (render is ++ tail) := by
      have := strstr_item (m := []) hk hi (render is ++ tail)
      simp only [List.nil_prefix, and_true] at this
      rw [← quoted] at this
      rw [← this, render_cons]
      simp only [List.cons_append, List.append_assoc]
      exact strstr_skip hpre
    by_cases hhit : hit k i.text
    · cases fuel with
      | zero => omega
      | succ fuel =>
        rw [if_pos hhit] at hs
        have hdrop : (quoted k ++ (i.follow ++ (render is ++ tail))).drop (quoted k).length =
            b :: (f ++ (render is ++ tail)) := by
          rw [List.drop_left, hf, List.cons_append]
        rw [findFieldFrom, hs]
        simp only [hdrop, dropSpaces_punct hpunct]
        by_cases hcolon : b = colon
        · have htext : i.text = k := by
            have := hit_of_plain (k := k) (hi.plain_of_colon (by rw [hf, hcolon]; rfl))
            simpa [this] using hhit
          simp [hcolon, lookup, hf, htext]
        · have hlook : lookup k (i :: is) = lookup k is := by
            simp [lookup, hf, hcolon]
          rw [if_neg hcolon, hlook]
          have hu := hi.unquoted
          rw [hf] at hu
          exact ih his hu (by omega)
    · rw [if_neg hhit] at hs
      have hlook : lookup k (i :: is) = lookup k is := by
        have : i.text ≠ k := by
          rintro rfl
          simp [hit] at hhit
        simp [lookup, this]
      rw [findFieldFrom_congr hs, hlook]
      have hnil : quote ∉ ([] : Bytes) := List.not_mem_nil
      exact ih his hnil (by omega)

theorem length_le_render (is : List Item) : is.length ≤ (render is).length := by
  induction is with
  | nil => simp
  | cons i is ih =>
    rw [render_cons]
    simp only [List.length_cons, List.length_append]
    omega

/-- A key the readers are called with: a word that fits the pattern buffer of the search. -/
structure FieldKey (k : String) : Prop where
  word : Word (bytes k)
  short : KeyFits k

def isFieldKey (k : String) : Bool :=
  isPlain (bytes k) && (bytes k).head?.any (fun b => !isPunct b) &&
    Nat.blt (bytes k).length 126

theorem FieldKey.of_check {k : String} (h : isFieldKey k = true) : FieldKey k := by
  simp only [isFieldKey, Bool.and_eq_true] at h
  obtain ⟨⟨hplain, hhead⟩, hlength⟩ := h
  refine ⟨.of_head (isPlain_iff.mp hplain) ?_, by simpa [KeyFits] using hlength⟩
  cases hfirst : (bytes k).head? with
  | none => simp [hfirst] at hhead
  | some b => simpa [hfirst] using hhead

variable {k : String} {ms : Members} {tail : Bytes}

/-- **In a printed record the search finds the value of the first key of that name.** -/
theorem findFieldValue_object (hk : FieldKey k) (ht : quote ∉ tail) :
    findFieldValue (ms.object ++ tail) k =
      (lookup (bytes k) ms.items).map fun value => dropSpaces (value ++ tail) := by
  have hpat : snprintf 128 (quoted (bytes k)) = quoted (bytes k) := pattern_eq hk.short
  have hlen := length_le_render ms.items
  rw [findFieldValue, hpat]
  refine @findFieldFrom_render _ hk.word _ ms.ok [123] _ (by decide) ht _ ?_
  simp only [Members.object, List.length_cons, List.length_append]
  omega

theorem wtJsonReadString_object (hk : FieldKey k) (ht : quote ∉ tail) {v : Literal} {f : Bytes}
    {js : List Item} (hl : lookup (bytes k) ms.items = some (render (⟨v.text, f⟩ :: js)))
    {size : Nat} (hsize : (unescape v.text).length < size) :
    wtJsonReadString (ms.object ++ tail) k size = .ok (unescape v.text) := by
  have hfind : findFieldValue (ms.object ++ tail) k =
      some (quote :: (v.text ++ quote :: (f ++ render js ++ tail))) := by
    rw [findFieldValue_object hk ht, hl, Option.map_some, render_cons]
    simp only [List.cons_append, List.append_assoc]
    rfl
  have hne : ¬ (quote ≠ quote ∨ size = 0) := by
    rintro (h | rfl)
    · exact h rfl
    · omega
  have hfit : (unescape v.text).length ≤ size - 1 := by omega
  simp only [wtJsonReadString, hfind, hne, ↓reduceIte, copyString_escaped v.escaped, hfit]

/-- A value too long for the buffer is cut to what fits. -/
theorem wtJsonReadString_object_cut (hk : FieldKey k) (ht : quote ∉ tail) {v : Literal} {f : Bytes}
    {js : List Item} (hl : lookup (bytes k) ms.items = some (render (⟨v.text, f⟩ :: js)))
    {size : Nat} (hpos : 0 < size) (hsize : size ≤ (unescape v.text).length) :
    wtJsonReadString (ms.object ++ tail) k size = .cut ((unescape v.text).take (size - 1)) := by
  have hfind : findFieldValue (ms.object ++ tail) k =
      some (quote :: (v.text ++ quote :: (f ++ render js ++ tail))) := by
    rw [findFieldValue_object hk ht, hl, Option.map_some, render_cons]
    simp only [List.cons_append, List.append_assoc]
    rfl
  have hne : ¬ (quote ≠ quote ∨ size = 0) := by
    rintro (h | rfl)
    · exact h rfl
    · omega
  have hfit : ¬ (unescape v.text).length ≤ size - 1 := by omega
  simp only [wtJsonReadString, hfind, hne, ↓reduceIte, copyString_escaped v.escaped, hfit,
    Bool.false_eq_true]

/-- A printed string is read where it fits the buffer. -/
theorem toOption_object (hk : FieldKey k) (ht : quote ∉ tail) {v : Literal} {f : Bytes}
    {js : List Item} (hl : lookup (bytes k) ms.items = some (render (⟨v.text, f⟩ :: js)))
    {size : Nat} (hpos : 0 < size) :
    (wtJsonReadString (ms.object ++ tail) k size).toOption =
      if (unescape v.text).length < size then some (unescape v.text) else none := by
  split
  · rename_i hsize
    rw [wtJsonReadString_object hk ht hl hsize]
    rfl
  · rename_i hsize
    rw [wtJsonReadString_object_cut hk ht hl hpos (Nat.not_lt.mp hsize)]
    rfl

/-- What is read of a printed string, cut or not. -/
theorem written_object (hk : FieldKey k) (ht : quote ∉ tail) {v : Literal} {f : Bytes}
    {js : List Item} (hl : lookup (bytes k) ms.items = some (render (⟨v.text, f⟩ :: js)))
    {size : Nat} (hpos : 0 < size) :
    (wtJsonReadString (ms.object ++ tail) k size).written =
      some ((unescape v.text).take (size - 1)) := by
  by_cases hsize : (unescape v.text).length < size
  · rw [wtJsonReadString_object hk ht hl hsize, List.take_of_length_le (by omega)]
    rfl
  · rw [wtJsonReadString_object_cut hk ht hl hpos (by omega)]
    rfl

theorem wtJsonReadString_object_absent (hk : FieldKey k) (ht : quote ∉ tail)
    (hl : lookup (bytes k) ms.items = none) (size : Nat) :
    wtJsonReadString (ms.object ++ tail) k size = .absent := by
  simp [wtJsonReadString, findFieldValue_object hk ht, hl]

theorem wtJsonReadLong_object_clamp (hk : FieldKey k) (ht : quote ∉ tail) {n : Int}
    {close rest : Bytes} (hl : lookup (bytes k) ms.items = some (decimal n ++ close ++ rest))
    (hclose : close.head?.map isDigit = some false) :
    wtJsonReadLong (ms.object ++ tail) k = some (clamp64 n) := by
  have hsp : strtoll (dropSpaces (decimal n ++ close ++ rest ++ tail)) =
      strtoll (decimal n ++ (close ++ rest ++ tail)) := by
    simp only [strtoll, dropSpaces_dropSpaces, List.append_assoc]
  have hhead : ∀ b ∈ (close ++ rest ++ tail).head?, isDigit b = false := by
    cases close with
    | nil => simp at hclose
    | cons c close => simpa using hclose
  rw [wtJsonReadLong, findFieldValue_object hk ht, hl, Option.map_some, Option.bind_some, hsp,
    strtoll_decimal_clamp hhead]

theorem wtJsonReadLong_object (hk : FieldKey k) (ht : quote ∉ tail) {n : Int}
    (hn : -2 ^ 63 ≤ n ∧ n < 2 ^ 63) {close rest : Bytes}
    (hl : lookup (bytes k) ms.items = some (decimal n ++ close ++ rest))
    (hclose : close.head?.map isDigit = some false) :
    wtJsonReadLong (ms.object ++ tail) k = some n := by
  rw [wtJsonReadLong_object_clamp hk ht hl hclose, clamp64_of_range hn]

theorem wtJsonReadLong_object_absent (hk : FieldKey k) (ht : quote ∉ tail)
    (hl : lookup (bytes k) ms.items = none) : wtJsonReadLong (ms.object ++ tail) k = none := by
  simp [wtJsonReadLong, findFieldValue_object hk ht, hl]

/-- A value that is no number is not read as one. -/
theorem wtJsonReadLong_object_none (hk : FieldKey k) (ht : quote ∉ tail) {value : Bytes}
    (hl : lookup (bytes k) ms.items = some value)
    (hv : strtoll (dropSpaces (value ++ tail)) = none) :
    wtJsonReadLong (ms.object ++ tail) k = none := by
  rw [wtJsonReadLong, findFieldValue_object hk ht, hl, Option.map_some, Option.bind_some, hv]

/-- A record that begins with a plain string is read back as its first field. -/
theorem wtJsonReadString_first {k : String} {v rest : Bytes} {size : Nat} (hv : Plain v)
    (hk : (quoted (bytes k)).length < 128) (hsize : v.length < size) :
    wtJsonReadString (123 :: (quoted (bytes k) ++ colon :: quote :: (v ++ quote :: rest))) k size =
      .ok v := by
  have hpat : snprintf 128 (quoted (bytes k)) = quoted (bytes k) := snprintf_of_lt hk
  have hfind : findFieldValue
      (123 :: (quoted (bytes k) ++ colon :: quote :: (v ++ quote :: rest))) k =
        some (quote :: (v ++ quote :: rest)) := by
    have hskip : strstr (quoted (bytes k))
        (123 :: (quoted (bytes k) ++ colon :: quote :: (v ++ quote :: rest))) =
          some (quoted (bytes k) ++ colon :: quote :: (v ++ quote :: rest)) := by
      rw [strstr_cons, strstr_of_start (List.prefix_append _ _)]
      exact fun hp => absurd (List.cons_prefix_cons.mp hp).1 (by decide)
    rw [findFieldValue, hpat, findFieldFrom, hskip]
    simp only [List.drop_left]
    rfl
  rw [wtJsonReadString, hfind]
  have hcopy := copyString_escaped (.of_plain hv) (size - 1) rest
  rw [unescape_of_plain hv, if_pos (by omega)] at hcopy
  have hcond : ¬ (quote ≠ quote ∨ size = 0) := by simp; omega
  simp only [if_neg hcond, hcopy, ↓reduceIte]

/-! ## Text that is read back -/

/-- No control bytes but the three that have a letter of their own. -/
def Decodes (text : Bytes) : Prop := ∀ b ∈ text, 32 ≤ b ∨ b = 10 ∨ b = 13 ∨ b = 9

instance (text : Bytes) : Decidable (Decodes text) :=
  List.decidableBAll (fun b => 32 ≤ b ∨ b = 10 ∨ b = 13 ∨ b = 9) text

theorem rereadByte_of_decodes {b : UInt8} (h : 32 ≤ b ∨ b = 10 ∨ b = 13 ∨ b = 9) :
    rereadByte b = [b] := by
  unfold rereadByte
  rw [if_neg]
  rintro ⟨hlt, h10, h13, h9⟩
  rcases h with h | h | h | h
  · exact absurd hlt (UInt8.not_lt.mpr h)
  · exact h10 h
  · exact h13 h
  · exact h9 h

theorem length_rereadByte (b : UInt8) :
    (rereadByte b).length = if 32 ≤ b ∨ b = 10 ∨ b = 13 ∨ b = 9 then 1 else 5 := by
  split
  · rename_i h
    rw [rereadByte_of_decodes h]
    rfl
  · rename_i h
    obtain ⟨hlt, h10, h13, h9⟩ : ¬ 32 ≤ b ∧ b ≠ 10 ∧ b ≠ 13 ∧ b ≠ 9 := by simpa using h
    have hu : (bytes "u00").length = 3 := by decide
    rw [rereadByte, if_pos ⟨UInt8.not_le.mp hlt, h10, h13, h9⟩, List.length_append, hu]
    rfl

theorem length_le_reread (text : Bytes) : text.length ≤ (reread text).length := by
  induction text with
  | nil => exact Nat.zero_le _
  | cons b text ih =>
    have hb : 1 ≤ (rereadByte b).length := by
      rw [length_rereadByte]
      split <;> omega
    simp only [reread, List.flatMap_cons, List.length_append, List.length_cons] at ih ⊢
    omega

/-- A text that reads back as another gets longer. -/
theorem length_lt_reread {text : Bytes} (h : reread text ≠ text) :
    text.length < (reread text).length := by
  induction text with
  | nil => exact absurd rfl h
  | cons b text ih =>
    have hcons : reread (b :: text) = rereadByte b ++ reread text := List.flatMap_cons
    have hle := length_le_reread text
    rw [hcons, List.length_append, List.length_cons]
    by_cases hb : 32 ≤ b ∨ b = 10 ∨ b = 13 ∨ b = 9
    · rw [hcons, rereadByte_of_decodes hb] at h
      rw [rereadByte_of_decodes hb, List.length_singleton]
      have hlt := ih fun heq => h (by rw [heq]; rfl)
      omega
    · rw [length_rereadByte, if_neg hb]
      omega

/-- **Text is read back unchanged exactly where it has no other control bytes.** -/
theorem reread_eq_self_iff {text : Bytes} : reread text = text ↔ Decodes text := by
  induction text with
  | nil => simp [reread, Decodes]
  | cons b text ih =>
    have hcons : reread (b :: text) = rereadByte b ++ reread text := List.flatMap_cons
    have hall : Decodes (b :: text) ↔ (32 ≤ b ∨ b = 10 ∨ b = 13 ∨ b = 9) ∧ Decodes text :=
      List.forall_mem_cons
    rw [hcons, hall]
    by_cases hb : 32 ≤ b ∨ b = 10 ∨ b = 13 ∨ b = 9
    · rw [rereadByte_of_decodes hb, List.singleton_append, List.cons.injEq]
      simp only [true_and, ih, hb]
    · refine iff_of_false (fun heq => ?_) fun h => hb h.1
      -- five bytes come back for the one
      have hlen := congrArg List.length heq
      have hle := length_le_reread text
      rw [List.length_append, length_rereadByte, if_neg hb, List.length_cons] at hlen
      omega

theorem decodes_reread (text : Bytes) : Decodes (reread text) := by
  intro b hb
  obtain ⟨c, -, hc⟩ := List.mem_flatMap.mp hb
  by_cases hplain : 32 ≤ c ∨ c = 10 ∨ c = 13 ∨ c = 9
  · rw [rereadByte_of_decodes hplain, List.mem_singleton] at hc
    exact hc ▸ hplain
  · simp only [not_or] at hplain
    obtain ⟨hlt, h10, h13, h9⟩ := hplain
    have hhex : ∀ n < 16, 32 ≤ hexDigit n := by decide
    have hc32 : c.toNat < 32 := by
      have := UInt8.not_le.mp hlt
      exact UInt8.lt_iff_toNat_lt.mp this
    rw [rereadByte, if_pos ⟨UInt8.not_le.mp hlt, h10, h13, h9⟩] at hc
    rcases List.mem_append.mp hc with hc | hc
    · have hu : Decodes (bytes "u00") := by decide +kernel
      exact hu b hc
    · simp only [List.mem_cons, List.not_mem_nil, or_false] at hc
      rcases hc with rfl | rfl
      · exact .inl (hhex _ (by omega))
      · exact .inl (hhex _ (by omega))

end WovenTeam

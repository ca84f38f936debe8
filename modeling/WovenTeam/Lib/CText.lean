import Mathlib.Data.Nat.Digits.Lemmas
import Mathlib.Data.List.DropRight
import Mathlib.Data.List.Infix
import Mathlib.Tactic.IntervalCases

/-!
# C text

Bytes of C strings and the string functions of the C library that text scanners are written
with: `strstr`, the `snprintf` bound, `strtoll`, and the decimal form `%lld` prints. A string is
the list of its bytes before the terminating NUL.
-/

namespace CText

abbrev Bytes := List UInt8

/-- The bytes of an ASCII literal (`bytes_eq`). Its encoding holds them, and the kernel reads them
off there far sooner than it decodes the characters. -/
def bytes (s : String) : Bytes :=
  let encoded := s.toByteArray.data.toList
  if encoded.all (· < 128) then encoded else s.toList.map fun c => c.toNat.toUInt8

theorem toList_toByteArray (s : String) :
    s.toByteArray.data.toList = s.toList.flatMap String.utf8EncodeChar := by
  obtain ⟨chars, rfl⟩ : ∃ chars, s = String.ofList chars := ⟨s.toList, by simp⟩
  rw [String.toByteArray_ofList, String.toList_ofList, List.utf8Encode,
    List.toList_data_toByteArray]

/-- An encoding of ASCII bytes is of one byte. -/
theorem encodeChar_ascii {c : Char} (h : (String.utf8EncodeChar c).all (· < 128)) :
    String.utf8EncodeChar c = [c.toNat.toUInt8] := by
  unfold String.utf8EncodeChar at h ⊢
  dsimp only at h ⊢
  split_ifs at h ⊢ with h1 h2 h3
  · rfl
  all_goals
    exfalso
    rw [List.all_cons, Bool.and_eq_true, decide_eq_true_iff, UInt8.lt_iff_toNat_lt] at h
    have hfirst := h.1
    simp at hfirst
    omega

theorem flatMap_encodeChar {chars : List Char}
    (h : (chars.flatMap String.utf8EncodeChar).all (· < 128)) :
    chars.flatMap String.utf8EncodeChar = chars.map fun c => c.toNat.toUInt8 := by
  induction chars with
  | nil => rfl
  | cons c chars ih =>
    rw [List.flatMap_cons, List.all_append, Bool.and_eq_true] at h
    rw [List.flatMap_cons, List.map_cons, encodeChar_ascii h.1, ih h.2]
    rfl

theorem bytes_eq (s : String) : bytes s = s.toList.map fun c => c.toNat.toUInt8 := by
  unfold bytes
  dsimp only
  split
  · rename_i h
    rw [toList_toByteArray] at h ⊢
    exact flatMap_encodeChar h
  · rfl

@[simp] theorem length_bytes (s : String) : (bytes s).length = s.toList.length := by
  simp [bytes_eq]

def quote : UInt8 := 34
def backslash : UInt8 := 92
def colon : UInt8 := 58
def newline : UInt8 := 10

/-- `isspace` in the C locale. -/
def isSpace (b : UInt8) : Bool := b == 32 || (9 ≤ b && b ≤ 13)

def isDigit (b : UInt8) : Bool := 48 ≤ b && b ≤ 57

def dropSpaces (s : Bytes) : Bytes := s.dropWhile isSpace

theorem dropSpaces_dropSpaces (s : Bytes) : dropSpaces (dropSpaces s) = dropSpaces s :=
  List.dropWhile_idempotent isSpace s

/-- What `snprintf(buffer, size, …)` leaves of the text `s` in the buffer. -/
def snprintf (size : Nat) (s : Bytes) : Bytes := s.take (size - 1)

theorem snprintf_of_lt {size : Nat} {s : Bytes} (h : s.length < size) : snprintf size s = s :=
  List.take_of_length_le (by omega)

theorem snprintf_length_lt {size : Nat} (s : Bytes) (h : 0 < size) :
    (snprintf size s).length < size := by
  simp only [snprintf, List.length_take]
  omega

/-- What an array of `size` bytes holds. -/
structure CString (size : Nat) where
  text : Bytes
  fits : text.length < size
  deriving DecidableEq

/-- `snprintf(destination, size, "%s", source)`. -/
def CString.copy (size : Nat) [NeZero size] (source : Bytes) : CString size :=
  ⟨snprintf size source, snprintf_length_lt source (NeZero.pos size)⟩

theorem CString.copy_text {size : Nat} [NeZero size] (s : CString size) :
    CString.copy size s.text = s := by
  cases s with
  | mk text fits => simp [CString.copy, snprintf_of_lt fits]

/-! ## Searching -/

/-- The text from the first place `pat` begins. -/
def strstr (pat : Bytes) : Bytes → Option Bytes
  | [] => if pat.isEmpty then some [] else none
  | b :: t => if pat.isPrefixOf (b :: t) then some (b :: t) else strstr pat t

theorem strstr_of_start {pat s : Bytes} (h : pat <+: s) : strstr pat s = some s := by
  cases s with
  | nil => simp [strstr, List.prefix_nil.mp h]
  | cons b t =>
    rw [← List.isPrefixOf_iff_prefix] at h
    simp [strstr, h]

theorem strstr_cons {pat t : Bytes} {b : UInt8} (h : ¬ pat <+: b :: t) :
    strstr pat (b :: t) = strstr pat t := by
  rw [← List.isPrefixOf_iff_prefix] at h
  simp [strstr, h]

theorem strstr_isSome_iff {pat s : Bytes} : (strstr pat s).isSome ↔ pat <:+: s := by
  induction s with
  | nil => cases pat <;> simp [strstr]
  | cons b t ih =>
    by_cases h : pat <+: b :: t
    · simp [strstr_of_start h, h.isInfix]
    · rw [strstr_cons h, ih, List.infix_cons_iff]
      simp [h]

theorem strstr_eq_some {pat s found : Bytes} (h : strstr pat s = some found) :
    ∃ pre rest, s = pre ++ (pat ++ rest) ∧ found = pat ++ rest := by
  induction s with
  | nil =>
    cases pat with
    | nil => exact ⟨[], [], rfl, by simpa [strstr] using h.symm⟩
    | cons => simp [strstr] at h
  | cons b t ih =>
    by_cases hp : pat <+: b :: t
    · rw [strstr_of_start hp] at h
      obtain ⟨rest, hrest⟩ := hp
      exact ⟨[], rest, by simpa using hrest.symm, by rw [hrest]; exact (Option.some.inj h).symm⟩
    · rw [strstr_cons hp] at h
      obtain ⟨pre, rest, hs, hf⟩ := ih h
      exact ⟨b :: pre, rest, by simp [hs], hf⟩

/-- Bytes the pattern does not begin with are skipped. -/
theorem strstr_skip {q : UInt8} {pat a s : Bytes} (ha : q ∉ a) :
    strstr (q :: pat) (a ++ s) = strstr (q :: pat) s := by
  induction a with
  | nil => rfl
  | cons b t ih =>
    have hb : q ≠ b := fun h => ha (by simp [h])
    have ht : q ∉ t := fun h => ha (by simp [h])
    rw [List.cons_append, strstr_cons, ih ht]
    intro hp
    exact hb (List.cons_prefix_cons.mp hp).1

/-- A pattern whose last byte does not occur in `tail` is not found across it. -/
theorem strstr_append {q : UInt8} {p s tail : Bytes} (ht : q ∉ tail) :
    strstr (p ++ [q]) (s ++ tail) = (strstr (p ++ [q]) s).map (· ++ tail) := by
  have hno : strstr (p ++ [q]) tail = none := by
    rw [← Option.not_isSome_iff_eq_none, strstr_isSome_iff]
    exact fun h => ht (h.subset (by simp))
  induction s with
  | nil =>
    rw [List.nil_append, hno]
    simp [strstr]
  | cons b t ih =>
    by_cases h : p ++ [q] <+: b :: t
    · rw [strstr_of_start h, strstr_of_start (h.trans (List.prefix_append _ _))]
      rfl
    · have h' : ¬ p ++ [q] <+: b :: (t ++ tail) := by
        intro hp
        rcases List.prefix_or_prefix_of_prefix hp (List.prefix_append (b :: t) tail) with hp' | ⟨u, hu⟩
        · exact h hp'
        · -- the pattern would end inside `tail`
          rcases List.eq_nil_or_concat u with rfl | ⟨v, x, rfl⟩
          · exact h (hu ▸ by simp)
          · rw [List.concat_eq_append, ← List.append_assoc] at hu
            obtain ⟨hv, hx⟩ := List.append_inj' hu rfl
            obtain rfl := List.singleton_inj.mp hx
            rw [← hu] at hp
            have : b :: (t ++ tail) = (b :: t) ++ tail := rfl
            rw [this, List.append_assoc, List.prefix_append_right_inj] at hp
            exact ht (hp.subset (by simp))
      rw [strstr_cons h, List.cons_append, strstr_cons h', ih]

/-- The pattern stands in the text behind `pre`, and at no place before. -/
structure FirstAt (pat text pre rest : Bytes) : Prop where
  here : text = pre ++ (pat ++ rest)
  first : ∀ a b, text = a ++ b → pat <+: b → pre.length ≤ a.length

theorem strstr_of_firstAt {pat text pre rest : Bytes} (h : FirstAt pat text pre rest) :
    strstr pat text = some (pat ++ rest) := by
  obtain ⟨rfl, hfirst⟩ := h
  induction pre with
  | nil => exact strstr_of_start (List.prefix_append pat rest)
  | cons c pre ih =>
    have hno : ¬ pat <+: c :: (pre ++ (pat ++ rest)) := fun hpat =>
      absurd (hfirst [] _ rfl hpat) (by simp)
    rw [List.cons_append, strstr_cons hno]
    refine ih fun a b hab hpat => ?_
    have := hfirst (c :: a) b (by rw [List.cons_append, hab]; rfl) hpat
    simpa using this

theorem firstAt_of_strstr {pat text found : Bytes} (h : strstr pat text = some found) :
    ∃ pre rest, FirstAt pat text pre rest ∧ found = pat ++ rest := by
  induction text with
  | nil =>
    cases pat with
    | nil => exact ⟨[], [], ⟨rfl, by simp⟩, by simpa [strstr] using h.symm⟩
    | cons => simp [strstr] at h
  | cons c text ih =>
    by_cases hpat : pat <+: c :: text
    · rw [strstr_of_start hpat] at h
      obtain ⟨rest, hrest⟩ := hpat
      exact ⟨[], rest, ⟨hrest.symm, by simp⟩, by rw [hrest]; exact (Option.some.inj h).symm⟩
    · rw [strstr_cons hpat] at h
      obtain ⟨pre, rest, ⟨hhere, hfirst⟩, hfound⟩ := ih h
      refine ⟨c :: pre, rest, ⟨by rw [hhere]; rfl, fun a b hab hb => ?_⟩, hfound⟩
      cases a with
      | nil => exact absurd (hab ▸ hb) hpat
      | cons d a =>
        have := hfirst a b (List.cons.inj hab).2 hb
        simpa using this

theorem FirstAt.unique {pat text pre rest pre' rest' : Bytes} (h : FirstAt pat text pre rest)
    (h' : FirstAt pat text pre' rest') : rest = rest' := by
  have heq := (strstr_of_firstAt h).symm.trans (strstr_of_firstAt h')
  exact List.append_cancel_left (Option.some.inj heq)

theorem dropSpaces_append_dropSpaces (s t : Bytes) :
    dropSpaces (dropSpaces s ++ t) = dropSpaces (s ++ t) := by
  induction s with
  | nil => rfl
  | cons b s ih =>
    by_cases hb : isSpace b
    · have h1 : dropSpaces (b :: s) = dropSpaces s := by simp [dropSpaces, hb]
      have h2 : dropSpaces (b :: s ++ t) = dropSpaces (s ++ t) := by simp [dropSpaces, hb]
      rw [h1, h2, ih]
    · have h1 : dropSpaces (b :: s) = b :: s := by simp [dropSpaces, hb]
      rw [h1]

theorem dropSpaces_eq_nil_iff {s : Bytes} : dropSpaces s = [] ↔ ∀ b ∈ s, isSpace b := by
  simp [dropSpaces, List.dropWhile_eq_nil_iff]

theorem not_isSpace_of_dropSpaces {s t : Bytes} {b : UInt8} (h : dropSpaces s = b :: t) :
    isSpace b = false := by
  have hs : s.dropWhile isSpace = b :: t := h
  have := List.head_dropWhile_not isSpace (l := s) (by simp [hs])
  simpa only [hs, List.head_cons] using this

/-! ## Numbers -/

/-- `clamp64 n` is what `strtol` and `strtoll` return for a numeral outside their range. -/
def clamp64 (n : Int) : Int := max (-2 ^ 63) (min n (2 ^ 63 - 1))

theorem clamp64_of_range {n : Int} (h : -2 ^ 63 ≤ n ∧ n < 2 ^ 63) : clamp64 n = n := by
  unfold clamp64
  omega

theorem clamp64_le {n : Int} (h : -2 ^ 63 ≤ n) : clamp64 n ≤ n := by
  unfold clamp64
  omega

theorem clamp64_pos {n : Int} (h : 0 < n) : 0 < clamp64 n := by
  unfold clamp64
  omega

theorem clamp64_range (n : Int) : -2 ^ 63 ≤ clamp64 n ∧ clamp64 n < 2 ^ 63 := by
  unfold clamp64
  omega

def digitsValue (ds : Bytes) : Nat := ds.foldl (fun n b => 10 * n + (b.toNat - 48)) 0

/-- An optional sign and the text after it. -/
def readSign : Bytes → Bool × Bytes
  | [] => (false, [])
  | b :: t => if b = 45 then (true, t) else if b = 43 then (false, t) else (false, b :: t)

/-- `strtol` and `strtoll` in base ten; `none` where they leave `end` at the start. -/
def strtoll (s : Bytes) : Option Int :=
  let signed := readSign (dropSpaces s)
  let ds := signed.2.takeWhile isDigit
  if ds = [] then none
  else some (clamp64 (if signed.1 then -(digitsValue ds : Int) else digitsValue ds))

theorem strtoll_range {s : Bytes} {n : Int} (h : strtoll s = some n) :
    -2 ^ 63 ≤ n ∧ n < 2 ^ 63 := by
  simp only [strtoll] at h
  split at h
  · cases h
  · cases h
    exact clamp64_range _

theorem not_isDigit_of_isSpace {b : UInt8} (h : isSpace b) : isDigit b = false := by
  simp only [isSpace, Bool.or_eq_true, beq_iff_eq, Bool.and_eq_true, decide_eq_true_eq,
    UInt8.le_iff_toNat_le] at h
  simp only [isDigit, Bool.and_eq_false_iff, decide_eq_false_iff_not, UInt8.le_iff_toNat_le]
  rcases h with rfl | h
  · decide
  · left
    have : (13 : UInt8).toNat = 13 := rfl
    have : (48 : UInt8).toNat = 48 := rfl
    omega

theorem strtoll_append_spaces {s tail : Bytes} (hs : dropSpaces s = s)
    (ht : ∀ b ∈ tail, isSpace b) : strtoll (s ++ tail) = strtoll s := by
  have htake : ∀ x : Bytes, (x ++ tail).takeWhile isDigit = x.takeWhile isDigit := by
    intro x
    induction x with
    | nil =>
      cases tail with
      | nil => rfl
      | cons b t => simp [not_isDigit_of_isSpace (ht b (by simp))]
    | cons c x ih =>
      rw [List.cons_append, List.takeWhile_cons, List.takeWhile_cons, ih]
  cases s with
  | nil =>
    have : dropSpaces ([] ++ tail) = [] := dropSpaces_eq_nil_iff.mpr ht
    simp only [strtoll, this]
    rfl
  | cons b t =>
    have hb := not_isSpace_of_dropSpaces hs
    have hdrop : dropSpaces (b :: t ++ tail) = b :: t ++ tail := by simp [dropSpaces, hb]
    have hsign : readSign (b :: t ++ tail) =
        ((readSign (b :: t)).1, (readSign (b :: t)).2 ++ tail) := by
      simp only [List.cons_append, readSign]
      split
      · rfl
      · split <;> rfl
    simp only [strtoll, hdrop, hsign, hs, htake]

def decimalNat (n : Nat) : Bytes :=
  if n = 0 then [48] else (Nat.digits 10 n).reverse.map fun d => 48 + d.toUInt8

theorem length_decimalNat {n : Nat} (h : n < 10 ^ 19) : (decimalNat n).length ≤ 19 := by
  unfold decimalNat
  split
  · simp
  · rw [List.length_map, List.length_reverse]
    exact (Nat.digits_length_le_iff (by omega) n).mpr h

/-- The text `%lld` prints. -/
def decimal (n : Int) : Bytes :=
  if n < 0 then 45 :: decimalNat n.natAbs else decimalNat n.natAbs

/-- A 64-bit number prints in at most 20 bytes. -/
theorem length_decimal {n : Int} (h : -2 ^ 63 ≤ n ∧ n < 2 ^ 63) : (decimal n).length ≤ 20 := by
  have := length_decimalNat (n := n.natAbs) (by omega)
  unfold decimal
  split
  · simp only [List.length_cons]
    omega
  · omega

theorem isDigit_digit {d : Nat} (h : d < 10) : isDigit (48 + d.toUInt8) = true := by
  interval_cases d <;> rfl

theorem toNat_digit {d : Nat} (h : d < 10) : (48 + d.toUInt8).toNat - 48 = d := by
  interval_cases d <;> rfl

theorem digit_ne_lead {d : Nat} (h : d < 10) :
    isSpace (48 + d.toUInt8) = false ∧ 48 + d.toUInt8 ≠ 45 ∧ 48 + d.toUInt8 ≠ 43 := by
  interval_cases d <;> decide

theorem mem_decimalNat {n : Nat} {b : UInt8} (h : b ∈ decimalNat n) :
    ∃ d, d < 10 ∧ b = 48 + d.toUInt8 := by
  unfold decimalNat at h
  split at h
  · exact ⟨0, by omega, List.mem_singleton.mp h⟩
  · simp only [List.mem_map, List.mem_reverse] at h
    obtain ⟨d, hd, rfl⟩ := h
    exact ⟨d, Nat.digits_lt_base (by omega) hd, rfl⟩

theorem mem_decimal {n : Int} {b : UInt8} (h : b ∈ decimal n) : isSpace b = false ∧ b ≠ 0 := by
  have hdigit : ∀ {m : Nat}, b ∈ decimalNat m → isSpace b = false ∧ b ≠ 0 := by
    intro m hb
    obtain ⟨d, hd, rfl⟩ := mem_decimalNat hb
    interval_cases d <;> decide
  unfold decimal at h
  split at h
  · rcases List.mem_cons.mp h with rfl | h
    · decide
    · exact hdigit h
  · exact hdigit h

theorem decimalNat_ne_nil (n : Nat) : decimalNat n ≠ [] := by
  unfold decimalNat
  split
  · simp
  · simpa [Nat.digits_eq_nil_iff_eq_zero]

theorem digitsValue_map (ds : List Nat) (h : ∀ d ∈ ds, d < 10) :
    digitsValue (ds.reverse.map fun d => 48 + d.toUInt8) = Nat.ofDigits 10 ds := by
  induction ds with
  | nil => rfl
  | cons d ds ih =>
    have ih' := ih fun e he => h e (List.mem_cons_of_mem _ he)
    simp only [digitsValue] at ih'
    simp only [digitsValue, List.reverse_cons, List.map_append, List.map_cons, List.map_nil,
      List.foldl_append, List.foldl_cons, List.foldl_nil, ih', Nat.ofDigits_cons,
      toNat_digit (h d (by simp))]
    simp [Nat.add_comm]

theorem digitsValue_decimalNat (n : Nat) : digitsValue (decimalNat n) = n := by
  unfold decimalNat
  split
  · subst_vars
    rfl
  · rw [digitsValue_map _ fun d hd => Nat.digits_lt_base (by omega) hd, Nat.ofDigits_digits]

theorem takeWhile_decimalNat (n : Nat) {rest : Bytes} (h : ∀ b ∈ rest.head?, isDigit b = false) :
    (decimalNat n ++ rest).takeWhile isDigit = decimalNat n := by
  have hd : ∀ b ∈ decimalNat n, isDigit b = true := by
    intro b hb
    obtain ⟨d, hlt, rfl⟩ := mem_decimalNat hb
    exact isDigit_digit hlt
  rw [List.takeWhile_append_of_pos hd]
  cases rest with
  | nil => simp
  | cons b t => simp [h b (by simp)]

/-- A printed number is read back as far as the range of the reader goes. -/
theorem strtoll_decimal_clamp {n : Int} {rest : Bytes}
    (h : ∀ b ∈ rest.head?, isDigit b = false) :
    strtoll (decimal n ++ rest) = some (clamp64 n) := by
  have hds := takeWhile_decimalNat n.natAbs h
  have hne := decimalNat_ne_nil n.natAbs
  by_cases hneg : n < 0
  · have hs : dropSpaces (decimal n ++ rest) = 45 :: (decimalNat n.natAbs ++ rest) := by
      simp [dropSpaces, decimal, hneg, isSpace]
    have hv : -((n.natAbs : Nat) : Int) = n := by omega
    simp only [strtoll, hs, readSign, ↓reduceIte, hds, hne, digitsValue_decimalNat]
    rw [hv]
  · obtain ⟨b, t, hbt⟩ := List.exists_cons_of_ne_nil hne
    have hb : isSpace b = false ∧ b ≠ 45 ∧ b ≠ 43 := by
      obtain ⟨d, hlt, rfl⟩ := mem_decimalNat (n := n.natAbs) (b := b) (by simp [hbt])
      exact digit_ne_lead hlt
    have hs : readSign (dropSpaces (decimal n ++ rest)) = (false, decimalNat n.natAbs ++ rest) := by
      simp [dropSpaces, decimal, hneg, hbt, hb, readSign]
    have hv : ((n.natAbs : Nat) : Int) = n := by omega
    simp only [strtoll, hs, hds, hne, ↓reduceIte, digitsValue_decimalNat, Bool.false_eq_true]
    rw [hv]

/-- **`strtoll` reads back what `%lld` printed.** -/
theorem strtoll_decimal {n : Int} {rest : Bytes} (hn : -2 ^ 63 ≤ n ∧ n < 2 ^ 63)
    (h : ∀ b ∈ rest.head?, isDigit b = false) : strtoll (decimal n ++ rest) = some n := by
  rw [strtoll_decimal_clamp h, clamp64_of_range hn]

/-! ## Comma-separated lists -/

def comma : UInt8 := 44

def isBlank (b : UInt8) : Bool := b == 32 || b == 9

def trimBlanks (item : Bytes) : Bytes := (item.dropWhile isBlank).rdropWhile isBlank

/-- The items `strtok_r` hands out. -/
def strtok (delimiter : UInt8) (text : Bytes) : List Bytes :=
  (text.splitOn delimiter).filter (· != [])

theorem splitOn_of_notMem {delimiter : UInt8} {text : Bytes} (h : delimiter ∉ text) :
    text.splitOn delimiter = [text] :=
  List.splitOnP_eq_singleton fun b hb => beq_eq_false_iff_ne.mpr fun heq => h (heq ▸ hb)

/-! ## Machine integers -/

/-- A 64-bit signed value after wrap-around. -/
def wrap64 (n : Int) : Int := Int.bmod n (2 ^ 64)

/-- The `int` a 64-bit value is cast to. -/
def toInt32 (n : Int) : Int := Int.bmod n (2 ^ 32)

theorem wrap64_le {n : Int} (h : -2 ^ 63 ≤ n) : wrap64 n ≤ n := by
  unfold wrap64 Int.bmod
  dsimp only
  split <;> omega

theorem toInt32_le {n : Int} (h : -2 ^ 31 ≤ n) : toInt32 n ≤ n := by
  unfold toInt32 Int.bmod
  dsimp only
  split <;> omega

theorem wrap64_of_range {n : Int} (h : -2 ^ 63 ≤ n ∧ n < 2 ^ 63) : wrap64 n = n := by
  unfold wrap64
  exact Int.bmod_eq_of_le (by omega) (by omega)

theorem toInt32_of_range {n : Int} (h : -2 ^ 31 ≤ n ∧ n < 2 ^ 31) : toInt32 n = n := by
  unfold toInt32
  exact Int.bmod_eq_of_le (by omega) (by omega)

theorem toInt32_range (n : Int) : -2 ^ 31 ≤ toInt32 n ∧ toInt32 n < 2 ^ 31 := by
  unfold toInt32
  exact ⟨Int.le_bmod (by norm_num), Int.bmod_lt (by norm_num)⟩

end CText

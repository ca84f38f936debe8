import WovenTeam.Lib.CText

/-!
# JSON texts

The grammar of JSON over bytes: which texts are values, and what the members of an object are,
with the white space that stands between them. A string is the list of its characters, each
written as itself or as an escape, so that a name is what it spells and not how.
-/

namespace JsonText

open CText

/-! ## Characters and numbers -/

/-- The white space between tokens. -/
def isWhite (b : UInt8) : Bool := b == 32 || b == 9 || b == 10 || b == 13

def White (s : Bytes) : Prop := ∀ b ∈ s, isWhite b

/-- The letters of the short escapes, with the units they stand for. -/
def shortEscapes : List (UInt8 × Nat) :=
  [(34, 34), (92, 92), (47, 47), (98, 8), (102, 12), (110, 10), (114, 13), (116, 9)]

/-- The value of a hexadecimal digit of either case. -/
def hexValue (b : UInt8) : Option Nat :=
  if 48 ≤ b ∧ b ≤ 57 then some (b.toNat - 48)
  else if 97 ≤ b ∧ b ≤ 102 then some (b.toNat - 87)
  else if 65 ≤ b ∧ b ≤ 70 then some (b.toNat - 55)
  else none

/-- A character as it is written: a byte of its own, a short escape, or four digits. -/
inductive JsonChar where
  | byte (b : UInt8) (h : 32 ≤ b ∧ b ≠ quote ∧ b ≠ backslash)
  | short (letter : UInt8) (unit : Nat) (h : (letter, unit) ∈ shortEscapes)
  | digits (a b c d : UInt8) (unit : Nat)
      (h : (do return 4096 * (← hexValue a) + 256 * (← hexValue b) + 16 * (← hexValue c) +
        (← hexValue d)) = some unit)

def JsonChar.render : JsonChar → Bytes
  | byte b _ => [b]
  | short letter _ _ => [backslash, letter]
  | digits a b c d _ _ => [backslash, 117, a, b, c, d]

/-- What the character stands for. -/
def JsonChar.unit : JsonChar → Nat
  | byte b _ => b.toNat
  | short _ unit _ => unit
  | digits _ _ _ _ unit _ => unit

abbrev JsonString := List JsonChar

def JsonString.render (s : JsonString) : Bytes :=
  quote :: (List.flatMap JsonChar.render s ++ [quote])

/-- The string is the word, however it is written. -/
def JsonString.spells (s : JsonString) (word : Bytes) : Bool :=
  List.map JsonChar.unit s == word.map UInt8.toNat

def Digits (s : Bytes) : Prop := s ≠ [] ∧ ∀ b ∈ s, isDigit b

structure IsNumber (sign whole fraction exponent : Bytes) : Prop where
  sign : sign = [] ∨ sign = [45]
  whole : whole = [48] ∨ Digits whole ∧ whole.head? ≠ some 48
  fraction : fraction = [] ∨ ∃ ds, fraction = 46 :: ds ∧ Digits ds
  exponent : exponent = [] ∨ ∃ e sign ds, exponent = e :: (sign ++ ds) ∧ (e = 101 ∨ e = 69) ∧
    (sign = [] ∨ sign = [43] ∨ sign = [45]) ∧ Digits ds

/-! ## Values -/

/-- A member of an object, with the white space around its parts. -/
structure JsonMember where
  lead : Bytes
  name : JsonString
  gap : Bytes
  space : Bytes
  value : Bytes
  trail : Bytes
  white : White lead ∧ White gap ∧ White space ∧ White trail

def JsonMember.render (m : JsonMember) : Bytes :=
  m.lead ++ (m.name.render ++ (m.gap ++ colon :: (m.space ++ (m.value ++ m.trail))))

/-- An element of an array. -/
structure Element where
  lead : Bytes
  value : Bytes
  trail : Bytes
  white : White lead ∧ White trail

def Element.render (e : Element) : Bytes := e.lead ++ (e.value ++ e.trail)

/-- Texts with commas between them. -/
def commaSeparated (texts : List Bytes) : Bytes := [comma].intercalate texts

/-- The text is a value. -/
inductive Value : Bytes → Prop
  | null : Value (bytes "null")
  | true : Value (bytes "true")
  | false : Value (bytes "false")
  | number {sign whole fraction exponent : Bytes} (h : IsNumber sign whole fraction exponent) :
      Value (sign ++ whole ++ fraction ++ exponent)
  | string (s : JsonString) : Value s.render
  | emptyArray {w : Bytes} (hw : White w) : Value (91 :: (w ++ [93]))
  | array {es : List Element} (hne : es ≠ []) (h : ∀ e ∈ es, Value e.value) :
      Value (91 :: (commaSeparated (es.map Element.render) ++ [93]))
  | emptyObject {w : Bytes} (hw : White w) : Value (123 :: (w ++ [125]))
  | object {ms : List JsonMember} (hne : ms ≠ []) (h : ∀ m ∈ ms, Value m.value) :
      Value (123 :: (commaSeparated (ms.map JsonMember.render) ++ [125]))

/-- The text is a document, and these are the members of its value, which are none where the value
is no object. -/
inductive JsonDocument : Bytes → List JsonMember → Prop
  | object {w w' : Bytes} (hw : White w) (hw' : White w') {ms : List JsonMember} (hne : ms ≠ [])
      (h : ∀ m ∈ ms, Value m.value) :
      JsonDocument (w ++ (123 :: (commaSeparated (ms.map JsonMember.render) ++ [125]) ++ w')) ms
  | other {w v w' : Bytes} (hw : White w) (hw' : White w') (h : Value v)
      (hno : ∀ ms, ms ≠ [] → v ≠ 123 :: (commaSeparated (ms.map JsonMember.render) ++ [125])) :
      JsonDocument (w ++ (v ++ w')) []

/-- The member of that name; the first of them where the name is repeated. -/
def jsonMemberNamed (word : Bytes) (ms : List JsonMember) : Option JsonMember :=
  ms.find? fun m => m.name.spells word

theorem JsonDocument.value {text : Bytes} {ms : List JsonMember} (h : JsonDocument text ms) :
    ∀ m ∈ ms, Value m.value := by
  cases h with
  | object _ _ _ h => exact h
  | other => simp

/-! ## Beginnings of values -/

theorem isSpace_of_isWhite {b : UInt8} (h : isWhite b) : isSpace b := by
  simp only [isWhite, Bool.or_eq_true, beq_iff_eq] at h
  rcases h with ((rfl | rfl) | rfl) | rfl <;> decide

theorem digits_head {s : Bytes} (h : Digits s) : ∃ b t, s = b :: t ∧ isDigit b := by
  obtain ⟨hne, hall⟩ := h
  cases s with
  | nil => exact absurd rfl hne
  | cons b t => exact ⟨b, t, rfl, hall b List.mem_cons_self⟩

theorem number_head {sign whole fraction exponent : Bytes}
    (h : IsNumber sign whole fraction exponent) :
    ∃ b t, sign ++ whole ++ fraction ++ exponent = b :: t ∧ (b = 45 ∨ isDigit b) := by
  obtain ⟨b, t, hwhole, hb⟩ : ∃ b t, whole = b :: t ∧ isDigit b := by
    rcases h.whole with hzero | ⟨hdigits, -⟩
    · exact ⟨48, [], hzero, by decide⟩
    · exact digits_head hdigits
  rcases h.sign with hsign | hsign
  · exact ⟨b, t ++ fraction ++ exponent, by simp [hsign, hwhole], .inr hb⟩
  · exact ⟨45, whole ++ fraction ++ exponent, by simp [hsign], .inl rfl⟩

/-- A value begins with a byte of its own. -/
theorem value_head {v : Bytes} (h : Value v) : ∃ b t, v = b :: t ∧ isWhite b = false := by
  cases h with
  | null => exact ⟨_, _, rfl, by decide⟩
  | true => exact ⟨_, _, rfl, by decide⟩
  | false => exact ⟨_, _, rfl, by decide⟩
  | number hnumber =>
    obtain ⟨b, t, heq, hb⟩ := number_head hnumber
    refine ⟨b, t, heq, ?_⟩
    rcases hb with rfl | hb
    · decide
    · rw [Bool.eq_false_iff]
      intro hwhite
      rw [not_isDigit_of_isSpace (isSpace_of_isWhite hwhite)] at hb
      cases hb
  | string => exact ⟨_, _, rfl, by decide⟩
  | emptyArray => exact ⟨_, _, rfl, by decide⟩
  | array => exact ⟨_, _, rfl, by decide⟩
  | emptyObject => exact ⟨_, _, rfl, by decide⟩
  | object => exact ⟨_, _, rfl, by decide⟩

/-- A value that begins like the literal is the literal. -/
theorem eq_true_of_prefix {v rest : Bytes} (h : Value v) (ht : bytes "true" <+: v ++ rest) :
    v = bytes "true" := by
  have hhead : ∀ {b : UInt8} {t : Bytes}, b ≠ 116 → ¬ bytes "true" <+: b :: t := by
    intro b t hb hprefix
    exact hb (List.cons_prefix_cons.mp hprefix).1.symm
  cases h with
  | true => rfl
  | null => exact absurd ht (hhead (by decide))
  | false => exact absurd ht (hhead (by decide))
  | number hnumber =>
    obtain ⟨b, t, heq, hb⟩ := number_head hnumber
    rw [heq] at ht
    refine absurd ht (hhead ?_)
    rintro rfl
    exact absurd hb (by decide)
  | string => exact absurd ht (hhead (by decide))
  | emptyArray => exact absurd ht (hhead (by decide))
  | array => exact absurd ht (hhead (by decide))
  | emptyObject => exact absurd ht (hhead (by decide))
  | object => exact absurd ht (hhead (by decide))

/-! ## Writing -/

theorem commaSeparated_cons (text : Bytes) (texts : List Bytes) :
    commaSeparated (text :: texts) = text ++ texts.flatMap fun next => comma :: next := by
  induction texts generalizing text with
  | nil => simp [commaSeparated]
  | cons next texts ih =>
    have htail : [comma].intercalate (next :: texts) =
        next ++ texts.flatMap fun next => comma :: next := ih next
    rw [commaSeparated, List.intercalate_cons_cons, htail, List.flatMap_cons]
    simp

/-- The text is one value, with white space around it. -/
def IsJson (text : Bytes) : Prop :=
  ∃ w v w', White w ∧ White w' ∧ Value v ∧ text = w ++ (v ++ w')

theorem Value.isJson {v : Bytes} (h : Value v) : IsJson v :=
  ⟨[], v, [], by simp [White], by simp [White], h, by simp⟩

def arrayText (texts : List Bytes) : Bytes := 91 :: (commaSeparated texts ++ [93])

theorem value_arrayText {texts : List Bytes} (h : ∀ text ∈ texts, IsJson text) :
    Value (arrayText texts) := by
  obtain ⟨es, rfl, hes⟩ : ∃ es : List Element, es.map Element.render = texts ∧
      ∀ e ∈ es, Value e.value := by
    induction texts with
    | nil => exact ⟨[], rfl, by simp⟩
    | cons text texts ih =>
      rw [List.forall_mem_cons] at h
      obtain ⟨w, v, w', hw, hw', hv, rfl⟩ := h.1
      obtain ⟨es, rfl, hes⟩ := ih h.2
      exact ⟨⟨w, v, w', hw, hw'⟩ :: es, rfl, List.forall_mem_cons.mpr ⟨hv, hes⟩⟩
  cases es with
  | nil => exact .emptyArray (w := []) (by simp [White])
  | cons e es => exact .array (List.cons_ne_nil e es) hes

/-- Bytes that are written as themselves. -/
def isPlainName (name : Bytes) : Bool := name.all fun b => 32 ≤ b && b != quote && b != backslash

theorem exists_jsonString {name : Bytes} (h : isPlainName name) :
    ∃ s : JsonString, s.render = quote :: (name ++ [quote]) := by
  obtain ⟨s, hs⟩ : ∃ s : List JsonChar, s.flatMap JsonChar.render = name := by
    induction name with
    | nil => exact ⟨[], rfl⟩
    | cons b name ih =>
      simp only [isPlainName, List.all_cons, Bool.and_eq_true, decide_eq_true_eq, bne_iff_ne] at h
      obtain ⟨⟨⟨hlow, hquote⟩, hback⟩, hname⟩ := h
      obtain ⟨s, rfl⟩ := ih hname
      exact ⟨.byte b ⟨hlow, hquote, hback⟩ :: s, rfl⟩
  exact ⟨s, by rw [JsonString.render, hs]⟩

/-- A member without white space. -/
def fieldText (field : Bytes × Bytes) : Bytes :=
  quote :: (field.1 ++ quote :: colon :: field.2)

def objectText (fields : List (Bytes × Bytes)) : Bytes :=
  123 :: (commaSeparated (fields.map fieldText) ++ [125])

theorem value_objectText {fields : List (Bytes × Bytes)} (hne : fields ≠ [])
    (hnames : fields.all fun field => isPlainName field.1)
    (hvalues : ∀ field ∈ fields, Value field.2) : Value (objectText fields) := by
  obtain ⟨ms, hms, hvalue⟩ : ∃ ms : List JsonMember, ms.map JsonMember.render =
      fields.map fieldText ∧ ∀ m ∈ ms, Value m.value := by
    clear hne
    induction fields with
    | nil => exact ⟨[], rfl, by simp⟩
    | cons field fields ih =>
      rw [List.all_cons, Bool.and_eq_true] at hnames
      rw [List.forall_mem_cons] at hvalues
      obtain ⟨name, hname⟩ := exists_jsonString hnames.1
      obtain ⟨ms, hms, hvalue⟩ := ih hnames.2 hvalues.2
      have hwhite : White [] := by simp [White]
      refine ⟨⟨[], name, [], [], field.2, [], hwhite, hwhite, hwhite, hwhite⟩ :: ms, ?_,
        List.forall_mem_cons.mpr ⟨hvalues.1, hvalue⟩⟩
      rw [List.map_cons, List.map_cons, hms, JsonMember.render, hname, fieldText]
      simp
  have hms' : ms ≠ [] := by
    rintro rfl
    exact hne (List.map_eq_nil_iff.mp hms.symm)
  rw [objectText, ← hms]
  exact .object hms' hvalue

theorem digits_decimalNat (n : Nat) : decimalNat n = [48] ∨
    Digits (decimalNat n) ∧ (decimalNat n).head? ≠ some 48 := by
  by_cases h : n = 0
  · exact .inl (by rw [decimalNat, if_pos h])
  · refine .inr ⟨⟨decimalNat_ne_nil n, fun b hb => ?_⟩, fun hhead => ?_⟩
    · obtain ⟨d, hd, rfl⟩ := mem_decimalNat hb
      exact isDigit_digit hd
    · have hne : Nat.digits 10 n ≠ [] := Nat.digits_ne_nil_iff_ne_zero.mpr h
      have hlast := Nat.getLast_digit_ne_zero 10 h
      have hlt : (Nat.digits 10 n).getLast hne < 10 :=
        Nat.digits_lt_base (by omega) (List.getLast_mem hne)
      rw [decimalNat, if_neg h, List.head?_map, List.head?_reverse,
        List.getLast?_eq_getLast_of_ne_nil hne, Option.map_some, Option.some.injEq] at hhead
      generalize (Nat.digits 10 n).getLast hne = d at hlast hlt hhead
      interval_cases d
      · exact hlast rfl
      all_goals cases hhead

theorem value_decimal (n : Int) : Value (decimal n) := by
  have hnumber : ∀ sign : Bytes, sign = [] ∨ sign = [45] →
      Value (sign ++ decimalNat n.natAbs) := by
    intro sign hsign
    have h : Value (sign ++ decimalNat n.natAbs ++ [] ++ []) :=
      .number ⟨hsign, digits_decimalNat _, .inl rfl, .inl rfl⟩
    simpa using h
  unfold decimal
  split
  · exact hnumber [45] (.inr rfl)
  · exact hnumber [] (.inl rfl)

end JsonText

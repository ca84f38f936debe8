import WovenTeam.Json
import WovenTeam.Projection
import WovenTeam.Lib.JsonText

/-!
# Appends

The readers of the projection write their documents with a long row of appends whose results they
ignore: `appendRaw` leaves out a text that does not fit, and `appendJsonString` a string whose
escaped form is too long. Where everything fits, the buffer holds all the texts one after the other
(`writeAll_of_fits`), and a row of keyed values is the text of an object (`fullText_keyedStrings`).
-/

namespace WovenTeam

open CText QuotedText JsonText

/-! ## Appends -/

def appendRaw (bufferSize : Nat) (buffer text : Bytes) : Option Bytes :=
  if bufferSize ≤ buffer.length + text.length + 1 then none else some (buffer ++ text)

def appendJsonString (bufferSize : Nat) (buffer text : Bytes) : Bytes :=
  match wtJsonEscape text (wtTaskBodySize * 2) with
  | none => buffer
  | some escaped =>
    match appendRaw bufferSize buffer [quote] with
    | none => buffer
    | some opened =>
      match appendRaw bufferSize opened escaped.text with
      | none => opened
      | some written => (appendRaw bufferSize written [quote]).getD written

/-- A call of one of the two. -/
inductive Append where
  | raw (text : Bytes)
  | string (text : Bytes)
  deriving DecidableEq

def Append.apply (bufferSize : Nat) (buffer : Bytes) : Append → Bytes
  | raw text => (appendRaw bufferSize buffer text).getD buffer
  | string text => appendJsonString bufferSize buffer text

/-- The buffer after the calls, whose results nobody looks at. -/
def writeAll (bufferSize : Nat) (appends : List Append) : Bytes :=
  appends.foldl (Append.apply bufferSize) []

def stringText (text : Bytes) : Bytes := quote :: (text.flatMap escapePiece ++ [quote])

/-- What the call is to append. -/
def Append.text : Append → Bytes
  | raw text => text
  | string text => stringText text

def fullText (appends : List Append) : Bytes := appends.flatMap Append.text

def Append.Escapes : Append → Prop
  | raw _ => True
  | string text => EscapeFits text (wtTaskBodySize * 2)

instance (a : Append) : Decidable a.Escapes :=
  match a with
  | .raw _ => isTrue trivial
  | .string text => inferInstanceAs (Decidable (EscapeFits text (wtTaskBodySize * 2)))

/-- Every string can be escaped, and the buffer is large enough for the whole document. -/
structure Fits (bufferSize : Nat) (appends : List Append) : Prop where
  escapes : ∀ a ∈ appends, a.Escapes
  length : (fullText appends).length + 1 < bufferSize

/-! ## Rows of members -/

/-- The appends of several items, with commas between them. -/
def joined (items : List (List Append)) : List Append := [Append.raw [comma]].intercalate items

/-- `"key":` -/
def keyed (key : String) : Bytes := quote :: (bytes key ++ [quote, colon])

/-- `,"key":` -/
def nextKey (key : String) : Bytes := comma :: keyed key

/-- The appends of a member in the loops over `keys`. -/
def keyedString (key : String) (text : Bytes) : List Append :=
  [.raw [quote], .raw (bytes key), .raw [quote, colon], .string text]

/-- `sqlite3_column_int64` and `sqlite3_column_int`, printed. -/
def longText (n : Int) : Bytes := decimal (wrap64 n)
def intText (n : Int) : Bytes := decimal (toInt32 n)

def boolText (b : Bool) : Bytes := if b then bytes "true" else bytes "false"

/-! ## Texts that fit -/

section fits

variable {bufferSize : Nat} {a : Append} {appends : List Append} {buffer : Bytes}

@[simp] theorem fullText_nil : fullText [] = [] := rfl

@[simp] theorem fullText_cons (a : Append) (appends : List Append) :
    fullText (a :: appends) = a.text ++ fullText appends := List.flatMap_cons

@[simp] theorem fullText_append (appends appends' : List Append) :
    fullText (appends ++ appends') = fullText appends ++ fullText appends' := List.flatMap_append

/-- A call appends its whole text exactly where that fits; else it appends less. -/
theorem apply_eq (hroom : a.Escapes) (hfits : buffer.length + a.text.length + 1 < bufferSize) :
    a.apply bufferSize buffer = buffer ++ a.text := by
  cases a with
  | raw text =>
    rw [Append.text] at hfits
    rw [Append.apply, appendRaw, if_neg (by omega)]
    rfl
  | string text =>
    obtain ⟨escaped, hescaped⟩ := wtJsonEscape_of_fits hroom
    have htext : escaped.text = text.flatMap escapePiece := by
      unfold wtJsonEscape at hescaped
      split at hescaped
      · cases hescaped
      · exact congrArg Literal.text (Option.some.inj hescaped).symm
    simp only [Append.text, stringText, List.length_cons, List.length_append,
      List.length_nil] at hfits
    rw [Append.apply, appendJsonString, hescaped]
    dsimp only
    rw [htext, appendRaw, if_neg (by simp only [List.length_singleton]; omega)]
    dsimp only
    rw [appendRaw, if_neg (by simp only [List.length_append, List.length_singleton]; omega)]
    dsimp only
    rw [appendRaw, if_neg (by simp only [List.length_append, List.length_singleton]; omega)]
    simp [Append.text, stringText]

theorem foldl_apply_eq (hescapes : ∀ a ∈ appends, a.Escapes)
    (hlen : buffer.length + (fullText appends).length + 1 < bufferSize) :
    appends.foldl (Append.apply bufferSize) buffer = buffer ++ fullText appends := by
  induction appends generalizing buffer with
  | nil => simp
  | cons a appends ih =>
    rw [List.forall_mem_cons] at hescapes
    rw [fullText_cons, List.length_append] at hlen
    rw [List.foldl_cons, apply_eq hescapes.1 (by omega),
      ih hescapes.2 (by rw [List.length_append]; omega), fullText_cons, List.append_assoc]

theorem writeAll_of_fits (h : Fits bufferSize appends) :
    writeAll bufferSize appends = fullText appends := by
  rw [writeAll, foldl_apply_eq h.escapes (by simpa using h.length), List.nil_append]

end fits

/-! ## Values -/

theorem exists_escapeChar (b : UInt8) : ∃ c : JsonChar, c.render = escapePiece b := by
  have hlow : ∀ n < 32, ∃ c : JsonChar, c.render = escapePiece (UInt8.ofNat n) := by
    intro n hn
    by_cases h10 : n = 10
    · exact ⟨.short 110 10 (by decide), by subst h10; rfl⟩
    by_cases h13 : n = 13
    · exact ⟨.short 114 13 (by decide), by subst h13; rfl⟩
    by_cases h9 : n = 9
    · exact ⟨.short 116 9 (by decide), by subst h9; rfl⟩
    have hpiece : ∀ n < 32, n = 10 ∨ n = 13 ∨ n = 9 ∨ escapePiece (UInt8.ofNat n) =
        [backslash, 117, 48, 48, hexDigit (n / 16), hexDigit (n % 16)] := by decide +kernel
    have hvalue : ∀ n < 32, hexValue (hexDigit (n / 16)) = some (n / 16) ∧
        hexValue (hexDigit (n % 16)) = some (n % 16) := by decide +kernel
    obtain ⟨hhigh, hlow⟩ := hvalue n hn
    refine ⟨.digits 48 48 (hexDigit (n / 16)) (hexDigit (n % 16)) n ?_, ?_⟩
    · have hzero : hexValue 48 = some 0 := rfl
      rw [hhigh, hlow, hzero]
      simp
      omega
    · rcases hpiece n hn with h | h | h | h
      · exact absurd h h10
      · exact absurd h h13
      · exact absurd h h9
      · exact h.symm
  by_cases hq : b = quote
  · exact ⟨.short 34 34 (by decide), by subst hq; rfl⟩
  by_cases hb : b = backslash
  · exact ⟨.short 92 92 (by decide), by subst hb; rfl⟩
  by_cases h32 : b < 32
  · have := hlow b.toNat (UInt8.lt_iff_toNat_lt.mp h32)
    rwa [UInt8.ofNat_toNat] at this
  · refine ⟨.byte b ⟨UInt8.not_lt.mp h32, hq, hb⟩, ?_⟩
    have hne : ∀ n : UInt8, n < 32 → b ≠ n := fun n hn heq => h32 (heq ▸ hn)
    rw [escapePiece, if_neg (by simp [hq, hb]), if_neg (hne 10 (by decide)),
      if_neg (hne 13 (by decide)), if_neg (hne 9 (by decide)), if_neg h32]
    rfl

@[simp] theorem value_stringText (text : Bytes) : Value (stringText text) := by
  obtain ⟨s, hs⟩ : ∃ s : List JsonChar, s.flatMap JsonChar.render = text.flatMap escapePiece := by
    induction text with
    | nil => exact ⟨[], rfl⟩
    | cons b text ih =>
      obtain ⟨c, hc⟩ := exists_escapeChar b
      obtain ⟨s, hs⟩ := ih
      exact ⟨c :: s, by rw [List.flatMap_cons, List.flatMap_cons, hc, hs]⟩
  have hvalue := Value.string s
  rwa [JsonString.render, hs] at hvalue

theorem length_longText (n : Int) : (longText n).length ≤ 20 := by
  refine length_decimal ?_
  unfold wrap64
  exact ⟨Int.le_bmod (by decide), Int.bmod_lt (by decide)⟩

theorem length_intText (n : Int) : (intText n).length ≤ 20 :=
  length_decimal (by have := toInt32_range n; omega)

@[simp] theorem length_keyed (key : String) : (keyed key).length = key.toList.length + 3 := by
  simp [keyed]

@[simp] theorem length_nextKey (key : String) : (nextKey key).length = key.toList.length + 4 := by
  simp [nextKey, keyed]

theorem length_boolText (b : Bool) : (boolText b).length ≤ 5 := by
  cases b <;> decide

@[simp] theorem value_longText (n : Int) : Value (longText n) := value_decimal _

@[simp] theorem value_intText (n : Int) : Value (intText n) := value_decimal _

@[simp] theorem value_boolText (b : Bool) : Value (boolText b) := by
  cases b with
  | false => exact .false
  | true => exact .true

section joined

@[simp] theorem fullText_keyedString (key : String) (text : Bytes) :
    fullText (keyedString key text) = keyed key ++ stringText text := by
  simp [keyedString, Append.text, keyed]

theorem fullText_joined (items : List (List Append)) :
    fullText (joined items) = commaSeparated (items.map fullText) := by
  induction items with
  | nil => rfl
  | cons item items ih =>
    cases items with
    | nil => simp [joined, commaSeparated]
    | cons item' items =>
      rw [joined, commaSeparated] at ih
      rw [joined, commaSeparated, List.intercalate_cons_cons, List.map_cons, List.map_cons,
        List.intercalate_cons_cons, fullText_append, fullText_append, ih]
      rfl

/-- An object of plain keys. -/
def objectOf (keys : List String) (values : List Bytes) : Bytes :=
  objectText ((keys.map bytes).zip values)

/-- What follows the first member of such an object. -/
def restOf (keys : List String) (values : List Bytes) : Bytes :=
  ((keys.map bytes).zip values).flatMap (fun field => comma :: fieldText field) ++ [125]

@[simp] theorem objectOf_cons (key : String) (keys : List String) (v : Bytes)
    (values : List Bytes) :
    objectOf (key :: keys) (v :: values) = 123 :: (keyed key ++ (v ++ restOf keys values)) := by
  simp [objectOf, objectText, restOf, commaSeparated_cons, fieldText, keyed, List.flatMap_map]

@[simp] theorem restOf_cons (key : String) (keys : List String) (v : Bytes)
    (values : List Bytes) :
    restOf (key :: keys) (v :: values) = nextKey key ++ (v ++ restOf keys values) := by
  simp [restOf, fieldText, nextKey, keyed]

@[simp] theorem restOf_nil : restOf [] [] = [125] := rfl

@[simp] theorem comma_keyed (key : String) (text : Bytes) :
    comma :: (keyed key ++ text) = nextKey key ++ text := rfl

theorem value_objectOf {keys : List String} {values : List Bytes} (hne : keys ≠ [])
    (hlen : keys.length = values.length) (hkeys : keys.all fun key => isPlainName (bytes key))
    (hvalues : ∀ v ∈ values, Value v) : Value (objectOf keys values) := by
  refine value_objectText ?_ ?_ ?_
  · intro h
    have hlength := congrArg List.length h
    rw [List.length_zip, List.length_map, ← hlen, Nat.min_self] at hlength
    exact hne (List.eq_nil_of_length_eq_zero hlength)
  · rw [List.all_eq_true] at hkeys ⊢
    intro field hfield
    obtain ⟨key, hkey, heq⟩ := List.mem_map.mp (List.of_mem_zip hfield).1
    rw [← heq]
    exact hkeys key hkey
  · exact fun field hfield => hvalues _ (List.of_mem_zip hfield).2

end joined

end WovenTeam

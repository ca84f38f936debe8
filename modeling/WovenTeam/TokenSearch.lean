import WovenTeam.Json
import WovenTeam.Lib.JsonTokens

/-!
# Searching JSON texts

`findFieldValue` looks for a quoted key in the bytes of its text. In a JSON text, for a key that
cannot stand between two strings, it ends at the tokens behind the first string that ends in the key
and has a colon behind it (`findFieldValue_textOf`).
-/

namespace WovenTeam

open CText QuotedText JsonText

/-- A key that fits the search pattern, and is found only where it ends a string. -/
structure LineKey (key : String) : Prop where
  short : (bytes key).length < 126
  closing : ClosingWord (bytes key)

def isColonToken : Token → Bool
  | .str _ => false
  | .gap b => b == colon

/-- The tokens of the value the search ends at, and what follows them. -/
def fieldTokens (key : Bytes) : List Token → Option (List Token)
  | [] => none
  | t :: ts =>
    if t.endsIn key && (skip ts).head?.any isColonToken then some (skip (skip ts).tail)
    else fieldTokens key ts

section search

variable {ts us : List Token} {place : Position} {key : Bytes}

theorem behind_suffix (h : behind key ts = some us) : us <:+ ts := by
  induction ts with
  | nil => cases h
  | cons t ts ih =>
    rw [behind] at h
    split at h
    · cases h
      exact List.suffix_cons t us
    · exact (ih h).trans (List.suffix_cons t ts)

/-- The search goes on behind each string that ends in the key and has no colon behind it. -/
theorem fieldTokens_behind (key : Bytes) (ts : List Token) :
    fieldTokens key ts = (behind key ts).bind fun us =>
      if (skip us).head?.any isColonToken then some (skip (skip us).tail)
      else fieldTokens key us := by
  induction ts with
  | nil => rfl
  | cons t ts ih =>
    rw [fieldTokens, behind]
    cases t.endsIn key with
    | true => rfl
    | false => exact ih

theorem fieldTokens_skip (key : Bytes) (ts : List Token) :
    fieldTokens key (skip ts) = fieldTokens key ts := by
  induction ts with
  | nil => rfl
  | cons t ts ih =>
    cases hsolid : t.solid with
    | true => rw [skip, List.dropWhile_cons_of_neg (by simp [hsolid])]
    | false =>
      rw [skip, List.dropWhile_cons_of_pos (by simp [hsolid]), ← skip, ih]
      cases t with
      | str s => cases hsolid
      | gap b => rfl

theorem length_behind (hkey : ClosingWord key) (h : Accepted place ts)
    (hbehind : behind key ts = some us) : (textOf us).length + 2 ≤ (textOf ts).length := by
  have hfound := strstr_quoted hkey h
  rw [hbehind, Option.map_some] at hfound
  obtain ⟨pre, rest, htext, heq⟩ := strstr_eq_some hfound
  have hlen := congrArg List.length htext
  rw [← List.append_cancel_left heq] at hlen
  simp only [List.length_append, List.length_cons] at hlen
  omega

/-- **The search ends where it ends among the tokens.** -/
theorem findFieldFrom_textOf (hkey : ClosingWord key) {fuel : Nat} (h : Accepted place ts)
    (hfuel : (textOf ts).length < fuel) :
    findFieldFrom (quotedKey key) fuel (textOf ts) = (fieldTokens key ts).map textOf := by
  induction fuel generalizing ts place with
  | zero => omega
  | succ fuel ih =>
    rw [findFieldFrom, strstr_quoted hkey h, fieldTokens_behind]
    cases hbehind : behind key ts with
    | none => rfl
    | some us =>
      rw [Option.bind_some]
      have hlen := length_behind hkey h hbehind
      have hskip : (textOf (skip us)).length ≤ (textOf us).length := by
        rw [← dropSpaces_textOf]
        exact (List.dropWhile_suffix _).length_le
      obtain ⟨place', hus⟩ := h.suffix ((skip_suffix us).trans (behind_suffix hbehind))
      have hcontinue := ih hus (by omega)
      rw [fieldTokens_skip] at hcontinue
      simp only [Option.map_some, List.drop_left, dropSpaces_textOf]
      cases hfirst : skip us with
      | nil =>
        rw [← fieldTokens_skip, hfirst]
        cases fuel with
        | zero => rfl
        | succ fuel => rw [textOf_nil, findFieldFrom]; rfl
      | cons t rest =>
        rw [hfirst] at hcontinue
        cases t with
        | str s =>
          rw [textOf_str] at hcontinue ⊢
          exact hcontinue
        | gap b =>
          rw [textOf_gap] at hcontinue ⊢
          dsimp only
          by_cases hb : b = colon
          · simp [hb, isColonToken, dropSpaces_textOf]
          · simpa [hb, isColonToken] using hcontinue

theorem fieldTokens_suffix (h : fieldTokens key ts = some us) : us <:+ ts := by
  induction ts with
  | nil => cases h
  | cons t ts ih =>
    rw [fieldTokens] at h
    split at h
    · cases h
      exact (skip_suffix _).trans ((List.tail_suffix _).trans ((skip_suffix ts).trans
        (List.suffix_cons t ts)))
    · exact (ih h).trans (List.suffix_cons t ts)

/-- What the search ends at begins with no white space. -/
theorem solid_of_fieldTokens {t : Token} (h : fieldTokens key ts = some (t :: us)) : t.solid := by
  induction ts with
  | nil => cases h
  | cons t' ts ih =>
    rw [fieldTokens] at h
    split at h
    · exact solid_of_skip (Option.some.inj h)
    · exact ih h

end search

/-- The value of a key in a JSON text. -/
theorem findFieldValue_textOf {key : String} (hkey : LineKey key) {ts : List Token}
    {place : Position} (h : Accepted place ts) :
    findFieldValue (textOf ts) key = (fieldTokens (bytes key) ts).map textOf := by
  have hpattern : snprintf 128 (quoted (bytes key)) = quotedKey (bytes key) := by
    have hshort := hkey.short
    refine (snprintf_of_lt ?_).trans rfl
    rw [quoted, quotedThen, List.length_cons, List.length_append, List.length_singleton]
    omega
  rw [findFieldValue, hpattern]
  exact findFieldFrom_textOf hkey.closing h (Nat.lt_succ_self _)

/-- The characters of a string are escaped as the reader expects it. -/
theorem escaped_chars (s : List JsonChar) : Escaped (s.flatMap JsonChar.render) := by
  have hlow : ∀ b : UInt8, 32 ≤ b → b ≠ newline := by
    rintro b hb rfl
    exact absurd hb (by decide)
  have hdigit : ∀ {b : UInt8}, (hexValue b).isSome → b ≠ quote ∧ b ≠ backslash ∧ b ≠ newline := by
    intro b hb
    refine ⟨?_, ?_, ?_⟩
    all_goals rintro rfl
    all_goals cases hb
  induction s with
  | nil => exact .nil
  | cons c s ih =>
    rw [List.flatMap_cons]
    cases c with
    | byte b h => exact .byte h.2.1 h.2.2 (hlow b h.1) ih
    | short letter unit h =>
      refine .escape ?_ ih
      rintro rfl
      simp [shortEscapes, newline] at h
    | digits a b c d unit h =>
      obtain ⟨ha, hb, hc, hd⟩ := digits_isSome h
      refine .escape (by decide) (.byte (hdigit ha).1 (hdigit ha).2.1 (hdigit ha).2.2
        (.byte (hdigit hb).1 (hdigit hb).2.1 (hdigit hb).2.2
          (.byte (hdigit hc).1 (hdigit hc).2.1 (hdigit hc).2.2
            (.byte (hdigit hd).1 (hdigit hd).2.1 (hdigit hd).2.2 ih))))

end WovenTeam

import WovenTeam.TokenSearch
import WovenTeam.Lib.JsonDecode

/-!
# Reading flat objects

What `wtJsonReadString` makes of the string literals of a flat object. It knows the escapes of one
letter for line breaks and tabs and takes any other escaped letter for itself, so that `\b`, `\f`
and `\u` come out as letters: `readsRight_iff`.
-/

namespace WovenTeam

open CText QuotedText JsonText

/-! ## Flat objects -/

/-- A byte that is written as itself. -/
abbrev PlainByte : Type := { b : UInt8 // 32 ≤ b ∧ b ≠ quote ∧ b ≠ backslash }

inductive FlatValue where
  | string (s : JsonString)
  | number (sign whole fraction exponent : Bytes) (h : IsNumber sign whole fraction exponent)

def FlatValue.text : FlatValue → Bytes
  | string s => s.render
  | number sign whole fraction exponent _ => sign ++ whole ++ fraction ++ exponent

/-- A member with a plain name, and the white space around its parts. -/
structure FlatMember where
  lead : Bytes
  name : List PlainByte
  gap : Bytes
  space : Bytes
  value : FlatValue
  trail : Bytes
  white : White lead ∧ White gap ∧ White space ∧ White trail

def FlatMember.word (m : FlatMember) : Bytes := m.name.map Subtype.val

def FlatMember.text (m : FlatMember) : Bytes :=
  m.lead ++ (quote :: (m.word ++ quote :: (m.gap ++ colon :: (m.space ++ (m.value.text ++ m.trail)))))

structure FlatObject where
  before : Bytes
  members : List FlatMember
  /-- What stands between the brackets of an object without members. -/
  inner : Bytes
  after : Bytes
  white : White before ∧ White inner ∧ White after
  distinct : (members.map FlatMember.word).Nodup

def FlatObject.text (o : FlatObject) : Bytes :=
  o.before ++ 123 :: ((if o.members = [] then o.inner
    else commaSeparated (o.members.map FlatMember.text)) ++ 125 :: o.after)

def FlatObject.valueOf (o : FlatObject) (key : String) : Option FlatValue :=
  (o.members.find? fun m => m.word == bytes key).map FlatMember.value

/-- What a key's literal stands for is read where it fits and has no null byte; what is no string
is not read. -/
def ReadsRight (o : FlatObject) (key : String) (size : Nat) : Prop :=
  (∀ s out, o.valueOf key = some (.string s) → s.decode = some out → out.length < size →
    0 ∉ out → wtJsonReadString o.text key size = .ok out) ∧
  ((∀ s, o.valueOf key ≠ some (.string s)) → (wtJsonReadString o.text key size).toOption = none)

/-- A character the reader knows: a byte of its own, or an escape of one letter that is not `b` or
`f`. -/
def knownChar : JsonChar → Bool
  | .byte _ _ => true
  | .short letter _ _ => letter != 98 && letter != 102
  | .digits .. => false

/-- The key has no literal that is to be read, or one whose characters the reader knows. -/
def LiteralKnown (o : FlatObject) (key : String) (size : Nat) : Prop :=
  ∀ s out, o.valueOf key = some (.string s) → s.decode = some out → out.length < size →
    0 ∉ out → s.all knownChar = true

/-! ## Decoding -/

theorem unescape_digit {b : UInt8} (h : (hexValue b).isSome) (t : Bytes) :
    unescape (b :: t) = b :: unescape t := by
  refine unescape_byte ?_ t
  rintro rfl
  cases h

/-- What the reader makes of a character. -/
def readChar : JsonChar → Bytes
  | .byte b _ => [b]
  | .short letter _ _ => [unescapeByte letter]
  | .digits a b c d _ _ => [117, a, b, c, d]

theorem unescape_render (c : JsonChar) (t : Bytes) :
    unescape (c.render ++ t) = readChar c ++ unescape t := by
  cases c with
  | byte b h => exact unescape_byte h.2.2 t
  | short letter unit h => simp [JsonChar.render, readChar, unescape]
  | digits a b c d unit h =>
    obtain ⟨ha, hb, hc, hd⟩ := digits_isSome h
    have hescape : ∀ t, unescape (backslash :: 117 :: t) = 117 :: unescape t := fun t => rfl
    simp only [JsonChar.render, readChar, List.cons_append, List.nil_append]
    rw [hescape, unescape_digit ha, unescape_digit hb, unescape_digit hc, unescape_digit hd]

/-- The reader's text is never shorter than the true one. -/
theorem decodeFrom_length {pending : Option Nat} {s : List JsonChar} {out : Bytes}
    (h : decodeFrom pending s = some out) :
    out.length + (if pending.isSome then 1 else 0) ≤
      (unescape (s.flatMap JsonChar.render)).length := by
  induction s generalizing pending out with
  | nil =>
    cases pending with
    | none =>
      cases h
      simp
    | some high => cases h
  | cons c s ih =>
    rw [List.flatMap_cons, unescape_render, List.length_append]
    cases pending with
    | none =>
      cases c with
      | byte b hb =>
        obtain ⟨rest, hrest, rfl⟩ := Option.map_eq_some_iff.mp h
        have hlen := ih hrest
        simp [readChar] at hlen ⊢
        omega
      | short letter unit hshort =>
        obtain ⟨rest, hrest, rfl⟩ := Option.map_eq_some_iff.mp h
        have hlen := ih hrest
        rw [utf8_of_short hshort]
        simp [readChar] at hlen ⊢
        omega
      | digits a b c d unit hdigits =>
        rw [decodeFrom] at h
        split at h
        · have hlen := ih h
          simp [readChar] at hlen ⊢
          omega
        · split at h
          · cases h
          · obtain ⟨rest, hrest, rfl⟩ := Option.map_eq_some_iff.mp h
            have hlen := ih hrest
            have hfour := utf8_length unit
            simp [readChar] at hlen ⊢
            omega
    | some high =>
      cases c with
      | byte => cases h
      | short => cases h
      | digits a b c d unit hdigits =>
        rw [decodeFrom] at h
        split at h
        · obtain ⟨rest, hrest, rfl⟩ := Option.map_eq_some_iff.mp h
          have hlen := ih hrest
          have hfour := utf8_length (surrogatePair high unit)
          simp [readChar] at hlen ⊢
          omega
        · cases h

/-- **The reader makes the true text of a literal exactly where it knows all its characters.** -/
theorem unescape_eq_iff {s : List JsonChar} {out : Bytes} (h : decodeFrom none s = some out) :
    unescape (s.flatMap JsonChar.render) = out ↔ s.all knownChar = true := by
  induction s generalizing out with
  | nil =>
    cases h
    simp [unescape]
  | cons c s ih =>
    rw [List.flatMap_cons, unescape_render, List.all_cons, Bool.and_eq_true]
    cases c with
    | byte b hb =>
      obtain ⟨rest, hrest, rfl⟩ := Option.map_eq_some_iff.mp h
      simp [readChar, knownChar, ih hrest]
    | short letter unit hshort =>
      obtain ⟨rest, hrest, rfl⟩ := Option.map_eq_some_iff.mp h
      have hall : ∀ escape ∈ shortEscapes, unescapeByte escape.1 = escape.2.toUInt8 ↔
          (escape.1 != 98 && escape.1 != 102) = true := by decide +kernel
      rw [utf8_of_short hshort, readChar, List.singleton_append, List.singleton_append,
        List.cons.injEq, ih hrest, hall _ hshort, knownChar]
    | digits a b c d unit hdigits =>
      refine iff_of_false (fun heq => ?_) (by simp [knownChar])
      have hlen := congrArg List.length heq
      simp only [readChar, List.length_append, List.length_cons] at hlen
      rw [decodeFrom] at h
      split at h
      · have hle := decodeFrom_length h
        simp at hle
        omega
      · split at h
        · cases h
        · obtain ⟨rest, hrest, rfl⟩ := Option.map_eq_some_iff.mp h
          have hle := decodeFrom_length hrest
          have hfour := utf8_length unit
          simp at hle hlen
          omega

/-! ## Searching -/

def FlatMember.nameString (m : FlatMember) : JsonString :=
  m.name.map fun b => .byte b.1 b.2

def FlatValue.tokens : FlatValue → List Token
  | string s => [.str s]
  | number sign whole fraction exponent _ => gaps (sign ++ whole ++ fraction ++ exponent)

def FlatMember.tokens (m : FlatMember) : List Token :=
  gaps m.lead ++ (.str m.nameString :: (gaps m.gap ++
    .gap colon :: (gaps m.space ++ (m.value.tokens ++ gaps m.trail))))

/-- Members with commas between them, and what follows. -/
def membersTokens (rest : List Token) : List FlatMember → List Token
  | [] => rest
  | [m] => m.tokens ++ rest
  | m :: ms => m.tokens ++ .gap comma :: membersTokens rest ms

section tokens

variable {m : FlatMember} {ms : List FlatMember} {key : Bytes} {rest : List Token}

theorem render_nameString (m : FlatMember) :
    m.nameString.flatMap JsonChar.render = m.word := by
  rw [FlatMember.nameString, FlatMember.word]
  induction m.name with
  | nil => rfl
  | cons b name ih => rw [List.map_cons, List.flatMap_cons, ih]; rfl

theorem textOf_value (v : FlatValue) : textOf v.tokens = v.text := by
  cases v with
  | string s => simp [FlatValue.tokens, FlatValue.text, textOf, Token.render]
  | number => exact textOf_gaps _

theorem textOf_tokens (m : FlatMember) : textOf m.tokens = m.text := by
  simp only [FlatMember.tokens, FlatMember.text, textOf_append, textOf_gaps, textOf_str,
    textOf_gap, render_nameString, textOf_value]

theorem textOf_membersTokens (rest : List Token) (ms : List FlatMember) :
    textOf (membersTokens rest ms) =
      commaSeparated (ms.map FlatMember.text) ++ textOf rest := by
  induction ms with
  | nil => simp [membersTokens, commaSeparated]
  | cons m ms ih =>
    cases ms with
    | nil => simp [membersTokens, commaSeparated, textOf_tokens]
    | cons m' ms =>
      rw [membersTokens, textOf_append, textOf_gap, ih, textOf_tokens]
      · simp [commaSeparated, List.intercalate_cons_cons]
      · simp

theorem fieldTokens_gaps (key text : Bytes) (ts : List Token) :
    fieldTokens key (gaps text ++ ts) = fieldTokens key ts := by
  induction text with
  | nil => rfl
  | cons b text ih => exact ih

theorem skip_gaps {w : Bytes} (hw : White w) (ts : List Token) : skip (gaps w ++ ts) = skip ts := by
  induction w with
  | nil => rfl
  | cons b w ih =>
    have hb := isSpace_of_isWhite (hw b List.mem_cons_self)
    rw [gaps, List.map_cons, List.cons_append, skip,
      List.dropWhile_cons_of_pos (by simp [Token.solid, hb])]
    exact ih fun c hc => hw c (List.mem_cons_of_mem b hc)

/-- A name ends in the key only where it is the key. -/
theorem endsIn_name (m : FlatMember) (key : Bytes) :
    (Token.str m.nameString).endsIn key = decide (m.word = key) := by
  have hquote : quote ∉ m.word := by
    intro hmem
    obtain ⟨b, -, hb⟩ := List.mem_map.mp hmem
    exact b.2.2.1 hb
  rw [Token.endsIn, Bool.eq_iff_iff, List.isSuffixOf_iff_suffix, decide_eq_true_eq]
  rw [show m.nameString.render = quote :: (m.word ++ [quote]) by
    rw [JsonString.render, render_nameString]]
  constructor
  · intro h
    rcases List.suffix_cons_iff.mp h with h | h
    · exact (List.append_cancel_right (List.cons.inj h).2).symm
    · have hlen := ((suffix_skip hquote).mp h).length_le
      simp at hlen
  · rintro rfl
    exact List.suffix_refl _

/-- A value begins with no white space. -/
theorem skip_value (v : FlatValue) (ts : List Token) :
    skip (v.tokens ++ ts) = v.tokens ++ ts := by
  cases v with
  | string s => exact List.dropWhile_cons_of_neg (by simp [Token.solid])
  | number sign whole fraction exponent h =>
    obtain ⟨hne, hall⟩ := atoms_number h
    rw [FlatValue.tokens]
    generalize sign ++ whole ++ fraction ++ exponent = text at hne hall
    obtain ⟨b, text, rfl⟩ := List.exists_cons_of_ne_nil hne
    rw [List.all_cons, Bool.and_eq_true] at hall
    rw [gaps, List.map_cons, List.cons_append]
    exact List.dropWhile_cons_of_neg (by simp [solid_of_atom hall.1])

/-- The text goes on behind a member: a token follows that is no colon. -/
def Follows (ts : List Token) : Prop := ∀ t ∈ ts.head?, t.solid ∧ isColonToken t = false

/-- A value is not taken for a key. -/
theorem fieldTokens_value (v : FlatValue) {w : Bytes} (hw : White w) {ts : List Token}
    (hts : Follows ts) :
    fieldTokens key (v.tokens ++ (gaps w ++ ts)) = fieldTokens key ts := by
  cases v with
  | number => rw [FlatValue.tokens, fieldTokens_gaps, fieldTokens_gaps]
  | string s =>
    have hnext : (skip ts).head?.any isColonToken = false := by
      cases ts with
      | nil => rfl
      | cons t ts =>
        obtain ⟨hsolid, hcolon⟩ := hts t rfl
        rw [skip, List.dropWhile_cons_of_neg (by simp [hsolid])]
        simpa using hcolon
    rw [FlatValue.tokens, List.singleton_append, fieldTokens, skip_gaps hw, hnext,
      Bool.and_false, if_neg (by simp), fieldTokens_gaps]

/-- The search takes a member's value where the name is the key, and goes on else. -/
theorem fieldTokens_member (m : FlatMember) {ts : List Token} (hts : Follows ts) :
    fieldTokens key (m.tokens ++ ts) =
      if m.word = key then some (m.value.tokens ++ (gaps m.trail ++ ts))
      else fieldTokens key ts := by
  obtain ⟨-, hgap, hspace, htrail⟩ := m.white
  have htokens : m.tokens ++ ts = gaps m.lead ++ (.str m.nameString :: (gaps m.gap ++
      (.gap colon :: (gaps m.space ++ (m.value.tokens ++ (gaps m.trail ++ ts)))))) := by
    simp [FlatMember.tokens]
  have hcolon : ∀ us : List Token, skip (.gap colon :: us) = .gap colon :: us := fun us =>
    List.dropWhile_cons_of_neg (by decide)
  have hpass : ∀ us : List Token, fieldTokens key (.gap colon :: us) = fieldTokens key us :=
    fun us => rfl
  rw [htokens, fieldTokens_gaps, fieldTokens, skip_gaps hgap, hcolon, List.head?_cons,
    List.tail_cons, skip_gaps hspace, skip_value, endsIn_name]
  by_cases hword : m.word = key
  · simp [hword, isColonToken]
  · rw [if_neg (by simp [hword]), if_neg hword, fieldTokens_gaps, hpass, fieldTokens_gaps,
      fieldTokens_value m.value htrail hts]

theorem follows_membersTokens (hrest : Follows rest) (m : FlatMember) (ms : List FlatMember) :
    ∃ us, membersTokens rest (m :: ms) = m.tokens ++ us ∧ Follows us ∧
      fieldTokens key us = fieldTokens key (membersTokens rest ms) := by
  cases ms with
  | nil => exact ⟨rest, rfl, hrest, rfl⟩
  | cons m' ms =>
    refine ⟨.gap comma :: membersTokens rest (m' :: ms), rfl, ?_, rfl⟩
    intro t ht
    cases ht
    exact ⟨by decide, by decide⟩

/-- The search finds the first member of that name. -/
theorem fieldTokens_members (hrest : Follows rest) (ms : List FlatMember) :
    (∀ m, ms.find? (fun m => m.word == key) = some m →
      ∃ us, fieldTokens key (membersTokens rest ms) = some (m.value.tokens ++ us)) ∧
    (ms.find? (fun m => m.word == key) = none →
      fieldTokens key (membersTokens rest ms) = fieldTokens key rest) := by
  induction ms with
  | nil => exact ⟨fun m hm => (nomatch hm), fun _ => rfl⟩
  | cons m ms ih =>
    obtain ⟨us, htokens, hus, hgo⟩ := @follows_membersTokens key rest hrest m ms
    rw [htokens, fieldTokens_member m hus]
    by_cases hword : m.word = key
    · rw [List.find?_cons_of_pos (by simpa using hword), if_pos hword]
      refine ⟨?_, fun h => nomatch h⟩
      rintro m' hm'
      cases hm'
      exact ⟨_, rfl⟩
    · rw [List.find?_cons_of_neg (by simpa using hword), if_neg hword, hgo]
      exact ih

end tokens

/-! ## The object -/

def FlatObject.tokens (o : FlatObject) : List Token :=
  gaps o.before ++ .gap 123 :: (if o.members = [] then gaps o.inner ++ .gap 125 :: gaps o.after
    else membersTokens (.gap 125 :: gaps o.after) o.members)

section object

variable {o : FlatObject} {key : String}

theorem textOf_object (o : FlatObject) : textOf o.tokens = o.text := by
  rw [FlatObject.tokens, FlatObject.text, textOf_append, textOf_gaps, textOf_gap]
  split
  · rw [textOf_append, textOf_gaps, textOf_gap, textOf_gaps]
  · rw [textOf_membersTokens, textOf_gap, textOf_gaps]

theorem run_value (v : FlatValue) :
    ∃ next, next ≠ .opened ∧ run .opened v.tokens = some next := by
  cases v with
  | string s => exact ⟨.closed, by decide, rfl⟩
  | number sign whole fraction exponent h =>
    exact ⟨.inside, by decide, run_atoms (atoms_number h).1 (atoms_number h).2⟩

theorem run_member (m : FlatMember) :
    ∃ next, next ≠ .opened ∧ run .opened m.tokens = some next := by
  obtain ⟨hlead, hgap, hspace, htrail⟩ := m.white
  obtain ⟨place, hplace, hvalue⟩ := run_value m.value
  obtain ⟨next, hnext, hend⟩ := run_trailing hplace htrail
  have hname : ∀ ts, run .opened (.str m.nameString :: ts) = run .closed ts := fun ts => rfl
  have hcolon : ∀ ts, run .closed (.gap colon :: ts) = run .opened ts := fun ts => rfl
  refine ⟨next, hnext, ?_⟩
  rw [FlatMember.tokens, run_append, run_white hlead (by decide), Option.bind_some, hname,
    run_append, run_white hgap (by decide), Option.bind_some, hcolon, run_append,
    run_white hspace (by decide), Option.bind_some, run_append, hvalue, Option.bind_some, hend]

theorem accepted_append {place next : Position} {ts us : List Token} (h : run place ts = some next)
    (hus : Accepted next us) : Accepted place (ts ++ us) := by
  rw [Accepted, run_append, h, Option.bind_some]
  exact hus

theorem accepted_members {rest : List Token} (hrest : ∀ place, Accepted place rest)
    {ms : List FlatMember} (hne : ms ≠ []) : Accepted .opened (membersTokens rest ms) := by
  induction ms with
  | nil => exact absurd rfl hne
  | cons m ms ih =>
    obtain ⟨next, hnext, hrun⟩ := run_member m
    cases ms with
    | nil => exact accepted_append hrun (hrest next)
    | cons m' ms =>
      refine accepted_append hrun (Accepted.cons.mpr ⟨.opened, ?_, ih (List.cons_ne_nil _ _)⟩)
      cases next with
      | opened => exact absurd rfl hnext
      | inside => rfl
      | closed => rfl

theorem accepted_object (o : FlatObject) : Accepted .opened o.tokens := by
  obtain ⟨hbefore, hinner, hafter⟩ := o.white
  have hclosing : ∀ place, Accepted place (.gap 125 :: gaps o.after) := by
    intro place
    refine Accepted.cons.mpr ⟨.closed, rfl, ?_⟩
    rw [Accepted, run_white hafter (by decide)]
    rfl
  refine accepted_append (run_white hbefore (by decide)) (Accepted.cons.mpr ⟨.opened, rfl, ?_⟩)
  split
  · exact accepted_append (run_white hinner (by decide)) (hclosing .opened)
  · rename_i hne
    exact accepted_members hclosing hne

/-- What the search ends at in a flat object: the key's value. -/
theorem fieldTokens_object (o : FlatObject) (key : String) :
    (∀ v, o.valueOf key = some v →
      ∃ us, fieldTokens (bytes key) o.tokens = some (v.tokens ++ us)) ∧
    (o.valueOf key = none → fieldTokens (bytes key) o.tokens = none) := by
  have hpass : ∀ ts, fieldTokens (bytes key) (.gap 123 :: ts) = fieldTokens (bytes key) ts :=
    fun ts => rfl
  have hclosing : fieldTokens (bytes key) (.gap 125 :: gaps o.after) = none := by
    have hgaps := fieldTokens_gaps (bytes key) o.after []
    rw [List.append_nil] at hgaps
    exact hgaps
  rw [FlatObject.tokens, fieldTokens_gaps, hpass, FlatObject.valueOf]
  by_cases hnone : o.members = []
  · rw [if_pos hnone, hnone, fieldTokens_gaps]
    exact ⟨fun v hv => (nomatch hv), fun _ => hclosing⟩
  · have hfollows : Follows (.gap 125 :: gaps o.after) := by
      intro t ht
      cases ht
      exact ⟨by decide, by decide⟩
    obtain ⟨hsome, habsent⟩ := @fieldTokens_members (bytes key) _ hfollows o.members
    rw [if_neg hnone]
    constructor
    · intro v hv
      obtain ⟨m, hm, rfl⟩ := Option.map_eq_some_iff.mp hv
      exact hsome m hm
    · intro h
      exact (habsent (Option.map_eq_none_iff.mp h)).trans hclosing

/-- What is no string is not read. -/
theorem readString_noString (hkey : LineKey key) (size : Nat)
    (h : ∀ s, o.valueOf key ≠ some (.string s)) :
    wtJsonReadString o.text key size = .absent := by
  obtain ⟨hsome, habsent⟩ := fieldTokens_object o key
  rw [wtJsonReadString, ← textOf_object, findFieldValue_textOf hkey (accepted_object o)]
  cases hvalue : o.valueOf key with
  | none =>
    rw [habsent hvalue]
    rfl
  | some v =>
    obtain ⟨us, hus⟩ := hsome v hvalue
    rw [hus, Option.map_some, textOf_append]
    cases v with
    | string s => exact absurd hvalue (h s)
    | number sign whole fraction exponent hnumber =>
      obtain ⟨hne, hall⟩ := atoms_number hnumber
      rw [FlatValue.tokens, textOf_gaps]
      generalize sign ++ whole ++ fraction ++ exponent = text at hne hall
      obtain ⟨b, text, rfl⟩ := List.exists_cons_of_ne_nil hne
      rw [List.all_cons, Bool.and_eq_true] at hall
      have hb : b ≠ quote := by
        rintro rfl
        exact absurd hall.1 (by decide)
      rw [List.cons_append]
      dsimp only
      rw [if_pos (.inl hb)]

/-- What the reader makes of a literal. -/
theorem readString_literal (hkey : LineKey key) {size : Nat} (hsize : size ≠ 0)
    {s : JsonString} (h : o.valueOf key = some (.string s)) :
    wtJsonReadString o.text key size =
      if (unescape (s.flatMap JsonChar.render)).length ≤ size - 1 then
        .ok (unescape (s.flatMap JsonChar.render))
      else .cut ((unescape (s.flatMap JsonChar.render)).take (size - 1)) := by
  obtain ⟨us, hus⟩ := (fieldTokens_object o key).1 _ h
  have htext : textOf (FlatValue.string s).tokens ++ textOf us =
      quote :: (s.flatMap JsonChar.render ++ quote :: textOf us) := by
    rw [FlatValue.tokens, ← textOf_append, List.singleton_append, textOf_str]
  rw [wtJsonReadString, ← textOf_object, findFieldValue_textOf hkey (accepted_object o), hus,
    Option.map_some, textOf_append, htext]
  dsimp only
  rw [if_neg (by simp [hsize]), copyString_escaped (escaped_chars s)]
  by_cases hlen : (unescape (s.flatMap JsonChar.render)).length ≤ size - 1
  · simp [hlen]
  · simp [hlen]

end object

/-! ## Objects of one member -/

/-- A plain word as a name. -/
def plainBytes (word : String) (h : ∀ b ∈ bytes word, 32 ≤ b ∧ b ≠ quote ∧ b ≠ backslash) :
    List PlainByte :=
  (bytes word).attach.map fun b => ⟨b.1, h b.1 b.2⟩

theorem white_nil : White [] := fun _ hb => absurd hb List.not_mem_nil

/-- The member `"name":"literal"` without white space. -/
def stringMember (name : List PlainByte) (literal : JsonString) : FlatMember where
  lead := []
  name := name
  gap := []
  space := []
  value := .string literal
  trail := []
  white := ⟨white_nil, white_nil, white_nil, white_nil⟩

def oneMember (m : FlatMember) : FlatObject where
  before := []
  members := [m]
  inner := []
  after := []
  white := ⟨white_nil, white_nil, white_nil⟩
  distinct := List.nodup_singleton _

theorem plain_text : ∀ b ∈ bytes "text", 32 ≤ b ∧ b ≠ quote ∧ b ≠ backslash := by
  decide +kernel

theorem lineKey_text : LineKey "text" :=
  ⟨by decide, by decide +kernel, by decide +kernel, .inr (by decide +kernel)⟩

/-- The object `{"text":"text"}`. -/
def textObject : FlatObject :=
  oneMember (stringMember (plainBytes "text" plain_text)
    (stringMember (plainBytes "text" plain_text) []).nameString)

end WovenTeam

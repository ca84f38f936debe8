import WovenTeam.Lib.JsonText

/-!
# Tokens

A JSON text is read as strings and the single bytes between them. An automaton says what may follow
what: behind a string, a number or a word only a separator leads to the next of them. It accepts
every JSON text (`accepted_of_isJson`), and still accepts it without some of its white space
(`accepted_strip`), and a quoted word is found in what it accepts only where it ends a string
(`strstr_quoted`).
-/

namespace JsonText

open CText

inductive Token where
  | str (s : JsonString)
  | gap (b : UInt8)

def Token.render : Token → Bytes
  | str s => s.render
  | gap b => [b]

def textOf (ts : List Token) : Bytes := ts.flatMap Token.render

@[simp] theorem textOf_nil : textOf [] = [] := rfl

@[simp] theorem textOf_gap (b : UInt8) (ts : List Token) :
    textOf (.gap b :: ts) = b :: textOf ts := rfl

@[simp] theorem textOf_str (s : JsonString) (ts : List Token) : textOf (.str s :: ts) =
    quote :: (List.flatMap JsonChar.render s ++ quote :: textOf ts) := by
  simp [textOf, Token.render, JsonString.render]

@[simp] theorem textOf_append (ts us : List Token) :
    textOf (ts ++ us) = textOf ts ++ textOf us := List.flatMap_append

/-- The bytes of a text outside strings. -/
def gaps (text : Bytes) : List Token := text.map Token.gap

@[simp] theorem textOf_gaps (text : Bytes) : textOf (gaps text) = text := by
  induction text with
  | nil => rfl
  | cons b text ih => rw [gaps, List.map_cons, textOf_gap, ← gaps, ih]

/-! ## The automaton -/

def isSeparator (b : UInt8) : Bool := b == comma || b == colon
def isOpening (b : UInt8) : Bool := b == 91 || b == 123
def isClosing (b : UInt8) : Bool := b == 93 || b == 125

/-- The bytes of numbers and words. -/
def isAtom (b : UInt8) : Bool :=
  !(isSpace b || isSeparator b || isOpening b || isClosing b || b == quote)

/-- What the last token leaves: room for a value, a number or word that may go on, or neither. -/
inductive Position where
  | opened
  | inside
  | closed
  deriving DecidableEq, Repr

def gapStep (place : Position) (b : UInt8) : Option Position :=
  if isWhite b then some (if place = .inside then .closed else place)
  else if isSeparator b then if place = .opened then none else some .opened
  else if isClosing b then some .closed
  else if isOpening b then if place = .opened then some .opened else none
  else if isAtom b then if place = .closed then none else some .inside
  else none

def Token.step (place : Position) : Token → Option Position
  | str _ => if place = .opened then some .closed else none
  | gap b => gapStep place b

def run : Position → List Token → Option Position
  | place, [] => some place
  | place, t :: ts => (t.step place).bind fun place => run place ts

theorem run_append (place : Position) (ts us : List Token) :
    run place (ts ++ us) = (run place ts).bind fun place => run place us := by
  induction ts generalizing place with
  | nil => rfl
  | cons t ts ih =>
    rw [List.cons_append, run, run]
    cases t.step place with
    | none => rfl
    | some next => exact ih next

theorem gapStep_white {place : Position} {b : UInt8} (hb : isWhite b) :
    gapStep place b = some (if place = .inside then .closed else place) := if_pos hb

theorem gapStep_atom {place : Position} {b : UInt8} (hb : isAtom b) :
    gapStep place b = if place = .closed then none else some .inside := by
  have hno := hb
  simp only [isAtom, Bool.not_eq_true', Bool.or_eq_false_iff] at hno
  obtain ⟨⟨⟨⟨hspace, hseparator⟩, hopening⟩, hclosing⟩, -⟩ := hno
  have hwhite : isWhite b = false := by
    rw [Bool.eq_false_iff]
    intro hwhite
    rw [isSpace_of_isWhite hwhite] at hspace
    cases hspace
  simp [gapStep, hwhite, hseparator, hopening, hclosing, hb]

theorem run_white {place : Position} {w : Bytes} (hw : White w) (hplace : place ≠ .inside) :
    run place (gaps w) = some place := by
  induction w with
  | nil => rfl
  | cons b w ih =>
    rw [gaps, List.map_cons, run, Token.step, gapStep_white (hw b List.mem_cons_self),
      if_neg hplace]
    exact ih fun c hc => hw c (List.mem_cons_of_mem b hc)

/-- White space behind a value leaves it behind a value. -/
theorem run_trailing {place : Position} {w : Bytes} (hplace : place ≠ .opened) (hw : White w) :
    ∃ next, next ≠ .opened ∧ run place (gaps w) = some next := by
  cases w with
  | nil => exact ⟨place, hplace, rfl⟩
  | cons b w =>
    refine ⟨.closed, by decide, ?_⟩
    have hclosed : (if place = .inside then Position.closed else place) = .closed := by
      cases place with
      | opened => exact absurd rfl hplace
      | inside => rfl
      | closed => rfl
    rw [gaps, List.map_cons, run, Token.step, gapStep_white (hw b List.mem_cons_self), hclosed]
    exact run_white (fun c hc => hw c (List.mem_cons_of_mem b hc)) (by decide)

/-- Numbers and words. -/
theorem run_atoms {a : Bytes} (hne : a ≠ []) (ha : a.all isAtom) :
    run .opened (gaps a) = some .inside := by
  have hinside : ∀ a : Bytes, a.all isAtom → run .inside (gaps a) = some .inside := by
    intro a ha
    induction a with
    | nil => rfl
    | cons b a ih =>
      rw [List.all_cons, Bool.and_eq_true] at ha
      rw [gaps, List.map_cons, run, Token.step, gapStep_atom ha.1]
      exact ih ha.2
  obtain ⟨b, a, rfl⟩ := List.exists_cons_of_ne_nil hne
  rw [List.all_cons, Bool.and_eq_true] at ha
  rw [gaps, List.map_cons, run, Token.step, gapStep_atom ha.1]
  exact hinside a ha.2

def Accepted (place : Position) (ts : List Token) : Prop := (run place ts).isSome

theorem Accepted.cons {place : Position} {t : Token} {ts : List Token} :
    Accepted place (t :: ts) ↔ ∃ next, t.step place = some next ∧ Accepted next ts := by
  unfold Accepted
  rw [run]
  cases t.step place <;> simp

theorem Accepted.suffix {place : Position} {ts us : List Token} (h : Accepted place ts)
    (hsuffix : us <:+ ts) : ∃ place', Accepted place' us := by
  obtain ⟨front, rfl⟩ := hsuffix
  rw [Accepted, run_append] at h
  cases hrun : run place front with
  | none =>
    rw [hrun] at h
    cases h
  | some place' =>
    rw [hrun] at h
    exact ⟨place', h⟩

/-! ## JSON texts -/

/-- The text leads from the first place to the second. -/
def Leads (place : Position) (text : Bytes) (next : Position) : Prop :=
  ∃ ts, textOf ts = text ∧ run place ts = some next

/-- The text is a value or ends in one. -/
def Ends (place : Position) (text : Bytes) : Prop := ∃ next, next ≠ .opened ∧ Leads place text next

section leads

variable {place next last : Position} {text text' : Bytes} {b : UInt8}

theorem Leads.append (h : Leads place text next) (h' : Leads next text' last) :
    Leads place (text ++ text') last := by
  obtain ⟨ts, rfl, hts⟩ := h
  obtain ⟨us, rfl, hus⟩ := h'
  exact ⟨ts ++ us, by simp [textOf], by rw [run_append, hts, Option.bind_some, hus]⟩

theorem Leads.of_gap (h : gapStep place b = some next) : Leads place [b] next :=
  ⟨[.gap b], rfl, by rw [run, Token.step, h, Option.bind_some, run]⟩

theorem Leads.cons (h : gapStep place b = some next) (h' : Leads next text last) :
    Leads place (b :: text) last := (Leads.of_gap h).append h'

theorem Leads.ends (h : Leads place text next) (h' : Ends next text') :
    Ends place (text ++ text') := by
  obtain ⟨last, hlast, hleads⟩ := h'
  exact ⟨last, hlast, h.append hleads⟩

theorem leads_white {w : Bytes} (hw : White w) (hplace : place ≠ .inside) :
    Leads place w place := ⟨gaps w, textOf_gaps w, run_white hw hplace⟩

theorem Ends.append_white {w : Bytes} (h : Ends place text) (hw : White w) :
    Ends place (text ++ w) := by
  obtain ⟨next, hnext, hleads⟩ := h
  obtain ⟨last, hlast, hrun⟩ := run_trailing hnext hw
  exact ⟨last, hlast, hleads.append ⟨gaps w, textOf_gaps w, hrun⟩⟩

theorem Ends.append_separator (h : Ends place text) (hb : b = comma ∨ b = colon) :
    Leads place (text ++ [b]) .opened := by
  obtain ⟨next, hnext, hleads⟩ := h
  refine hleads.append (.of_gap ?_)
  rcases hb with rfl | rfl <;> cases next <;> first | rfl | exact absurd rfl hnext

theorem Ends.append_closing (h : Ends place text) (hb : b = 93 ∨ b = 125) :
    Ends place (text ++ [b]) := by
  obtain ⟨next, hnext, hleads⟩ := h
  refine ⟨.closed, by decide, hleads.append (.of_gap ?_)⟩
  rcases hb with rfl | rfl <;> cases next <;> rfl

theorem ends_atoms {a : Bytes} (hne : a ≠ []) (ha : a.all isAtom) : Ends .opened a :=
  ⟨.inside, by decide, gaps a, textOf_gaps a, run_atoms hne ha⟩

theorem leads_string (s : JsonString) : Leads .opened s.render .closed :=
  ⟨[.str s], by simp [textOf, Token.render], rfl⟩

/-- Values between commas. -/
theorem ends_commaSeparated {texts : List Bytes} (hne : texts ≠ [])
    (h : ∀ text ∈ texts, Ends .opened text) : Ends .opened (commaSeparated texts) := by
  induction texts with
  | nil => exact absurd rfl hne
  | cons text texts ih =>
    rw [List.forall_mem_cons] at h
    cases texts with
    | nil => simpa [commaSeparated] using h.1
    | cons text' texts =>
      have hall : commaSeparated (text :: text' :: texts) =
          (text ++ [comma]) ++ commaSeparated (text' :: texts) := by
        simp [commaSeparated, List.intercalate_cons_cons]
      rw [hall]
      exact (h.1.append_separator (.inl rfl)).ends (ih (List.cons_ne_nil _ _) h.2)

end leads

theorem isAtom_of_isDigit {b : UInt8} (h : isDigit b) : isAtom b := by
  by_contra hno
  simp only [isAtom, isSeparator, isOpening, isClosing, Bool.not_eq_true', Bool.not_eq_false,
    Bool.or_eq_true, beq_iff_eq] at hno
  rcases hno with (((hspace | rfl | rfl) | rfl | rfl) | rfl | rfl) | rfl
  · rw [not_isDigit_of_isSpace hspace] at h
    cases h
  all_goals exact absurd h (by decide)

theorem atoms_number {sign whole fraction exponent : Bytes}
    (h : IsNumber sign whole fraction exponent) :
    sign ++ whole ++ fraction ++ exponent ≠ [] ∧
      (sign ++ whole ++ fraction ++ exponent).all isAtom := by
  obtain ⟨b, t, heq, -⟩ := number_head h
  have hdigits : ∀ {s : Bytes}, Digits s → s.all isAtom := fun hs =>
    List.all_eq_true.mpr fun b hb => isAtom_of_isDigit (hs.2 b hb)
  have hsign : sign.all isAtom := by rcases h.sign with rfl | rfl <;> decide
  have hwhole : whole.all isAtom := by
    rcases h.whole with rfl | ⟨hwhole, -⟩
    · decide
    · exact hdigits hwhole
  have hfraction : fraction.all isAtom := by
    rcases h.fraction with rfl | ⟨ds, rfl, hds⟩
    · rfl
    · rw [List.all_cons, hdigits hds]
      decide
  have hexponent : exponent.all isAtom := by
    rcases h.exponent with rfl | ⟨e, sign, ds, rfl, he, hsign, hds⟩
    · rfl
    · rw [List.all_cons, List.all_append, hdigits hds]
      rcases he with rfl | rfl <;> rcases hsign with rfl | rfl | rfl <;> decide
  exact ⟨by rw [heq]; simp, by simp [List.all_append, hsign, hwhole, hfraction, hexponent]⟩

/-- **A value is read to its end.** -/
theorem ends_value {v : Bytes} (h : Value v) : Ends .opened v := by
  have hbracket : ∀ {b c : UInt8} {text : Bytes}, b = 91 ∨ b = 123 → c = 93 ∨ c = 125 →
      Ends .opened text → Ends .opened (b :: (text ++ [c])) := by
    intro b c text hb hc htext
    have hopen : gapStep .opened b = some .opened := by rcases hb with rfl | rfl <;> rfl
    exact (Leads.of_gap hopen).ends (htext.append_closing hc)
  have hempty : ∀ {b c : UInt8} {w : Bytes}, b = 91 ∨ b = 123 → c = 93 ∨ c = 125 →
      White w → Ends .opened (b :: (w ++ [c])) := by
    intro b c w hb hc hw
    have hopen : gapStep .opened b = some .opened := by rcases hb with rfl | rfl <;> rfl
    have hclose : gapStep .opened c = some .closed := by rcases hc with rfl | rfl <;> rfl
    exact ⟨.closed, by decide, .cons hopen ((leads_white hw (by decide)).append (.of_gap hclose))⟩
  have hvalue : ∀ {lead text trail : Bytes}, White lead → Ends .opened text → White trail →
      Ends .opened (lead ++ (text ++ trail)) := fun hlead htext htrail =>
    (leads_white hlead (by decide)).ends (htext.append_white htrail)
  induction h with
  | null => exact ends_atoms (by decide) (by decide)
  | true => exact ends_atoms (by decide) (by decide)
  | false => exact ends_atoms (by decide) (by decide)
  | number h => exact ends_atoms (atoms_number h).1 (atoms_number h).2
  | string s => exact ⟨.closed, by decide, leads_string s⟩
  | emptyArray hw => exact hempty (.inl rfl) (.inl rfl) hw
  | emptyObject hw => exact hempty (.inr rfl) (.inr rfl) hw
  | @array es hne _ ih =>
    refine hbracket (.inl rfl) (.inl rfl) (ends_commaSeparated (by simpa using hne) ?_)
    intro text htext
    obtain ⟨e, he, rfl⟩ := List.mem_map.mp htext
    exact hvalue e.white.1 (ih e he) e.white.2
  | @object ms hne _ ih =>
    refine hbracket (.inr rfl) (.inr rfl) (ends_commaSeparated (by simpa using hne) ?_)
    intro text htext
    obtain ⟨m, hm, rfl⟩ := List.mem_map.mp htext
    obtain ⟨hlead, hgap, hspace, htrail⟩ := m.white
    have hname : Ends .opened (m.name.render ++ m.gap) :=
      Ends.append_white ⟨.closed, by decide, leads_string m.name⟩ hgap
    have hmember := ((leads_white hlead (by decide)).append
      (hname.append_separator (.inr rfl))).ends (hvalue hspace (ih m hm) htrail)
    simpa [JsonMember.render] using hmember

theorem accepted_of_isJson {text : Bytes} (h : IsJson text) :
    ∃ ts, textOf ts = text ∧ Accepted .opened ts := by
  obtain ⟨w, v, w', hw, hw', hv, rfl⟩ := h
  obtain ⟨next, -, ts, hts, hrun⟩ :=
    (leads_white hw (by decide)).ends ((ends_value hv).append_white hw')
  exact ⟨ts, hts, by rw [Accepted, hrun]; rfl⟩

/-- A string has two quotes. -/
theorem two_le_count_quote {text : Bytes} (h : IsJson text) (hquote : quote ∈ text) :
    2 ≤ text.count quote := by
  obtain ⟨ts, rfl, haccepted⟩ := accepted_of_isJson h
  obtain ⟨t, ht, hrender⟩ := List.mem_flatMap.mp hquote
  obtain ⟨front, rest, rfl⟩ := List.append_of_mem ht
  cases t with
  | gap b =>
    obtain ⟨place, hplace⟩ := haccepted.suffix (List.suffix_append front _)
    obtain ⟨next, hstep, -⟩ := Accepted.cons.mp hplace
    obtain rfl : quote = b := List.mem_singleton.mp hrender
    have hnone : ∀ place, gapStep place quote = none := by intro place; cases place <;> rfl
    rw [Token.step, hnone] at hstep
    cases hstep
  | str s =>
    simp only [textOf_append, textOf_str, List.count_append, List.count_cons_self]
    omega

/-! ## Without white space -/

def Token.keeps (drop : UInt8 → Bool) : Token → Bool
  | str _ => true
  | gap b => !drop b

/-- The tokens without the bytes to be dropped. -/
def strip (drop : UInt8 → Bool) (ts : List Token) : List Token := ts.filter (Token.keeps drop)

/-- The token is no white space. -/
def Token.solid : Token → Bool
  | str _ => true
  | gap b => !isSpace b

def skip (ts : List Token) : List Token := ts.dropWhile fun t => !t.solid

theorem dropSpaces_textOf (ts : List Token) : dropSpaces (textOf ts) = textOf (skip ts) := by
  induction ts with
  | nil => rfl
  | cons t ts ih =>
    cases t with
    | str s =>
      rw [skip, List.dropWhile_cons_of_neg (by simp [Token.solid]), textOf_str]
      exact List.dropWhile_cons_of_neg (by decide)
    | gap b =>
      cases hb : isSpace b with
      | true =>
        rw [skip, List.dropWhile_cons_of_pos (by simp [Token.solid, hb]), ← skip, ← ih, textOf_gap]
        exact List.dropWhile_cons_of_pos hb
      | false =>
        rw [skip, List.dropWhile_cons_of_neg (by simp [Token.solid, hb]), textOf_gap]
        exact List.dropWhile_cons_of_neg (by simp [hb])

theorem skip_suffix (ts : List Token) : skip ts <:+ ts := List.dropWhile_suffix _

theorem solid_of_skip {ts us : List Token} {t : Token} (h : skip ts = t :: us) : t.solid := by
  have hhead := List.head?_dropWhile_not (fun t : Token => !t.solid) ts
  rw [← skip, h] at hhead
  simpa using hhead

theorem solid_of_atom {b : UInt8} (h : isAtom b) : (Token.gap b).solid := by
  simp only [isAtom, Bool.not_eq_true', Bool.or_eq_false_iff] at h
  simp [Token.solid, h]

/-- Where the full text is behind a value, the stripped one may still be inside of it. -/
def Lags (place place' : Position) : Prop := place' = place ∨ place' = .inside ∧ place = .closed

theorem Lags.step {place place' next : Position} {t : Token} (h : Lags place place')
    (ht : t.step place = some next) : ∃ next', t.step place' = some next' ∧ Lags next next' := by
  rcases h with rfl | ⟨rfl, rfl⟩
  · exact ⟨next, ht, .inl rfl⟩
  · cases t with
    | str s => cases ht
    | gap b =>
      refine ⟨next, ?_, .inl rfl⟩
      rw [← ht, Token.step, Token.step, gapStep, gapStep]
      simp only [Token.step, gapStep] at ht
      split <;> try rfl
      rename_i hwhite
      rw [if_neg hwhite] at ht
      split <;> try rfl
      rename_i hseparator
      rw [if_neg hseparator] at ht
      split <;> try rfl
      rename_i hclosing
      rw [if_neg hclosing] at ht
      split
      · rename_i hopening
        rw [if_pos hopening] at ht
        cases ht
      · rename_i hopening
        rw [if_neg hopening] at ht
        split
        · rename_i hatom
          rw [if_pos hatom] at ht
          cases ht
        · rfl

/-- **A text is still accepted without some of its white space.** -/
theorem accepted_strip {drop : UInt8 → Bool} (hdrop : ∀ b, drop b → isWhite b) {ts : List Token}
    {place place' : Position} (hlags : Lags place place') (h : Accepted place ts) :
    Accepted place' (strip drop ts) := by
  induction ts generalizing place place' with
  | nil => rfl
  | cons t ts ih =>
    obtain ⟨next, hstep, hrest⟩ := Accepted.cons.mp h
    cases hkeeps : t.keeps drop with
    | true =>
      rw [strip, List.filter_cons_of_pos hkeeps]
      obtain ⟨next', hstep', hlags'⟩ := hlags.step hstep
      exact Accepted.cons.mpr ⟨next', hstep', ih hlags' hrest⟩
    | false =>
      rw [strip, List.filter_cons_of_neg (by simp [hkeeps])]
      cases t with
      | str s => cases hkeeps
      | gap b =>
        have hwhite := hdrop b (by simpa [Token.keeps] using hkeeps)
        rw [Token.step, gapStep_white hwhite, Option.some.injEq] at hstep
        refine ih ?_ hrest
        rw [← hstep]
        rcases hlags with rfl | ⟨rfl, rfl⟩
        · cases place' with
          | opened => exact .inl rfl
          | inside => exact .inr ⟨rfl, rfl⟩
          | closed => exact .inl rfl
        · exact .inr ⟨rfl, rfl⟩

/-! ## Quoted words -/

/-- A word that is found in quotes only where it ends a string: it cannot stand between two
strings. -/
structure ClosingWord (key : Bytes) : Prop where
  unquoted : quote ∉ key
  unescaped : key.getLast? ≠ some backslash
  between : (∀ b ∈ key, isSeparator b = false) ∨
    ∀ b ∈ key.head?, (isWhite b || isSeparator b || isClosing b) = false

abbrev quotedKey (key : Bytes) : Bytes := quote :: (key ++ [quote])

def Token.endsIn (key : Bytes) : Token → Bool
  | str s => (quotedKey key).isSuffixOf s.render
  | gap _ => false

/-- The tokens behind the first string that ends in the word. -/
def behind (key : Bytes) : List Token → Option (List Token)
  | [] => none
  | t :: ts => if t.endsIn key then some ts else behind key ts

/-- Where four digits have a value, each of them has. -/
theorem digits_isSome {a b c d : UInt8} {unit : Nat}
    (h : (do return 4096 * (← hexValue a) + 256 * (← hexValue b) + 16 * (← hexValue c) +
      (← hexValue d)) = some unit) : (hexValue a).isSome ∧ (hexValue b).isSome ∧
    (hexValue c).isSome ∧ (hexValue d).isSome := by
  cases ha : hexValue a <;> cases hb : hexValue b <;> cases hc : hexValue c <;>
    cases hd : hexValue d <;> simp [ha, hb, hc, hd] at h ⊢

theorem JsonChar.render_cases (c : JsonChar) :
    quote ∉ c.render ∨ c.render = [backslash, quote] := by
  cases c with
  | byte b h => exact .inl (by simpa [JsonChar.render] using h.2.1.symm)
  | short letter unit h =>
    by_cases hletter : letter = quote
    · exact .inr (by rw [JsonChar.render, hletter])
    · refine .inl ?_
      simp only [JsonChar.render, List.mem_cons, List.not_mem_nil, or_false, not_or]
      exact ⟨by decide, Ne.symm hletter⟩
  | digits a b c d unit h =>
    have hnone : hexValue quote = none := by decide
    refine .inl ?_
    simp only [JsonChar.render, List.mem_cons, List.not_mem_nil, or_false, not_or]
    refine ⟨by decide, by decide, ?_, ?_, ?_, ?_⟩
    all_goals rintro rfl
    all_goals simp [hnone] at h

section search

variable {key : Bytes}

/-- In front of a quote inside a string stands a backslash. -/
theorem takeWhile_chars (s : List JsonChar) : quote ∉ s.flatMap JsonChar.render ∨
    ((s.flatMap JsonChar.render).takeWhile (· != quote)).getLast? = some backslash := by
  induction s with
  | nil => exact .inl (by simp)
  | cons c s ih =>
    rw [List.flatMap_cons]
    rcases c.render_cases with hc | hc
    · rw [List.takeWhile_append_of_pos fun b hb => by
        have hne : b ≠ quote := fun heq => hc (heq ▸ hb)
        simpa using hne]
      rcases ih with ih | ih
      · exact .inl (by simp [hc, ih])
      · refine .inr ?_
        rw [List.getLast?_append, ih]
        rfl
    · exact .inr (by rw [hc]; rfl)

/-- The word in front of the next quote of a string is the rest of the string. -/
theorem key_of_here (hkey : ClosingWord key) {s : List JsonChar} {rest : Bytes}
    (h : key ++ [quote] <+: s.flatMap JsonChar.render ++ quote :: rest) :
    key = s.flatMap JsonChar.render := by
  have hplain : ∀ b ∈ key, (b != quote) = true := fun b hb => by
    have hne : b ≠ quote := fun heq => hkey.unquoted (heq ▸ hb)
    simpa using hne
  have htake : (s.flatMap JsonChar.render ++ quote :: rest).takeWhile (· != quote) = key := by
    obtain ⟨tail, htail⟩ := h
    rw [← htail, List.append_assoc, List.takeWhile_append_of_pos hplain]
    simp
  by_cases hquote : quote ∈ s.flatMap JsonChar.render
  · rcases takeWhile_chars s with hno | hlast
    · exact absurd hquote hno
    · refine absurd ?_ hkey.unescaped
      rw [← htake, ← hlast, List.takeWhile_append, if_neg]
      intro hlen
      have hall := List.takeWhile_eq_self_iff.mp
        ((List.takeWhile_prefix _).eq_of_length hlen)
      simpa using hall quote hquote
  · rw [← htake, List.takeWhile_append_of_pos fun b hb => by
      have hne : b ≠ quote := fun heq => hquote (heq ▸ hb)
      simpa using hne]
    simp

theorem suffix_skip {p a b : Bytes} (h : quote ∉ a) :
    quote :: p <:+ a ++ b ↔ quote :: p <:+ b := by
  induction a with
  | nil => rfl
  | cons c a ih =>
    rw [List.mem_cons, not_or] at h
    rw [List.cons_append, List.suffix_cons_iff, ih h.2, or_iff_right]
    exact fun heq => h.1 (List.cons.inj heq).1

/-- The search from a quote of a string, where the rest of the string is searched so. -/
theorem strstr_quote (hkey : ClosingWord key) {s : List JsonChar} {rest : Bytes}
    (h : strstr (quotedKey key) (s.flatMap JsonChar.render ++ quote :: rest) =
      if quotedKey key <:+ s.flatMap JsonChar.render ++ [quote] then some (quotedKey key ++ rest)
      else strstr (quotedKey key) (quote :: rest)) :
    strstr (quotedKey key) (quote :: (s.flatMap JsonChar.render ++ quote :: rest)) =
      if quotedKey key <:+ quote :: (s.flatMap JsonChar.render ++ [quote]) then
        some (quotedKey key ++ rest)
      else strstr (quotedKey key) (quote :: rest) := by
  by_cases hhere : key = s.flatMap JsonChar.render
  · rw [if_pos (by rw [← hhere]), ← hhere]
    have hall : quote :: (key ++ quote :: rest) = quotedKey key ++ rest := by simp
    rw [hall]
    exact strstr_of_start (List.prefix_append _ _)
  · rw [strstr_cons, h]
    · congr 1
      rw [List.suffix_cons_iff, or_iff_right]
      intro heq
      exact hhere (List.append_cancel_right (List.cons.inj heq).2)
    · intro hprefix
      exact hhere (key_of_here hkey (List.cons_prefix_cons.mp hprefix).2)

theorem strstr_chars (hkey : ClosingWord key) (s : List JsonChar) (rest : Bytes) :
    strstr (quotedKey key) (s.flatMap JsonChar.render ++ quote :: rest) =
      if quotedKey key <:+ s.flatMap JsonChar.render ++ [quote] then some (quotedKey key ++ rest)
      else strstr (quotedKey key) (quote :: rest) := by
  induction s with
  | nil =>
    rw [List.flatMap_nil, List.nil_append, List.nil_append, if_neg]
    intro hsuffix
    have hlen := hsuffix.length_le
    simp at hlen
  | cons c s ih =>
    rw [List.flatMap_cons, List.append_assoc, List.append_assoc]
    rcases c.render_cases with hc | hc
    · rw [strstr_skip hc, ih]
      congr 1
      rw [suffix_skip hc]
    · have hback : quote ∉ [backslash] := by decide
      have hcons : ∀ text : Bytes, c.render ++ text = [backslash] ++ quote :: text := fun text => by
        rw [hc]
        rfl
      rw [hcons, hcons, strstr_skip hback, strstr_quote hkey ih]
      congr 1
      rw [suffix_skip hback]

/-- Behind a string, a word in front of a quote has a separator in it. -/
theorem separator_of_here {ts : List Token} {place : Position} (hplace : place ≠ .opened)
    (h : Accepted place ts) (hquote : quote ∉ key) (hhere : key ++ [quote] <+: textOf ts) :
    ∃ b ∈ key, isSeparator b := by
  induction ts generalizing place key with
  | nil =>
    have hlen := hhere.length_le
    simp at hlen
  | cons t ts ih =>
    obtain ⟨next, hstep, hrest⟩ := Accepted.cons.mp h
    cases t with
    | str s =>
      rw [Token.step, if_neg hplace] at hstep
      cases hstep
    | gap b =>
      rw [textOf_gap] at hhere
      rw [Token.step] at hstep
      cases key with
      | nil =>
        have hb : quote = b := (List.cons_prefix_cons.mp hhere).1
        rw [← hb] at hstep
        cases place <;> cases hstep
      | cons c key =>
        rw [List.cons_append, List.cons_prefix_cons] at hhere
        obtain ⟨rfl, hhere⟩ := hhere
        cases hseparator : isSeparator c with
        | true => exact ⟨c, by simp, hseparator⟩
        | false =>
          have hnext : next ≠ .opened := by
            rintro rfl
            cases place with
            | opened => exact hplace rfl
            | inside =>
              simp only [gapStep, hseparator] at hstep
              split_ifs at hstep <;> simp at hstep
            | closed =>
              simp only [gapStep, hseparator] at hstep
              split_ifs at hstep <;> simp at hstep
          obtain ⟨d, hd, hsep⟩ := ih hnext hrest (fun hmem => hquote (by simp [hmem])) hhere
          exact ⟨d, List.mem_cons_of_mem c hd, hsep⟩

/-- The word is not found from the quote that closes a string. -/
theorem not_here_closed (hkey : ClosingWord key) {ts : List Token} (h : Accepted .closed ts) :
    ¬ quotedKey key <+: quote :: textOf ts := by
  intro hprefix
  have hhere := (List.cons_prefix_cons.mp hprefix).2
  obtain ⟨b, hb, hseparator⟩ := separator_of_here (by decide) h hkey.unquoted hhere
  rcases hkey.between with hno | hno
  · rw [hno b hb] at hseparator
    cases hseparator
  · obtain ⟨c, key', rfl⟩ := List.exists_cons_of_ne_nil (List.ne_nil_of_mem hb)
    have hc := hno c rfl
    cases ts with
    | nil =>
      have hlen := hhere.length_le
      simp at hlen
    | cons t ts =>
      obtain ⟨next, hstep, -⟩ := Accepted.cons.mp h
      cases t with
      | str s => cases hstep
      | gap d =>
        rw [textOf_gap, List.cons_append, List.cons_prefix_cons] at hhere
        obtain ⟨rfl, -⟩ := hhere
        simp only [Bool.or_eq_false_iff] at hc
        simp [Token.step, gapStep, hc] at hstep

/-- **In a text that is accepted, a quoted word is found where a string ends in it.** -/
theorem strstr_quoted (hkey : ClosingWord key) {ts : List Token} {place : Position}
    (h : Accepted place ts) : strstr (quotedKey key) (textOf ts) =
      (behind key ts).map fun ts => quotedKey key ++ textOf ts := by
  induction ts generalizing place with
  | nil => rfl
  | cons t ts ih =>
    obtain ⟨next, hstep, hrest⟩ := Accepted.cons.mp h
    rw [behind]
    cases t with
    | gap b =>
      rw [textOf_gap, strstr_cons, ih hrest]
      · rfl
      · intro hprefix
        have hb := (List.cons_prefix_cons.mp hprefix).1
        rw [← hb] at hstep
        cases place <;> cases hstep
    | str s =>
      have hclosed : next = .closed := by
        rw [Token.step] at hstep
        split at hstep <;> simp_all
      subst hclosed
      rw [textOf_str, strstr_quote hkey (strstr_chars hkey s _), strstr_cons (not_here_closed hkey hrest),
        ih hrest]
      have hends : (Token.str s).endsIn key = true ↔
          quotedKey key <:+ quote :: (s.flatMap JsonChar.render ++ [quote]) := by
        rw [Token.endsIn, List.isSuffixOf_iff_suffix]
        rfl
      by_cases hmatch : quotedKey key <:+ quote :: (s.flatMap JsonChar.render ++ [quote])
      · rw [if_pos hmatch, if_pos (hends.mpr hmatch), Option.map_some]
      · rw [if_neg hmatch, if_neg fun h => hmatch (hends.mp h)]

end search

end JsonText

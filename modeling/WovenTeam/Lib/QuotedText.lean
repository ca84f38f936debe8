import WovenTeam.Lib.CText

/-!
# Quoted text

Texts made of quoted strings with punctuation after each, as a program prints flat JSON. An
`Item` is one quoted string and the unquoted bytes up to the next quote; a text is the rendering
of a list of items. The string of an item is escaped: a quote or a backslash stands in it only
behind a backslash.

A scanner that looks for the bytes `"key"` finds them at the opening quote of a string, and also
at an escaped quote inside one (`"a\"key"`). In both cases the match ends at the closing quote of
that item (`strstr_item`), so what follows a match is always the punctuation of an item.
-/

namespace QuotedText

open CText

/-! ## Escaped strings -/

/-- A string as it stands between its quotes: on one line, with a backslash in front of every
quote and backslash. -/
inductive Escaped : Bytes → Prop
  | nil : Escaped []
  | byte {b : UInt8} {t : Bytes} (hq : b ≠ quote) (hb : b ≠ backslash) (hn : b ≠ newline)
      (h : Escaped t) : Escaped (b :: t)
  | escape {b : UInt8} {t : Bytes} (hn : b ≠ newline) (h : Escaped t) :
      Escaped (backslash :: b :: t)

/-- Text that is its own escaped form. -/
def Plain (s : Bytes) : Prop := ∀ b ∈ s, b ≠ quote ∧ b ≠ backslash ∧ b ≠ newline

def isPlain (s : Bytes) : Bool := s.all fun b => b != quote && b != backslash && b != newline

theorem isPlain_iff {s : Bytes} : isPlain s ↔ Plain s := by
  simp [isPlain, Plain, and_assoc]

instance (s : Bytes) : Decidable (Plain s) := decidable_of_iff _ isPlain_iff

theorem Escaped.of_plain {s : Bytes} (h : Plain s) : Escaped s := by
  induction s with
  | nil => exact .nil
  | cons b t ih =>
    obtain ⟨hq, hb, hn⟩ := h b (by simp)
    exact .byte hq hb hn (ih fun c hc => h c (by simp [hc]))

theorem Escaped.append {s t : Bytes} (hs : Escaped s) (ht : Escaped t) : Escaped (s ++ t) := by
  induction hs with
  | nil => exact ht
  | byte hq hb hn _ ih => exact .byte hq hb hn ih
  | escape hn _ ih => exact .escape hn ih

theorem Escaped.newline_notMem {s : Bytes} (h : Escaped s) : newline ∉ s := by
  induction h with
  | nil => simp
  | byte _ _ hn _ ih => simp [ih, Ne.symm hn]
  | escape hn _ ih => simp [ih, Ne.symm hn, show newline ≠ backslash by decide]

theorem Escaped.head_ne_quote {b : UInt8} {s : Bytes} (h : Escaped (b :: s)) : b ≠ quote := by
  cases h with
  | byte hq => exact hq
  | escape => decide

/-- An escaped string that begins with the plain text `k` and a quote is `k`. -/
theorem Escaped.eq_of_start {c : Bytes} (hc : Escaped c) {k T : Bytes} (hk : Plain k)
    (h : k ++ [quote] <+: c ++ quote :: T) : c = k := by
  induction k generalizing c with
  | nil =>
    cases c with
    | nil => rfl
    | cons b c => exact absurd (List.cons_prefix_cons.mp h).1.symm hc.head_ne_quote
  | cons x k ih =>
    have hx := hk x (by simp)
    cases hc with
    | nil => exact absurd (List.cons_prefix_cons.mp h).1 hx.1
    | escape => exact absurd (List.cons_prefix_cons.mp h).1 hx.2.1
    | byte _ _ _ hc' =>
      obtain ⟨rfl, h'⟩ := List.cons_prefix_cons.mp h
      rw [ih hc' (fun b hb => hk b (by simp [hb])) h']

/-! ## Items -/

/-- A quoted string and the bytes between it and the next quote. -/
structure Item where
  text : Bytes
  follow : Bytes
  deriving DecidableEq, Repr

def Item.render (i : Item) : Bytes := quote :: (i.text ++ quote :: i.follow)

def render (is : List Item) : Bytes := is.flatMap Item.render

theorem render_cons (i : Item) (is : List Item) :
    render (i :: is) = quote :: (i.text ++ quote :: (i.follow ++ render is)) := by
  simp [render, Item.render]

/-- The bytes a printed string may be followed by. -/
def isPunct (b : UInt8) : Bool := b == 44 || b == 58 || b == 93 || b == 125

/-- What printing guarantees of an item: its string is escaped, punctuation follows, and a
string followed by a colon is a plain key. -/
structure Item.Ok (i : Item) : Prop where
  escaped : Escaped i.text
  punct : ∃ b ∈ i.follow.head?, isPunct b
  unquoted : quote ∉ i.follow
  oneLine : newline ∉ i.follow
  plain_of_colon : i.follow.head? = some colon → Plain i.text

theorem Item.Ok.of_plain {i : Item} (h : Plain i.text) (hp : ∃ b ∈ i.follow.head?, isPunct b)
    (hq : quote ∉ i.follow) (hn : newline ∉ i.follow) : i.Ok :=
  ⟨.of_plain h, hp, hq, hn, fun _ => h⟩

/-- A value: nothing is asked of its string but that it is escaped. -/
theorem Item.Ok.of_value {i : Item} (h : Escaped i.text)
    (hp : ∃ b ∈ i.follow.head?, isPunct b ∧ b ≠ colon) (hq : quote ∉ i.follow)
    (hn : newline ∉ i.follow) : i.Ok := by
  obtain ⟨b, hb, hpb, hne⟩ := hp
  refine ⟨h, ⟨b, hb, hpb⟩, hq, hn, fun hc => ?_⟩
  rw [hc] at hb
  exact absurd (Option.mem_some_iff.mp hb).symm hne

/-! ## Searching for a quoted word -/

/-- A quoted word and the bytes that are to follow it. -/
def quotedThen (k m : Bytes) : Bytes := quote :: (k ++ quote :: m)

def quoted (k : Bytes) : Bytes := quotedThen k []

/-- A nonempty plain word that no punctuation begins. -/
structure Word (k : Bytes) : Prop where
  plain : Plain k
  head : ∃ b ∈ k.head?, isPunct b = false

theorem Word.of_head {k : Bytes} (h : Plain k) (hk : (k.head?.map isPunct) = some false) :
    Word k := by
  cases k with
  | nil => simp at hk
  | cons b k => exact ⟨h, b, by simp, by simpa using hk⟩

/-- The string ends in `\"k`, so that an escaped quote and the closing one enclose `k`. -/
def innerHit (k : Bytes) : Bytes → Bool
  | [] => false
  | [_] => false
  | b :: e :: t =>
    if b = backslash then (e == quote && t == k) || innerHit k t else innerHit k (e :: t)

def hit (k c : Bytes) : Bool := c == k || innerHit k c

theorem innerHit_of_plain {k c : Bytes} (h : Plain c) : innerHit k c = false := by
  induction c with
  | nil => rfl
  | cons b c ih =>
    cases c with
    | nil => rfl
    | cons e t =>
      have hb := (h b (by simp)).2.1
      simp only [innerHit, hb, ↓reduceIte]
      exact ih fun x hx => h x (by simp [hx])

theorem hit_of_plain {k c : Bytes} (h : Plain c) : hit k c = decide (c = k) := by
  simp [hit, innerHit_of_plain h, beq_eq_decide]

variable {k m : Bytes}

theorem not_prefix_of_head {p T : Bytes} {b c : UInt8} (h : b ≠ c) : ¬ b :: p <+: c :: T :=
  fun hp => h (List.cons_prefix_cons.mp hp).1

theorem quotedThen_prefix_iff {T : Bytes} :
    quotedThen k m <+: quote :: (k ++ quote :: T) ↔ m <+: T := by
  simp [quotedThen, List.cons_prefix_cons, List.prefix_append_right_inj]

theorem Escaped.eq_of_quotedThen {c : Bytes} (hc : Escaped c) (hk : Plain k) {T : Bytes}
    (h : quotedThen k m <+: quote :: (c ++ quote :: T)) : c = k := by
  refine hc.eq_of_start (T := T) hk (List.IsPrefix.trans ?_ (List.cons_prefix_cons.mp h).2)
  exact ⟨m, by simp⟩

/-- A closing quote does not begin a match. -/
theorem strstr_close (hk : Word k) {T : Bytes} (hT : ∀ b ∈ T.head?, isPunct b) :
    strstr (quotedThen k m) (quote :: T) = strstr (quotedThen k m) T := by
  obtain ⟨b, hb, hw⟩ := hk.head
  cases k with
  | nil => simp at hb
  | cons x k =>
    simp only [List.head?_cons, Option.mem_some_iff] at hb
    subst hb
    apply strstr_cons
    intro hp
    have hp' := (List.cons_prefix_cons.mp hp).2
    cases T with
    | nil => simp at hp'
    | cons c T =>
      obtain ⟨rfl, -⟩ := List.cons_prefix_cons.mp hp'
      have := hT x (by simp)
      simp [hw] at this

theorem strstr_inner (hk : Plain k) {c : Bytes} (hc : Escaped c) (T : Bytes) :
    strstr (quotedThen k m) (c ++ quote :: T) =
      if innerHit k c ∧ m <+: T then some (quoted k ++ T)
      else strstr (quotedThen k m) (quote :: T) := by
  induction hc with
  | nil => simp [innerHit]
  | @byte b t hq hb _ ht ih =>
    have hskip : strstr (quotedThen k m) (b :: t ++ quote :: T) =
        strstr (quotedThen k m) (t ++ quote :: T) :=
      strstr_cons (not_prefix_of_head (Ne.symm hq))
    have hin : innerHit k (b :: t) = innerHit k t := by
      cases t <;> simp [innerHit, hb]
    rw [hskip, hin, ih]
  | @escape e t _ ht ih =>
    have hskip : strstr (quotedThen k m) (backslash :: e :: t ++ quote :: T) =
        strstr (quotedThen k m) (e :: (t ++ quote :: T)) :=
      strstr_cons (not_prefix_of_head (by decide))
    rw [hskip]
    by_cases hm : quotedThen k m <+: e :: (t ++ quote :: T)
    · obtain rfl := (List.cons_prefix_cons.mp hm).1
      obtain rfl := ht.eq_of_quotedThen hk hm
      rw [strstr_of_start hm, if_pos]
      · simp [quoted, quotedThen]
      · exact ⟨by simp [innerHit], quotedThen_prefix_iff.mp hm⟩
    · rw [strstr_cons hm, ih]
      by_cases hin : e = quote ∧ t = k
      · -- the inner word is followed by something else than `m`
        obtain ⟨rfl, rfl⟩ := hin
        have hT : ¬ m <+: T := fun h => hm (quotedThen_prefix_iff.mpr h)
        simp [hT]
      · have : innerHit k (backslash :: e :: t) = innerHit k t := by
          by_cases he : e = quote
          · have : t ≠ k := fun h => hin ⟨he, h⟩
            simp [innerHit, he, this]
          · simp [innerHit, he]
        rw [this]

/-- **A search for a quoted word stops in an item exactly when the item is hit and what is to
follow does follow, and then at its closing quote.** -/
theorem strstr_item (hk : Word k) {i : Item} (hi : i.Ok) (T : Bytes) :
    strstr (quotedThen k m) (quote :: (i.text ++ quote :: (i.follow ++ T))) =
      if hit k i.text ∧ m <+: i.follow ++ T then some (quoted k ++ (i.follow ++ T))
      else strstr (quotedThen k m) T := by
  have hT : ∀ b ∈ (i.follow ++ T).head?, isPunct b := by
    obtain ⟨c, hc, hp⟩ := hi.punct
    intro b hb
    cases hf : i.follow with
    | nil => simp [hf] at hc
    | cons d f =>
      simp only [hf, List.head?_cons, Option.mem_some_iff] at hc
      simp only [hf, List.cons_append, List.head?_cons, Option.mem_some_iff] at hb
      rw [← hb, hc]
      exact hp
  have hrest : strstr (quotedThen k m) (quote :: (i.follow ++ T)) = strstr (quotedThen k m) T := by
    rw [strstr_close hk hT]
    exact strstr_skip hi.unquoted
  by_cases hopen : quotedThen k m <+: quote :: (i.text ++ quote :: (i.follow ++ T))
  · have htext := hi.escaped.eq_of_quotedThen hk.plain hopen
    have hm := hopen
    rw [htext, quotedThen_prefix_iff] at hm
    rw [strstr_of_start hopen, if_pos ⟨by simp [hit, htext], hm⟩, htext]
    simp [quoted, quotedThen]
  · rw [strstr_cons hopen, strstr_inner hk.plain hi.escaped, hrest]
    by_cases htext : i.text = k
    · have hm : ¬ m <+: i.follow ++ T := by
        intro hm
        rw [htext] at hopen
        exact hopen (quotedThen_prefix_iff.mpr hm)
      simp [hm]
    · simp [hit, htext]

/-! ## Keys -/

/-- The text after the colon of the first key `k`. -/
def lookup (k : Bytes) : List Item → Option Bytes
  | [] => none
  | i :: is =>
    if i.follow.head? = some colon ∧ i.text = k then some (i.follow.tail ++ render is)
    else lookup k is

/-- Some key `k` is followed directly by the string `v`. -/
def hasMember (k v : Bytes) : List Item → Bool
  | [] => false
  | [_] => false
  | i :: j :: is => (i.follow == [colon] && i.text == k && j.text == v) || hasMember k v (j :: is)

/-- The bytes of `"k":"v"`. -/
def marker (k v : Bytes) : Bytes := quotedThen k (colon :: quoted v)

theorem quoted_prefix_render {v f : Bytes} {is : List Item} (hv : Plain v) (hf : quote ∉ f)
    (h : ∀ i ∈ is, i.Ok) :
    quoted v <+: f ++ render is ↔ f = [] ∧ ∃ j ∈ is.head?, j.text = v := by
  constructor
  · intro hp
    cases f with
    | cons b f =>
      obtain rfl := (List.cons_prefix_cons.mp hp).1
      simp at hf
    | nil =>
      cases is with
      | nil => simp [quoted, quotedThen, render] at hp
      | cons j is =>
        rw [List.nil_append, render_cons] at hp
        exact ⟨rfl, j, by simp, (h j (by simp)).escaped.eq_of_quotedThen hv hp⟩
  · rintro ⟨rfl, j, hj, rfl⟩
    cases is with
    | nil => simp at hj
    | cons i is =>
      simp only [List.head?_cons, Option.mem_some_iff] at hj
      subst hj
      rw [List.nil_append, render_cons]
      exact quotedThen_prefix_iff.mpr (List.nil_prefix)

/-- **The bytes `"k":"v"` occur in a printed text only as a key `k` with the string `v`.** -/
theorem marker_infix_render {v : Bytes} {is : List Item} (hk : Word k) (hv : Plain v)
    (h : ∀ i ∈ is, i.Ok) : marker k v <:+: render is ↔ hasMember k v is := by
  rw [← strstr_isSome_iff]
  induction is with
  | nil => simp [render, strstr, marker, quotedThen, hasMember]
  | cons i is ih =>
    have hi := h i (by simp)
    have his : ∀ j ∈ is, j.Ok := fun j hj => h j (by simp [hj])
    rw [render_cons, marker, strstr_item hk hi]
    have hfollow : (colon :: quoted v <+: i.follow ++ render is) ↔
        i.follow = [colon] ∧ ∃ j ∈ is.head?, j.text = v := by
      have hu := hi.unquoted
      obtain ⟨b, hb, -⟩ := hi.punct
      cases hf : i.follow with
      | nil => simp [hf] at hb
      | cons c f =>
        rw [hf] at hu
        have hu' : quote ∉ f := fun hq => hu (by simp [hq])
        rw [List.cons_append, List.cons_prefix_cons, quoted_prefix_render hv hu' his]
        simp [and_assoc, eq_comm (a := colon)]
    have hmem : hasMember k v (i :: is) ↔
        (i.text = k ∧ i.follow = [colon] ∧ ∃ j ∈ is.head?, j.text = v) ∨ hasMember k v is := by
      cases is with
      | nil => simp [hasMember]
      | cons j is => simp [hasMember, and_assoc, and_left_comm]
    have hplain : i.follow = [colon] → (hit k i.text ↔ i.text = k) := fun hc => by
      simp [hit_of_plain (hi.plain_of_colon (by simp [hc]))]
    rw [hmem, ← ih his]
    by_cases hc : hit k i.text ∧ colon :: quoted v <+: i.follow ++ render is
    · have hf := hfollow.mp hc.2
      have ht := (hplain hf.1).mp hc.1
      rw [if_pos hc]
      exact iff_of_true rfl (.inl ⟨ht, hf⟩)
    · have hno : ¬ (i.text = k ∧ i.follow = [colon] ∧ ∃ j ∈ is.head?, j.text = v) :=
        fun hh => hc ⟨(hplain hh.2.1).mpr hh.1, hfollow.mpr hh.2⟩
      rw [if_neg hc]
      simp only [hno, false_or, marker]

/-! ## Printing members -/

/-- An escaped string. -/
structure Literal where
  text : Bytes
  escaped : Escaped text

/-- A constant string. Here and below, what is checked of a constant is computed. -/
def Literal.ofPlain (s : String) (h : isPlain (bytes s) = true := by exact Eq.refl true) : Literal :=
  ⟨bytes s, .of_plain (isPlain_iff.mp h)⟩

instance : Append Literal := ⟨fun a b => ⟨a.text ++ b.text, a.escaped.append b.escaped⟩⟩

/-- Printed members: items that are all well formed. -/
structure Members where
  items : List Item
  ok : ∀ i ∈ items, i.Ok

instance : Append Members :=
  ⟨fun a b => ⟨a.items ++ b.items, fun i hi => (List.mem_append.mp hi).elim (a.ok i) (b.ok i)⟩⟩

/-- The text of an object whose last member is followed by its closing brace. -/
def Members.object (ms : Members) : Bytes := 123 :: render ms.items

/-- Bytes without a quote on one line. -/
def Unquoted (s : Bytes) : Prop := quote ∉ s ∧ newline ∉ s

def isUnquoted (s : Bytes) : Bool := s.all fun b => b != quote && b != newline

theorem isUnquoted_iff {s : Bytes} : isUnquoted s ↔ Unquoted s := by
  have hall : isUnquoted s ↔ ∀ b ∈ s, b ≠ quote ∧ b ≠ newline := by simp [isUnquoted]
  rw [hall]
  exact ⟨fun h => ⟨fun hq => (h _ hq).1 rfl, fun hn => (h _ hn).2 rfl⟩,
    fun h b hb => ⟨fun hq => h.1 (hq ▸ hb), fun hn => h.2 (hn ▸ hb)⟩⟩

instance (s : Bytes) : Decidable (Unquoted s) := decidable_of_iff _ isUnquoted_iff

theorem Unquoted.append {s t : Bytes} (hs : Unquoted s) (ht : Unquoted t) : Unquoted (s ++ t) := by
  simp only [Unquoted, List.mem_append, not_or]
  exact ⟨⟨hs.1, ht.1⟩, hs.2, ht.2⟩

/-- Punctuation that does not make the string before it a key. -/
def Closes (close : Bytes) : Prop :=
  (∃ b ∈ close.head?, isPunct b ∧ b ≠ colon) ∧ Unquoted close

def closes (close : Bytes) : Bool :=
  (close.head?.any fun b => isPunct b && b != colon) && isUnquoted close

theorem closes_iff {close : Bytes} : closes close ↔ Closes close := by
  unfold closes Closes
  rw [Bool.and_eq_true, isUnquoted_iff]
  cases close <;> simp

theorem Item.Ok.key {k f : Bytes} (hk : Plain k) (hf : Unquoted f) : Item.Ok ⟨k, colon :: f⟩ := by
  have hcolon : Unquoted (colon :: f) := Unquoted.append (s := [colon]) (by decide) hf
  exact .of_plain hk ⟨colon, rfl, rfl⟩ hcolon.1 hcolon.2

theorem unquoted_decimal (n : Int) : Unquoted (decimal n) := by
  have hnat : Unquoted (decimalNat n.natAbs) := by
    constructor
    · intro h
      obtain ⟨d, hd, heq⟩ := mem_decimalNat h
      interval_cases d <;> exact absurd heq (by decide)
    · intro h
      obtain ⟨d, hd, heq⟩ := mem_decimalNat h
      interval_cases d <;> exact absurd heq (by decide)
  unfold decimal
  split
  · exact Unquoted.append (s := [45]) (by decide) hnat
  · exact hnat

/-- `"k":"v"` and the punctuation after it. -/
def str (k : String) (v : Literal) (close : String := ",")
    (hk : isPlain (bytes k) = true := by exact Eq.refl true)
    (hc : closes (bytes close) = true := by exact Eq.refl true) : Members where
  items := [⟨bytes k, [colon]⟩, ⟨v.text, bytes close⟩]
  ok := by
    intro i hi
    simp only [List.mem_cons, List.not_mem_nil, or_false] at hi
    rcases hi with rfl | rfl
    · exact .key (isPlain_iff.mp hk) (by decide)
    · have hclose := closes_iff.mp hc
      exact .of_value v.escaped hclose.1 hclose.2.1 hclose.2.2

/-- `"k":n` and the punctuation after it. -/
def num (k : String) (n : Int) (close : String := ",")
    (hk : isPlain (bytes k) = true := by exact Eq.refl true)
    (hc : isUnquoted (bytes close) = true := by exact Eq.refl true) : Members where
  items := [⟨bytes k, colon :: (decimal n ++ bytes close)⟩]
  ok := by
    intro i hi
    rw [List.mem_singleton.mp hi]
    exact .key (isPlain_iff.mp hk) ((unquoted_decimal n).append (isUnquoted_iff.mp hc))

/-- `"k":` followed by unquoted text, as the opening of an object or an array. -/
def raw (k : String) (text : String) (hk : isPlain (bytes k) = true := by exact Eq.refl true)
    (ht : isUnquoted (bytes text) = true := by exact Eq.refl true) : Members where
  items := [⟨bytes k, colon :: bytes text⟩]
  ok := by
    intro i hi
    rw [List.mem_singleton.mp hi]
    exact .key (isPlain_iff.mp hk) (isUnquoted_iff.mp ht)

/-- A string with punctuation after it, as an element of an array. -/
def elem (v : Literal) (close : String)
    (hc : closes (bytes close) = true := by exact Eq.refl true) : Members where
  items := [⟨v.text, bytes close⟩]
  ok := by
    intro i hi
    rw [List.mem_singleton.mp hi]
    have hclose := closes_iff.mp hc
    exact .of_value v.escaped hclose.1 hclose.2.1 hclose.2.2

/-! ### Searching part by part -/

theorem lookup_append (k : Bytes) (is js : List Item) :
    lookup k (is ++ js) = ((lookup k is).map (· ++ render js)).or (lookup k js) := by
  induction is with
  | nil => rfl
  | cons i is ih =>
    rw [List.cons_append, lookup, lookup]
    split
    · simp [render, List.flatMap_append]
    · exact ih

/-- A string found among the first members is found among them all. -/
theorem lookup_append_of_string {k v f : Bytes} {is js : List Item}
    (h : lookup k is = some (render (⟨v, f⟩ :: js))) (ks : List Item) :
    lookup k (is ++ ks) = some (render (⟨v, f⟩ :: (js ++ ks))) := by
  rw [lookup_append, h]
  simp [render, List.flatMap_append]

/-- None of the members has the key. -/
def Members.Lacks (ms : Members) (k : Bytes) : Prop := lookup k ms.items = none

theorem lookup_append_of_lacks {k : Bytes} {a : Members} (ha : a.Lacks k) (js : List Item) :
    lookup k (a.items ++ js) = lookup k js := by
  rw [lookup_append, ha]
  rfl

/-- Every key of the members is one of the names. -/
def Members.KeysAmong (ms : Members) (names : List String) : Prop :=
  ∀ i ∈ ms.items, i.follow.head? = some colon → ∃ name ∈ names, i.text = bytes name

theorem Members.KeysAmong.lacks {ms : Members} {names : List String} {k : Bytes}
    (h : ms.KeysAmong names) (hk : ∀ name ∈ names, bytes name ≠ k) : ms.Lacks k := by
  unfold Members.Lacks
  unfold Members.KeysAmong at h
  generalize ms.items = is at h
  induction is with
  | nil => rfl
  | cons i is ih =>
    rw [lookup, if_neg]
    · exact ih fun j hj => h j (List.mem_cons_of_mem i hj)
    · rintro ⟨hcolon, htext⟩
      obtain ⟨name, hname, hn⟩ := h i List.mem_cons_self hcolon
      exact hk name hname (hn.symm.trans htext)

section keys

variable {names : List String} {name : String}

theorem Members.KeysAmong.append {a b : Members} (ha : a.KeysAmong names)
    (hb : b.KeysAmong names) : (a ++ b).KeysAmong names :=
  fun i hi => (List.mem_append.mp hi).elim (ha i) (hb i)

theorem not_key_of_closes {close : Bytes} (h : closes close = true) :
    close.head? ≠ some colon := by
  obtain ⟨⟨b, hb, -, hne⟩, -⟩ := closes_iff.mp h
  rw [hb]
  exact fun hc => hne (Option.some.inj hc)

theorem keysAmong_str (v : Literal) (close : String) (hk : isPlain (bytes name) = true)
    (hc : closes (bytes close) = true) (h : name ∈ names) :
    (str name v close hk hc).KeysAmong names := by
  intro i hi hcolon
  simp only [str, List.mem_cons, List.not_mem_nil, or_false] at hi
  rcases hi with rfl | rfl
  · exact ⟨name, h, rfl⟩
  · exact absurd hcolon (not_key_of_closes hc)

theorem keysAmong_num (n : Int) (close : String) (hk : isPlain (bytes name) = true)
    (hc : isUnquoted (bytes close) = true) (h : name ∈ names) :
    (num name n close hk hc).KeysAmong names := by
  intro i hi _
  rw [List.mem_singleton.mp hi]
  exact ⟨name, h, rfl⟩

theorem keysAmong_raw (text : String) (hk : isPlain (bytes name) = true)
    (ht : isUnquoted (bytes text) = true) (h : name ∈ names) :
    (raw name text hk ht).KeysAmong names := by
  intro i hi _
  rw [List.mem_singleton.mp hi]
  exact ⟨name, h, rfl⟩

theorem keysAmong_elem (v : Literal) (close : String) (hc : closes (bytes close) = true) :
    (elem v close hc).KeysAmong names := by
  intro i hi hcolon
  rw [List.mem_singleton.mp hi] at hcolon
  exact absurd hcolon (not_key_of_closes hc)

end keys

theorem newline_notMem_render {is : List Item} (h : ∀ i ∈ is, i.Ok) : newline ∉ render is := by
  simp only [render, List.mem_flatMap, not_exists, not_and]
  intro i hi
  have hne : newline ≠ quote := by decide
  simp only [Item.render, List.mem_cons, List.mem_append, hne, (h i hi).escaped.newline_notMem,
    (h i hi).oneLine, or_self, not_false_eq_true]

/-- A printed object is on one line. -/
theorem Members.newline_notMem_object (ms : Members) : newline ∉ ms.object := by
  rw [Members.object, List.mem_cons, not_or]
  exact ⟨by decide, newline_notMem_render ms.ok⟩

/-! ## Lengths -/

@[simp] theorem Members.items_append (a b : Members) : (a ++ b).items = a.items ++ b.items := rfl

@[simp] theorem Literal.text_append (a b : Literal) : (a ++ b).text = a.text ++ b.text := rfl

@[simp] theorem render_append (is js : List Item) : render (is ++ js) = render is ++ render js := by
  simp [render]

theorem Members.length_object (ms : Members) :
    ms.object.length = (render ms.items).length + 1 := rfl

theorem Members.length_append (a b : Members) :
    (render (a ++ b).items).length = (render a.items).length + (render b.items).length := by
  rw [Members.items_append, render_append, List.length_append]

/-! ## What members lack -/

theorem hasMember_of_lookup {k v : Bytes} {items : List Item} (h : lookup k items = none) :
    hasMember k v items = false := by
  induction items with
  | nil => rfl
  | cons i items ih =>
    rw [lookup] at h
    split at h
    · cases h
    · rename_i hkey
      cases items with
      | nil => rfl
      | cons j items =>
        rw [hasMember, ih h, Bool.or_false]
        by_contra hthis
        simp only [Bool.not_eq_false, Bool.and_eq_true, beq_iff_eq] at hthis
        exact hkey ⟨by rw [hthis.1.1]; rfl, hthis.1.2⟩

section lacks

variable {name : String} {k : Bytes} {a b : Members}

theorem Members.Lacks.append (ha : a.Lacks k) (hb : b.Lacks k) : (a ++ b).Lacks k := by
  rw [Members.Lacks, Members.items_append, lookup_append_of_lacks ha]
  exact hb

theorem lacks_str {v : Literal} {close : String} {hk : isPlain (bytes name) = true}
    {hc : closes (bytes close) = true} (h : bytes name ≠ k) : (str name v close hk hc).Lacks k := by
  rw [Members.Lacks, str, lookup, if_neg (fun hand => h hand.2), lookup,
    if_neg (fun hand => not_key_of_closes hc hand.1)]
  rfl

theorem lacks_num {n : Int} {close : String} {hk : isPlain (bytes name) = true}
    {hc : isUnquoted (bytes close) = true} (h : bytes name ≠ k) :
    (num name n close hk hc).Lacks k := by
  rw [Members.Lacks, num, lookup, if_neg (fun hand => h hand.2)]
  rfl

theorem lacks_raw {text : String} {hk : isPlain (bytes name) = true}
    {ht : isUnquoted (bytes text) = true} (h : bytes name ≠ k) : (raw name text hk ht).Lacks k := by
  rw [Members.Lacks, raw, lookup, if_neg (fun hand => h hand.2)]
  rfl

theorem lacks_elem {v : Literal} {close : String} {hc : closes (bytes close) = true} :
    (elem v close hc).Lacks k := by
  rw [Members.Lacks, elem, lookup, if_neg (fun hand => not_key_of_closes hc hand.1)]
  rfl

end lacks

/-- A list is found on one side of an element it does not have. -/
theorem infix_append_cons {α : Type} {pat s t : List α} {b : α} (hb : b ∉ pat) :
    pat <:+: s ++ b :: t ↔ pat <:+: s ∨ pat <:+: t := by
  constructor
  · intro h
    rcases List.infix_append_iff.mp h with h | h | ⟨front, rest, rfl, hs, ht⟩
    · exact .inl h
    · rcases List.infix_cons_iff.mp h with h | h
      · cases pat with
        | nil => exact .inr List.nil_infix
        | cons c pat =>
          obtain ⟨rfl, -⟩ := List.cons_prefix_cons.mp h
          exact absurd List.mem_cons_self hb
      · exact .inr h
    · cases rest with
      | nil => exact .inl (by simpa using hs.isInfix)
      | cons c rest =>
        obtain ⟨rfl, -⟩ := List.cons_prefix_cons.mp ht
        exact absurd (List.mem_append_right _ List.mem_cons_self) hb
  · rintro (h | h)
    · exact h.trans (List.prefix_append _ _).isInfix
    · exact h.trans ((List.suffix_cons b t).trans (List.suffix_append s _)).isInfix

theorem marker_concat (k v : Bytes) : ∃ front, marker k v = front ++ [quote] :=
  ⟨quote :: (k ++ quote :: colon :: quote :: v), by simp [marker, quoted, quotedThen]⟩

/-- Braces and line ends are no part of a member. -/
theorem marker_infix_line {k v : Bytes} {items : List Item}
    (h : marker k v <:+: 123 :: render items ++ [newline]) : marker k v <:+: render items := by
  obtain ⟨front, hfront⟩ := marker_concat k v
  rw [List.infix_concat_iff] at h
  rcases h with hsuffix | hinfix
  · rw [List.suffix_concat_iff, hfront] at hsuffix
    rcases hsuffix with hnil | ⟨t, ht, -⟩
    · simp at hnil
    · have hlast := congrArg List.getLast? ht
      simp only [List.getLast?_concat] at hlast
      exact absurd (Option.some.inj hlast) (by decide)
  · rw [List.infix_cons_iff] at hinfix
    refine hinfix.resolve_left fun hprefix => ?_
    rw [marker, quotedThen, List.cons_prefix_cons] at hprefix
    exact absurd hprefix.1 (by decide)

end QuotedText

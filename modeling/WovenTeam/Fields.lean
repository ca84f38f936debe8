import WovenTeam.Json

/-!
# Records as lists of fields

The abstract view of a printed record: its keys with the values they are built from. `readString_fields`
and `readLong_fields`: what is read of a key is what its own value reads as, and a key the record
does not have is absent, whatever the texts of the other values are. The search is one for bytes,
so this holds of every key that its pattern can hold but one, the single colon.
-/

namespace WovenTeam

open CText QuotedText

/-! ## Fields -/

inductive FieldValue where
  | text (value : Bytes)
  | number (n : Int)
  | flag (value : Bool)
  deriving DecidableEq

abbrev Field := String × FieldValue

/-- A name of a field: a plain word that a letter begins. -/
structure FieldName (k : String) : Prop where
  plain : Plain (bytes k)
  letter : ∃ b ∈ (bytes k).head?, isPunct b = false ∧ isSpace b = false

def isFieldName (k : String) : Bool :=
  isPlain (bytes k) && ((bytes k).head?.any fun b => !isPunct b && !isSpace b)

theorem FieldName.of_check {k : String} (h : isFieldName k = true) : FieldName k := by
  unfold isFieldName at h
  rw [Bool.and_eq_true] at h
  refine ⟨isPlain_iff.mp h.1, ?_⟩
  cases hhead : (bytes k).head? with
  | none => simp [hhead] at h
  | some b => exact ⟨b, rfl, by simpa [hhead] using h.2⟩

theorem fieldNames_of_check {fields : List Field}
    (h : (fields.map (·.1)).all isFieldName = true) : ∀ field ∈ fields, FieldName field.1 :=
  fun field hfield => .of_check (List.all_eq_true.mp h field.1 (List.mem_map_of_mem hfield))

theorem FieldName.word {k : String} (h : FieldName k) : Word (bytes k) :=
  ⟨h.plain, h.letter.imp fun _ hb => ⟨hb.1, hb.2.1⟩⟩

/-- The value as it stands between its key and `close`. -/
def FieldValue.items (key close : Bytes) : FieldValue → List Item
  | text value => [⟨key, [colon]⟩, ⟨value.flatMap escapePiece, close⟩]
  | number n => [⟨key, colon :: (decimal n ++ close)⟩]
  | flag value => [⟨key, colon :: ((if value then bytes "true" else bytes "false") ++ close)⟩]

def fieldItems : List Field → List Item
  | [] => []
  | [field] => field.2.items (bytes field.1) [125]
  | field :: next :: fields => field.2.items (bytes field.1) [comma] ++ fieldItems (next :: fields)

/-- The value of the first field of that name. -/
def fieldNamed (fields : List Field) (k : String) : Option FieldValue :=
  (fields.find? fun field => bytes field.1 == bytes k).map (·.2)

/-- What `wtJsonReadString` makes of the value. -/
def FieldValue.readString (size : Nat) : FieldValue → StringField
  | text value =>
    if size = 0 then .absent
    else if (reread value).length < size then .ok (reread value)
    else .cut ((reread value).take (size - 1))
  | _ => .absent

/-- What `wtJsonReadLongLong` makes of the value. -/
def FieldValue.readLong : FieldValue → Option Int
  | number n => some (clamp64 n)
  | _ => none

theorem items_ok {key close : Bytes} (hkey : Plain key) (hclose : closes close = true)
    (value : FieldValue) : ∀ i ∈ value.items key close, i.Ok := by
  have hc := closes_iff.mp hclose
  cases value with
  | text value =>
    intro i hi
    simp only [FieldValue.items, List.mem_cons, List.not_mem_nil, or_false] at hi
    rcases hi with rfl | rfl
    · exact .key hkey (by decide)
    · exact .of_value (escaped_escape value) hc.1 hc.2.1 hc.2.2
  | number n =>
    intro i hi
    rw [List.mem_singleton.mp hi]
    exact .key hkey ((unquoted_decimal n).append hc.2)
  | flag value =>
    intro i hi
    rw [List.mem_singleton.mp hi]
    have hflag : Unquoted (if value then bytes "true" else bytes "false") := by
      cases value <;> decide
    exact .key hkey (hflag.append hc.2)

/-- **Fields print as well-formed items.** -/
theorem fieldItems_ok {fields : List Field} (h : ∀ field ∈ fields, FieldName field.1) :
    ∀ i ∈ fieldItems fields, i.Ok := by
  fun_induction fieldItems fields with
  | case1 => simp
  | case2 field => exact items_ok (h field (by simp)).plain rfl _
  | case3 field next fields ih =>
    intro i hi
    rcases List.mem_append.mp hi with hi | hi
    · exact items_ok (h field (by simp)).plain rfl _ i hi
    · exact ih (fun f hf => h f (List.mem_cons_of_mem field hf)) i hi

/-- A record of fields. -/
def fieldsRecord (fields : List Field) (h : ∀ field ∈ fields, FieldName field.1) : Members :=
  ⟨fieldItems fields, fieldItems_ok h⟩

/-! ## The value behind a key -/

/-- How the text behind the colon of a key begins. -/
def FieldValue.Shown : FieldValue → Bytes → Prop
  | text value, shown => ∃ follow items,
      shown = render (⟨value.flatMap escapePiece, follow⟩ :: items)
  | number n, shown => ∃ close rest,
      shown = decimal n ++ close ++ rest ∧ close.head?.map isDigit = some false
  | flag value, shown => ∃ rest, shown = (if value then bytes "true" else bytes "false") ++ rest

theorem lookup_items {key close : Bytes} (hclose : closes close = true) (value : FieldValue)
    (rest : List Item) :
    ∃ shown, lookup key (value.items key close ++ rest) = some shown ∧ value.Shown shown := by
  cases value with
  | text value =>
    refine ⟨_, ?_, close, rest, rfl⟩
    simp [FieldValue.items, lookup]
  | number n =>
    refine ⟨decimal n ++ close ++ render rest, ?_, close, render rest, rfl, ?_⟩
    · simp [FieldValue.items, lookup]
    · obtain ⟨⟨b, hb, hpunct, -⟩, -⟩ := closes_iff.mp hclose
      rw [hb, Option.map_some]
      simp only [isPunct, Bool.or_eq_true, beq_iff_eq] at hpunct
      rcases hpunct with ((rfl | rfl) | rfl) | rfl <;> rfl
  | flag value =>
    refine ⟨(if value then bytes "true" else bytes "false") ++ (close ++ render rest), ?_,
      close ++ render rest, rfl⟩
    simp [FieldValue.items, lookup]

theorem lookup_items_ne {key close k : Bytes} (hclose : closes close = true) (hne : key ≠ k)
    (value : FieldValue) (rest : List Item) :
    lookup k (value.items key close ++ rest) = lookup k rest := by
  have hnot := not_key_of_closes hclose
  cases value with
  | text value => simp [FieldValue.items, lookup, hne, hnot]
  | number n => simp [FieldValue.items, lookup, hne]
  | flag value => simp [FieldValue.items, lookup, hne]

/-- **Behind a key stands the value of the first field of that name.** -/
theorem lookup_fieldItems (fields : List Field) (k : String) :
    match fieldNamed fields k with
    | some value => ∃ shown, lookup (bytes k) (fieldItems fields) = some shown ∧ value.Shown shown
    | none => lookup (bytes k) (fieldItems fields) = none := by
  have hstep : ∀ (field : Field) (rest : List Field) (items : List Item) (close : Bytes),
      closes close = true →
      (match fieldNamed rest k with
        | some value => ∃ shown, lookup (bytes k) items = some shown ∧ value.Shown shown
        | none => lookup (bytes k) items = none) →
      match fieldNamed (field :: rest) k with
      | some value => ∃ shown,
          lookup (bytes k) (field.2.items (bytes field.1) close ++ items) = some shown ∧
            value.Shown shown
      | none => lookup (bytes k) (field.2.items (bytes field.1) close ++ items) = none := by
    intro field rest items close hclose hrest
    by_cases hkey : bytes field.1 = bytes k
    · have hnamed : fieldNamed (field :: rest) k = some field.2 := by simp [fieldNamed, hkey]
      rw [hnamed, ← hkey]
      exact lookup_items hclose field.2 items
    · have hnamed : fieldNamed (field :: rest) k = fieldNamed rest k := by
        simp [fieldNamed, hkey]
      rw [hnamed, lookup_items_ne hclose hkey]
      exact hrest
  fun_induction fieldItems fields with
  | case1 => rfl
  | case2 field =>
    have := hstep field [] [] [125] rfl rfl
    rwa [List.append_nil] at this
  | case3 field next fields ih => exact hstep field (next :: fields) _ [comma] rfl ih

/-! ## Length -/

/-- The length of a printed value. -/
def FieldValue.length : FieldValue → Nat
  | text value => (value.flatMap escapePiece).length + 2
  | number n => (decimal n).length
  | flag value => if value then 4 else 5

theorem length_items {close : Bytes} (hclose : close.length = 1) (key : Bytes)
    (value : FieldValue) :
    (render (value.items key close)).length = key.length + 4 + value.length := by
  cases value with
  | text value =>
    simp only [FieldValue.items, render, List.flatMap_cons, List.flatMap_nil, Item.render,
      FieldValue.length, List.length_append, List.length_cons, List.length_nil, hclose]
    omega
  | number n =>
    simp only [FieldValue.items, render, List.flatMap_cons, List.flatMap_nil, Item.render,
      FieldValue.length, List.length_append, List.length_cons, List.length_nil, hclose]
    omega
  | flag value =>
    have hflag : (if value then bytes "true" else bytes "false").length =
        if value then 4 else 5 := by cases value <;> rfl
    simp only [FieldValue.items, render, List.flatMap_cons, List.flatMap_nil, Item.render,
      FieldValue.length, List.length_append, List.length_cons, List.length_nil, hclose, hflag]
    omega

/-- The names with their punctuation, and the values. -/
theorem length_fieldItems (fields : List Field) :
    (render (fieldItems fields)).length =
      ((fields.map (·.1)).map fun name => (bytes name).length + 4).sum +
        (fields.map fun field => field.2.length).sum := by
  fun_induction fieldItems fields with
  | case1 => rfl
  | case2 field => simp [length_items]
  | case3 field next fields ih =>
    rw [render_append, List.length_append, ih, length_items rfl]
    simp only [List.map_cons, List.sum_cons]
    omega

/-! ## Reading -/

/-- The line of a record of fields. -/
def fieldsLine (fields : List Field) : Bytes := 123 :: render (fieldItems fields) ++ [newline]

theorem strtoll_flag (value : Bool) (rest : Bytes) :
    strtoll ((if value then bytes "true" else bytes "false") ++ rest) = none := by
  cases value <;> rfl

theorem dropSpaces_flag (value : Bool) (rest : Bytes) :
    dropSpaces ((if value then bytes "true" else bytes "false") ++ rest) =
      (if value then bytes "true" else bytes "false") ++ rest := by
  cases value <;> rfl

section word

variable {fields : List Field} {k : String}

/-- A printed number begins with no space and no quote. -/
theorem head_decimal (n : Int) : ∃ b t, decimal n = b :: t ∧ isSpace b = false ∧ b ≠ quote := by
  cases hd : decimal n with
  | nil =>
    unfold decimal at hd
    split at hd
    · cases hd
    · exact absurd hd (decimalNat_ne_nil _)
  | cons b t =>
    have hb : b ∈ decimal n := by simp [hd]
    exact ⟨b, t, rfl, (mem_decimal hb).1, fun hq => (unquoted_decimal n).1 (hq ▸ hb)⟩

/-- What the search finds for a word. -/
theorem findFieldValue_fields (hnames : ∀ field ∈ fields, FieldName field.1) (hk : FieldKey k) :
    match fieldNamed fields k with
    | some value => ∃ shown, findFieldValue (fieldsLine fields) k = some (dropSpaces (shown ++ [newline])) ∧
        value.Shown shown
    | none => findFieldValue (fieldsLine fields) k = none := by
  have hfind : findFieldValue (fieldsLine fields) k =
      (lookup (bytes k) (fieldItems fields)).map fun value => dropSpaces (value ++ [newline]) :=
    @findFieldValue_object k (fieldsRecord fields hnames) [newline] hk (by decide)
  have hlookup := lookup_fieldItems fields k
  cases hnamed : fieldNamed fields k with
  | none =>
    rw [hnamed] at hlookup
    dsimp only at hlookup ⊢
    rw [hfind, hlookup, Option.map_none]
  | some value =>
    rw [hnamed] at hlookup
    obtain ⟨shown, hshown, hvalue⟩ := hlookup
    exact ⟨shown, by rw [hfind, hshown, Option.map_some], hvalue⟩

/-- **A word is read as the value of its own field.** -/
theorem readString_word (hnames : ∀ field ∈ fields, FieldName field.1) (hk : FieldKey k)
    (size : Nat) :
    wtJsonReadString (fieldsLine fields) k size =
      ((fieldNamed fields k).map (·.readString size)).getD .absent := by
  have hfind := findFieldValue_fields hnames hk
  cases hnamed : fieldNamed fields k with
  | none =>
    rw [hnamed] at hfind
    rw [wtJsonReadString, hfind]
    rfl
  | some value =>
    rw [hnamed] at hfind
    obtain ⟨shown, hfind, hvalue⟩ := hfind
    rw [wtJsonReadString, hfind, Option.map_some, Option.getD_some]
    cases value with
    | text value =>
      obtain ⟨follow, items, rfl⟩ := hvalue
      have hdrop : dropSpaces (render (⟨value.flatMap escapePiece, follow⟩ :: items) ++ [newline]) =
          quote :: (value.flatMap escapePiece ++
            quote :: (follow ++ render items ++ [newline])) := by
        rw [render_cons]
        simp only [List.cons_append, List.append_assoc]
        rfl
      rw [hdrop]
      simp only [ne_eq, not_true_eq_false, false_or, copyString_escaped (escaped_escape value),
        unescape_escape, FieldValue.readString]
      split
      · rfl
      · rename_i hsize
        by_cases hlen : (reread value).length < size
        · have hfit : (reread value).length ≤ size - 1 := by omega
          simp only [hfit, ↓reduceIte, hlen]
        · have hfit : ¬ (reread value).length ≤ size - 1 := by omega
          simp only [hfit, ↓reduceIte, hlen, Bool.false_eq_true]
    | number n =>
      obtain ⟨close, rest, rfl, -⟩ := hvalue
      obtain ⟨b, t, hd, hspace, hquote⟩ := head_decimal n
      have hdrop : dropSpaces (decimal n ++ close ++ rest ++ [newline]) =
          b :: (t ++ close ++ rest ++ [newline]) := by
        rw [hd]
        simp [dropSpaces, hspace]
      rw [hdrop]
      simp [hquote, FieldValue.readString]
    | flag value =>
      obtain ⟨rest, rfl⟩ := hvalue
      rw [List.append_assoc, dropSpaces_flag]
      cases value <;> rfl

theorem readLong_word (hnames : ∀ field ∈ fields, FieldName field.1) (hk : FieldKey k) :
    wtJsonReadLongLong (fieldsLine fields) k = (fieldNamed fields k).bind (·.readLong) := by
  have hfind := findFieldValue_fields hnames hk
  cases hnamed : fieldNamed fields k with
  | none =>
    rw [hnamed] at hfind
    rw [wtJsonReadLongLong, wtJsonReadLong, hfind]
    rfl
  | some value =>
    rw [hnamed] at hfind
    obtain ⟨shown, hfind, hvalue⟩ := hfind
    rw [wtJsonReadLongLong, wtJsonReadLong, hfind, Option.bind_some, Option.bind_some]
    cases value with
    | text value =>
      obtain ⟨follow, items, rfl⟩ := hvalue
      rw [render_cons]
      rfl
    | number n =>
      obtain ⟨close, rest, rfl, hclose⟩ := hvalue
      have hsp : strtoll (dropSpaces (decimal n ++ close ++ rest ++ [newline])) =
          strtoll (decimal n ++ (close ++ rest ++ [newline])) := by
        simp only [strtoll, dropSpaces_dropSpaces, List.append_assoc]
      rw [hsp, strtoll_decimal_clamp]
      · rfl
      · cases close with
        | nil => simp at hclose
        | cons c close => simpa using hclose
    | flag value =>
      obtain ⟨rest, rfl⟩ := hvalue
      rw [List.append_assoc, dropSpaces_flag, strtoll_flag]
      rfl

end word

/-! ## Other keys

A key that is no word names no field. Its pattern can still occur in the line, and it is found
where a colon follows; between the quotes of a record only the text `:` makes that possible.
-/

/-- A search fails where no occurrence of the pattern has a colon behind it. -/
theorem findFieldFrom_eq_none {pattern : Bytes} (hne : pattern ≠ []) {fuel : Nat} {s : Bytes}
    (h : ∀ rest, pattern ++ rest <:+ s → (dropSpaces rest).head? ≠ some colon) :
    findFieldFrom pattern fuel s = none := by
  induction fuel generalizing s with
  | zero => rfl
  | succ fuel ih =>
    rw [findFieldFrom]
    cases hfound : strstr pattern s with
    | none => rfl
    | some found =>
      obtain ⟨pre, rest, rfl, rfl⟩ := strstr_eq_some hfound
      have hrest : pattern ++ rest <:+ pre ++ (pattern ++ rest) := List.suffix_append _ _
      have hcolon := h rest hrest
      have hsuffix : dropSpaces rest <:+ pre ++ (pattern ++ rest) :=
        (List.dropWhile_suffix _).trans ((List.suffix_append pattern rest).trans hrest)
      simp only [List.drop_left]
      cases hd : dropSpaces rest with
      | nil => exact findFieldFrom_nil hne fuel
      | cons b t =>
        rw [hd] at hcolon hsuffix
        have hb : b ≠ colon := fun hb => hcolon (by rw [hb]; rfl)
        simp only [hb, ↓reduceIte]
        exact ih fun rest hrest => h rest (hrest.trans hsuffix)

/-- What stands behind a quote inside an escaped string is an escaped string. -/
theorem escaped_behind_quote {t : Bytes} : ∀ {pre : Bytes}, Escaped (pre ++ quote :: t) → Escaped t
  | [], h => by
    cases h with
    | byte hq => exact absurd rfl hq
  | [b], h => by
    cases h with
    | byte _ _ _ h => exact @escaped_behind_quote t [] h
    | escape _ h => exact h
  | b :: e :: pre, h => by
    cases h with
    | byte _ _ _ h => exact @escaped_behind_quote t (e :: pre) h
    | escape _ h => exact @escaped_behind_quote t pre h

/-- A text that follows other punctuation than a colon begins with a letter. -/
def Separated : List Item → Prop
  | [] => True
  | i :: items => (i.follow ≠ [colon] → ∀ j ∈ items.head?, ∃ b ∈ j.text.head?,
      isSpace b = false ∧ b ≠ colon) ∧ Separated items

section other

variable {k rest tail : Bytes}

theorem head_punct {b : UInt8} {t : Bytes} (hpunct : isPunct b) (hb : b ≠ colon) :
    (dropSpaces (b :: t)).head? ≠ some colon := by
  rw [dropSpaces_punct hpunct]
  exact fun h => hb (Option.some.inj h)

/-- What an item is followed by, where it is no key. -/
theorem head_follow {i : Item} (hi : i.Ok) (hkey : i.follow.head? ≠ some colon) :
    (dropSpaces (i.follow ++ tail)).head? ≠ some colon := by
  obtain ⟨b, hb, hpunct⟩ := hi.punct
  cases hf : i.follow with
  | nil => simp [hf] at hb
  | cons c f =>
    rw [hf] at hb hkey
    obtain rfl : c = b := Option.some.inj hb
    exact head_punct hpunct fun hc => hkey (by rw [hc]; rfl)

/-- A quoted text in front of another: both have no quote, so they end at the same one. -/
theorem eq_of_unquoted {a b s t : Bytes} (ha : quote ∉ a) (hb : quote ∉ b)
    (h : a ++ quote :: s = b ++ quote :: t) : a = b ∧ s = t := by
  have htake : ∀ {c u : Bytes}, quote ∉ c → (c ++ quote :: u).takeWhile (· != quote) = c := by
    intro c u hc
    have hne : ∀ x ∈ c, (x != quote) = true := fun x hx => bne_iff_ne.mpr fun hq => hc (hq ▸ hx)
    rw [List.takeWhile_append_of_pos hne, List.takeWhile_cons_of_neg (by simp), List.append_nil]
  have hab : a = b := by rw [← htake (u := s) ha, h, htake hb]
  subst hab
  exact ⟨rfl, by simpa using h⟩

/-- A suffix that begins with a quote begins inside a text, at the quote behind it, or later. -/
theorem suffix_cases {x s t : Bytes} (h : quote :: s <:+ x ++ quote :: t) :
    (∃ pre inner, x = pre ++ quote :: inner ∧ s = inner ++ quote :: t) ∨ s = t ∨
      quote :: s <:+ t := by
  obtain ⟨front, hfront⟩ := h
  rcases List.append_eq_append_iff.mp hfront with ⟨as, rfl, has⟩ | ⟨bs, -, hbs⟩
  · cases as with
    | nil => exact .inr (.inl (List.cons.inj has).2)
    | cons a as =>
      obtain ⟨rfl, rfl⟩ := List.cons.inj has
      exact .inl ⟨front, as, rfl, rfl⟩
  · cases bs with
    | nil => exact .inr (.inl (List.cons.inj hbs).2.symm)
    | cons b bs => exact .inr (.inr ⟨bs, (List.cons.inj hbs).2.symm⟩)

theorem suffix_of_unquoted {f s t : Bytes} (hf : quote ∉ f) (h : quote :: s <:+ f ++ t) :
    quote :: s <:+ t := by
  obtain ⟨front, hfront⟩ := h
  rcases List.append_eq_append_iff.mp hfront with ⟨as, rfl, has⟩ | ⟨bs, -, hbs⟩
  · cases as with
    | nil => exact ⟨[], has⟩
    | cons a as =>
      obtain ⟨rfl, -⟩ := List.cons.inj has
      exact absurd (List.mem_append_right front List.mem_cons_self) hf
  · exact ⟨bs, hbs.symm⟩

/-- **In a printed record no colon follows a plain pattern that is no key of it.** -/
theorem colon_notBehind {items : List Item} (hok : ∀ i ∈ items, i.Ok) (hsep : Separated items)
    (hkeys : ∀ i ∈ items, i.follow.head? = some colon → i.text ≠ k) (hk : Plain k)
    (hcolon : k ≠ [colon]) (htail : quote ∉ tail)
    (h : quoted k ++ rest <:+ render items ++ tail) : (dropSpaces rest).head? ≠ some colon := by
  induction items with
  | nil =>
    have hmem : quote ∈ tail := h.subset (by simp [quoted, quotedThen])
    exact absurd hmem htail
  | cons i items ih =>
    have hi := hok i List.mem_cons_self
    have hkquote : quote ∉ k := fun hq => (hk quote hq).1 rfl
    have hpattern : quoted k ++ rest = quote :: (k ++ quote :: rest) := by
      simp [quoted, quotedThen]
    have htext : render (i :: items) ++ tail =
        [] ++ quote :: (i.text ++ quote :: (i.follow ++ (render items ++ tail))) := by
      simp [render_cons]
    rw [hpattern, htext] at h
    rcases suffix_cases h with ⟨pre, inner, hnil, -⟩ | heq | h
    · cases pre <;> cases hnil
    · -- the pattern is the item's own text
      have htext := hi.escaped.eq_of_start hk (T := i.follow ++ (render items ++ tail))
        ⟨rest, by rw [← heq]; simp⟩
      rw [htext] at heq
      obtain rfl := (List.cons.inj (List.append_cancel_left heq)).2
      exact head_follow hi fun hkey => hkeys i List.mem_cons_self hkey htext
    · rcases suffix_cases h with ⟨pre, inner, hinner, heq⟩ | heq | h
      · -- the pattern begins at an escaped quote in the text
        have hescaped : Escaped inner := @escaped_behind_quote inner pre (hinner ▸ hi.escaped)
        have htext := hescaped.eq_of_start hk (T := i.follow ++ (render items ++ tail))
          ⟨rest, by rw [← heq]; simp⟩
        rw [htext] at heq
        obtain rfl := (List.cons.inj (List.append_cancel_left heq)).2
        refine head_follow hi fun hkey => ?_
        have hplain := hi.plain_of_colon hkey quote (by simp [hinner])
        exact hplain.1 rfl
      · -- the pattern begins at the closing quote
        cases items with
        | nil =>
          have hmem : quote ∈ i.follow ++ (render [] ++ tail) := by
            rw [← heq]
            simp
          simp only [render, List.flatMap_nil, List.nil_append, List.mem_append] at hmem
          exact absurd hmem (by simp [hi.unquoted, htail])
        | cons j items =>
          have hrender : i.follow ++ (render (j :: items) ++ tail) =
              i.follow ++ quote :: (j.text ++ quote :: (j.follow ++ (render items ++ tail))) := by
            simp [render_cons]
          rw [hrender] at heq
          obtain ⟨hfollow, rfl⟩ := eq_of_unquoted hkquote hi.unquoted heq
          obtain ⟨b, hb, hspace, hne⟩ := hsep.1 (hfollow ▸ hcolon) j (by simp)
          cases hj : j.text with
          | nil => simp [hj] at hb
          | cons c t =>
            rw [hj] at hb
            obtain rfl : c = b := Option.some.inj hb
            simp only [dropSpaces, List.cons_append, List.dropWhile_cons, hspace,
              Bool.false_eq_true, ↓reduceIte, List.head?_cons]
            exact fun hc => hne (Option.some.inj hc)
      · exact ih (fun j hj => hok j (List.mem_cons_of_mem i hj)) hsep.2
          (fun j hj => hkeys j (List.mem_cons_of_mem i hj))
          (hpattern ▸ suffix_of_unquoted hi.unquoted h)

end other

/-! ## All keys -/

/-- A key that the pattern buffer can hold between its quotes, other than the single colon. -/
structure SearchKey (k : String) : Prop where
  quote : quote ∉ bytes k
  backslash : backslash ∉ bytes k
  short : KeyFits k
  colon : bytes k ≠ [colon]

theorem separated_items {key close : Bytes} {rest : List Item} (value : FieldValue)
    (hrest : Separated rest) (hhead : ∀ j ∈ rest.head?, ∃ b ∈ j.text.head?,
      isSpace b = false ∧ b ≠ colon) : Separated (value.items key close ++ rest) := by
  cases value with
  | text value => exact ⟨fun h => absurd rfl h, fun _ => hhead, hrest⟩
  | number n => exact ⟨fun _ => hhead, hrest⟩
  | flag value => exact ⟨fun _ => hhead, hrest⟩

theorem head_letter {k : String} (h : FieldName k) :
    ∃ b ∈ (bytes k).head?, isSpace b = false ∧ b ≠ colon := by
  obtain ⟨b, hb, hpunct, hspace⟩ := h.letter
  refine ⟨b, hb, hspace, ?_⟩
  rintro rfl
  cases hpunct

theorem head_fieldItems {field : Field} {fields : List Field} {j : Item}
    (h : j ∈ (fieldItems (field :: fields)).head?) : j.text = bytes field.1 := by
  obtain ⟨name, value⟩ := field
  cases fields <;> cases value <;> simp [fieldItems, FieldValue.items] at h <;> rw [← h]

theorem separated_fieldItems {fields : List Field} (h : ∀ field ∈ fields, FieldName field.1) :
    Separated (fieldItems fields) := by
  fun_induction fieldItems fields with
  | case1 => trivial
  | case2 field =>
    have := @separated_items (bytes field.1) [125] [] field.2 trivial (by simp)
    rwa [List.append_nil] at this
  | case3 field next fields ih =>
    refine separated_items field.2 (ih fun f hf => h f (List.mem_cons_of_mem field hf)) ?_
    intro j hj
    rw [head_fieldItems hj]
    exact head_letter (h next (by simp))

theorem key_fieldItems {fields : List Field} {i : Item} (hi : i ∈ fieldItems fields)
    (hkey : i.follow.head? = some colon) : ∃ field ∈ fields, i.text = bytes field.1 := by
  have hitems : ∀ {field : Field} {close : Bytes}, closes close = true →
      i ∈ field.2.items (bytes field.1) close → i.text = bytes field.1 := by
    intro field close hclose hmem
    obtain ⟨name, value⟩ := field
    cases value with
    | text value =>
      simp only [FieldValue.items, List.mem_cons, List.not_mem_nil, or_false] at hmem
      rcases hmem with rfl | rfl
      · rfl
      · exact absurd hkey (not_key_of_closes hclose)
    | number n => rw [List.mem_singleton.mp hmem]
    | flag value => rw [List.mem_singleton.mp hmem]
  fun_induction fieldItems fields with
  | case1 => cases hi
  | case2 field => exact ⟨field, by simp, hitems rfl hi⟩
  | case3 field next fields ih =>
    rcases List.mem_append.mp hi with hi | hi
    · exact ⟨field, by simp, hitems rfl hi⟩
    · obtain ⟨f, hf, htext⟩ := ih hi
      exact ⟨f, List.mem_cons_of_mem field hf, htext⟩

section all

variable {fields : List Field} {k : String}

/-- A key without a quote or a backslash that names no field is not found. -/
theorem findFieldValue_other (hnames : ∀ field ∈ fields, FieldName field.1) (hk : SearchKey k)
    (hno : ∀ field ∈ fields, bytes field.1 ≠ bytes k) :
    findFieldValue (fieldsLine fields) k = none := by
  have hpat : snprintf 128 (quoted (bytes k)) = quoted (bytes k) := pattern_eq hk.short
  rw [findFieldValue, hpat]
  refine findFieldFrom_eq_none (by simp [quoted, quotedThen]) fun rest hrest => ?_
  by_cases hnl : newline ∈ bytes k
  · -- the only newline of the line is its last byte
    obtain ⟨front, hfront⟩ := hrest
    have hinner : newline ∈ (fieldsLine fields).dropLast := by
      have hsplit : front ++ (quoted (bytes k) ++ rest) =
          (front ++ [quote] ++ bytes k) ++ (quote :: rest) := by
        simp [quoted, quotedThen]
      rw [← hfront, hsplit, List.dropLast_append_of_ne_nil (List.cons_ne_nil quote rest)]
      simp [hnl]
    rw [fieldsLine, List.dropLast_concat] at hinner
    exact absurd hinner (fieldsRecord fields hnames).newline_notMem_object
  · have hplain : Plain (bytes k) := fun b hb =>
      ⟨fun h => hk.quote (h ▸ hb), fun h => hk.backslash (h ▸ hb), fun h => hnl (h ▸ hb)⟩
    have hsuffix : quoted (bytes k) ++ rest <:+ render (fieldItems fields) ++ [newline] := by
      refine suffix_of_unquoted (f := [123]) (by decide) ?_
      simpa [quoted, quotedThen, fieldsLine] using hrest
    refine colon_notBehind (fieldItems_ok hnames) (separated_fieldItems hnames) ?_ hplain hk.colon
      (by decide) hsuffix
    intro i hi hkey htext
    obtain ⟨field, hfield, hname⟩ := key_fieldItems hi hkey
    exact hno field hfield (hname.symm.trans htext)

theorem fieldNamed_eq_none (hno : ∀ field ∈ fields, bytes field.1 ≠ bytes k) :
    fieldNamed fields k = none := by
  rw [fieldNamed, List.find?_eq_none.mpr, Option.map_none]
  intro field hfield
  simpa using hno field hfield

/-- A key that names a field is a word. -/
theorem SearchKey.fieldKey (hk : SearchKey k) (hnames : ∀ field ∈ fields, FieldName field.1)
    {field : Field} (hfield : field ∈ fields) (hkey : bytes field.1 = bytes k) : FieldKey k :=
  ⟨hkey ▸ (hnames field hfield).word, hk.short⟩

/-- **What is read of a key is what its own value reads as.** -/
theorem readString_fields (hnames : ∀ field ∈ fields, FieldName field.1) (hk : SearchKey k)
    (size : Nat) :
    wtJsonReadString (fieldsLine fields) k size =
      ((fieldNamed fields k).map (·.readString size)).getD .absent := by
  by_cases hnamed : ∃ field ∈ fields, bytes field.1 = bytes k
  · obtain ⟨field, hfield, hkey⟩ := hnamed
    exact readString_word hnames (hk.fieldKey hnames hfield hkey) size
  · have hno : ∀ field ∈ fields, bytes field.1 ≠ bytes k := by simpa using hnamed
    rw [fieldNamed_eq_none hno, wtJsonReadString, findFieldValue_other hnames hk hno]
    rfl

theorem readLong_fields (hnames : ∀ field ∈ fields, FieldName field.1) (hk : SearchKey k) :
    wtJsonReadLongLong (fieldsLine fields) k = (fieldNamed fields k).bind (·.readLong) := by
  by_cases hnamed : ∃ field ∈ fields, bytes field.1 = bytes k
  · obtain ⟨field, hfield, hkey⟩ := hnamed
    exact readLong_word hnames (hk.fieldKey hnames hfield hkey)
  · have hno : ∀ field ∈ fields, bytes field.1 ≠ bytes k := by simpa using hnamed
    rw [fieldNamed_eq_none hno, wtJsonReadLongLong, wtJsonReadLong,
      findFieldValue_other hnames hk hno]
    rfl

end all

/-! ## Texts -/

theorem readString_text (text : Bytes) {size : Nat} (h : 0 < size) :
    (FieldValue.text text).readString size =
      if (reread text).length < size then .ok (reread text)
      else .cut ((reread text).take (size - 1)) :=
  if_neg (by omega)

section text

variable {text : Bytes} {size : Nat} (hsize : text.length < size)

include hsize

/-- A text is read back in whole, or a reader is left with another. -/
theorem written_text_iff : ((FieldValue.text text).readString size).written = some text ↔
    Decodes text := by
  constructor
  · intro h
    have hwritten : ∃ n, text = (reread text).take n := by
      rw [readString_text text (by omega)] at h
      split at h
      · exact ⟨(reread text).length, by simpa using (Option.some.inj h).symm⟩
      · exact ⟨size - 1, (Option.some.inj h).symm⟩
    obtain ⟨n, hn⟩ := hwritten
    intro b hb
    rw [hn] at hb
    exact decodes_reread text b (List.mem_of_mem_take hb)
  · intro h
    rw [readString_text text (by omega), reread_eq_self_iff.mpr h, if_pos hsize]
    rfl

theorem toOption_text_iff : ((FieldValue.text text).readString size).toOption = some text ↔
    Decodes text := by
  rw [← written_text_iff hsize]
  rw [readString_text text (by omega)]
  split
  · rfl
  · rename_i hlong
    simp only [StringField.toOption, StringField.written, reduceCtorEq, false_iff]
    intro h
    have hdecodes : Decodes text := by
      intro b hb
      rw [← Option.some.inj h] at hb
      exact decodes_reread text b (List.mem_of_mem_take hb)
    rw [reread_eq_self_iff.mpr hdecodes] at hlong
    exact hlong hsize

end text

end WovenTeam

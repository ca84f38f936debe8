import WovenTeam.Fields

/-!
# Objects with objects inside

Printed JSON whose members are leaves, objects of leaves, or arrays of such objects, with any number
of spaces behind colons and commas. The readers do not see the nesting: `lookup_document` says that
a key stands for the first member of that name in the order of the text, whichever object it is in.
-/

namespace WovenTeam

open CText QuotedText

/-! ## Documents -/

inductive Leaf where
  | text (value : Literal)
  | number (n : Int)
  /-- A number with a fraction. -/
  | fractional (whole fraction : Nat)
  | flag (value : Bool)
  | texts (values : List Literal)

inductive NestedValue where
  | leaf (value : Leaf)
  | object (members : List (String × Leaf))
  /-- An array of objects, none of them empty. -/
  | objects (elements : List ((String × Leaf) × List (String × Leaf)))

abbrev Document := List (String × NestedValue)

/-- How many spaces the writer puts behind a colon and behind a comma. -/
structure Spacing where
  afterColon : Nat := 0
  afterComma : Nat := 0

def spaces (n : Nat) : Bytes := List.replicate n 32

def Spacing.colon (layout : Spacing) : Bytes := CText.colon :: spaces layout.afterColon

def Spacing.comma (layout : Spacing) : Bytes := CText.comma :: spaces layout.afterComma

/-! ## Printing -/

section print

variable (layout : Spacing)

def elementItems (close : Bytes) : List Literal → List Item
  | [] => []
  | [value] => [⟨value.text, close⟩]
  | value :: next :: values => ⟨value.text, layout.comma⟩ :: elementItems close (next :: values)

def Leaf.items (key close : Bytes) : Leaf → List Item
  | text value => [⟨key, layout.colon⟩, ⟨value.text, close⟩]
  | number n => [⟨key, layout.colon ++ (decimal n ++ close)⟩]
  | fractional whole fraction =>
    [⟨key, layout.colon ++ (decimalNat whole ++ 46 :: decimalNat fraction ++ close)⟩]
  | flag value =>
    [⟨key, layout.colon ++ ((if value then bytes "true" else bytes "false") ++ close)⟩]
  | texts [] => [⟨key, layout.colon ++ (bytes "[]" ++ close)⟩]
  | texts (value :: values) =>
    ⟨key, layout.colon ++ bytes "["⟩ :: elementItems layout (93 :: close) (value :: values)

/-- The members of an object, with `close` behind the last. -/
def membersItems (close : Bytes) : List (String × Leaf) → List Item
  | [] => []
  | [member] => member.2.items layout (bytes member.1) close
  | member :: next :: members =>
    member.2.items layout (bytes member.1) layout.comma ++ membersItems close (next :: members)

def objectsItems (close : Bytes) : List ((String × Leaf) × List (String × Leaf)) → List Item
  | [] => []
  | [element] => membersItems layout (125 :: 93 :: close) (element.1 :: element.2)
  | element :: next :: elements =>
    membersItems layout (125 :: layout.comma ++ [123]) (element.1 :: element.2) ++
      objectsItems close (next :: elements)

def NestedValue.items (key close : Bytes) : NestedValue → List Item
  | leaf value => value.items layout key close
  | object [] => [⟨key, layout.colon ++ (bytes "\x7b\x7d" ++ close)⟩]
  | object (member :: members) =>
    ⟨key, layout.colon ++ bytes "\x7b"⟩ :: membersItems layout (125 :: close) (member :: members)
  | objects [] => [⟨key, layout.colon ++ (bytes "[]" ++ close)⟩]
  | objects (element :: elements) =>
    ⟨key, layout.colon ++ bytes "[\x7b"⟩ :: objectsItems layout close (element :: elements)

def documentItems : Document → List Item
  | [] => []
  | [member] => member.2.items layout (bytes member.1) [125]
  | member :: next :: members =>
    member.2.items layout (bytes member.1) layout.comma ++ documentItems (next :: members)

end print

/-! ## The text order -/

/-- The members in the order of the text; a key that opens an object or an array of objects stands
there without a leaf. -/
def NestedValue.flat (key : String) : NestedValue → List (String × Option Leaf)
  | leaf value => [(key, some value)]
  | object members => (key, none) :: members.map fun member => (member.1, some member.2)
  | objects elements => (key, none) :: elements.flatMap fun element =>
      (element.1 :: element.2).map fun member => (member.1, some member.2)

def Document.flat (document : Document) : List (String × Option Leaf) :=
  document.flatMap fun member => member.2.flat member.1

/-- The first member of that name in the order of the text. -/
def firstNamed (flat : List (String × Option Leaf)) (k : String) : Option (Option Leaf) :=
  (flat.find? fun member => bytes member.1 == bytes k).map (·.2)

/-- How the text behind the colon begins, as far as a text or a number is concerned. -/
def Leaf.Shown (layout : Spacing) : Leaf → Bytes → Prop
  | text value, shown => ∃ follow items,
      shown = spaces layout.afterColon ++ render (⟨value.text, follow⟩ :: items)
  | number n, shown => ∃ close rest,
      shown = spaces layout.afterColon ++ (decimal n ++ close ++ rest) ∧
        close.head?.map isDigit = some false
  | _, _ => True

/-! ## The items are well formed -/

theorem closes_cons {b : UInt8} {t : Bytes} (hb : isPunct b = true ∧ b ≠ colon) (ht : Unquoted t) :
    Closes (b :: t) := by
  refine ⟨⟨b, rfl, hb⟩, ?_⟩
  have hhead : Unquoted [b] := by
    refine ⟨fun h => ?_, fun h => ?_⟩
    · rw [← List.mem_singleton.mp h] at hb
      exact absurd hb (by decide)
    · rw [← List.mem_singleton.mp h] at hb
      exact absurd hb (by decide)
  exact hhead.append ht

theorem unquoted_spaces (n : Nat) : Unquoted (spaces n) := by
  refine ⟨fun h => ?_, fun h => ?_⟩
  · exact absurd (List.eq_of_mem_replicate h) (by decide)
  · exact absurd (List.eq_of_mem_replicate h) (by decide)

theorem Spacing.closes_comma (layout : Spacing) : Closes layout.comma :=
  closes_cons (by decide) (unquoted_spaces _)

section ok

variable {layout : Spacing} {close : Bytes}

theorem ok_key {key : Bytes} {f : Bytes} (hkey : Plain key) (hf : Unquoted f) :
    Item.Ok ⟨key, layout.colon ++ f⟩ :=
  .key hkey ((unquoted_spaces _).append hf)

theorem ok_value {value : Literal} (hclose : Closes close) : Item.Ok ⟨value.text, close⟩ :=
  .of_value value.escaped hclose.1 hclose.2.1 hclose.2.2

theorem elementItems_ok (hclose : Closes close) (values : List Literal) :
    ∀ i ∈ elementItems layout close values, i.Ok := by
  fun_induction elementItems layout close values with
  | case1 => simp
  | case2 value => simpa using ok_value hclose
  | case3 value next values ih =>
    rw [List.forall_mem_cons]
    exact ⟨ok_value layout.closes_comma, ih⟩

theorem unquoted_decimalNat (n : Nat) : Unquoted (decimalNat n) := by
  have h := unquoted_decimal (n : Int)
  rwa [decimal, if_neg (by omega), Int.natAbs_natCast] at h

theorem leafItems_ok {key : Bytes} (hkey : Plain key) (hclose : Closes close) (leaf : Leaf) :
    ∀ i ∈ leaf.items layout key close, i.Ok := by
  have hcolon : Item.Ok ⟨key, layout.colon⟩ := .key hkey (unquoted_spaces _)
  cases leaf with
  | text value =>
    rw [Leaf.items, List.forall_mem_cons, List.forall_mem_singleton]
    exact ⟨hcolon, ok_value hclose⟩
  | number n =>
    rw [Leaf.items, List.forall_mem_singleton]
    exact ok_key hkey ((unquoted_decimal n).append hclose.2)
  | fractional whole fraction =>
    rw [Leaf.items, List.forall_mem_singleton]
    have hdot : Unquoted ([46] : Bytes) := by decide
    have hnumber := (unquoted_decimalNat whole).append (hdot.append (unquoted_decimalNat fraction))
    exact ok_key hkey (hnumber.append hclose.2)
  | flag value =>
    rw [Leaf.items, List.forall_mem_singleton]
    have hflag : Unquoted (if value then bytes "true" else bytes "false") := by
      cases value <;> decide
    exact ok_key hkey (hflag.append hclose.2)
  | texts values =>
    cases values with
    | nil =>
      rw [Leaf.items, List.forall_mem_singleton]
      exact ok_key hkey (Unquoted.append (by decide) hclose.2)
    | cons value values =>
      rw [Leaf.items, List.forall_mem_cons]
      exact ⟨ok_key hkey (by decide), elementItems_ok (closes_cons (by decide) hclose.2) _⟩

theorem membersItems_ok {members : List (String × Leaf)} (hclose : Closes close)
    (hkeys : ∀ member ∈ members, Plain (bytes member.1)) :
    ∀ i ∈ membersItems layout close members, i.Ok := by
  fun_induction membersItems layout close members with
  | case1 => simp
  | case2 member => exact leafItems_ok (hkeys member (by simp)) hclose _
  | case3 member next members ih =>
    intro i hi
    rcases List.mem_append.mp hi with hi | hi
    · exact leafItems_ok (hkeys member (by simp)) layout.closes_comma _ i hi
    · exact ih (fun m hm => hkeys m (List.mem_cons_of_mem member hm)) i hi

theorem objectsItems_ok {elements : List ((String × Leaf) × List (String × Leaf))}
    (hclose : Closes close)
    (hkeys : ∀ element ∈ elements, ∀ member ∈ element.1 :: element.2, Plain (bytes member.1)) :
    ∀ i ∈ objectsItems layout close elements, i.Ok := by
  fun_induction objectsItems layout close elements with
  | case1 => simp
  | case2 element =>
    have hbracket : Unquoted (93 :: close) := Unquoted.append (s := [93]) (by decide) hclose.2
    exact membersItems_ok (closes_cons (by decide) hbracket) (hkeys element (by simp))
  | case3 element next elements ih =>
    have hcomma : Unquoted (layout.comma ++ [123]) :=
      layout.closes_comma.2.append (by decide)
    intro i hi
    rcases List.mem_append.mp hi with hi | hi
    · exact membersItems_ok (closes_cons (by decide) hcomma) (hkeys element (by simp)) i hi
    · exact ih (fun e he => hkeys e (List.mem_cons_of_mem element he)) i hi

theorem valueItems_ok {key : String} {value : NestedValue} (hclose : Closes close)
    (hkeys : ∀ entry ∈ value.flat key, Plain (bytes entry.1)) :
    ∀ i ∈ value.items layout (bytes key) close, i.Ok := by
  cases value with
  | leaf value => exact leafItems_ok (hkeys (key, some value) (by simp [NestedValue.flat])) hclose _
  | object members =>
    have hkey : Plain (bytes key) := hkeys (key, none) (by simp [NestedValue.flat])
    cases members with
    | nil =>
      rw [NestedValue.items, List.forall_mem_singleton]
      exact ok_key hkey (Unquoted.append (by decide) hclose.2)
    | cons member members =>
      rw [NestedValue.items, List.forall_mem_cons]
      refine ⟨ok_key hkey (by decide), membersItems_ok (closes_cons (by decide) hclose.2) ?_⟩
      intro m hm
      exact hkeys (m.1, some m.2)
        (List.mem_cons_of_mem _ (List.mem_map_of_mem (f := fun m => (m.1, some m.2)) hm))
  | objects elements =>
    have hkey : Plain (bytes key) := hkeys (key, none) (by simp [NestedValue.flat])
    cases elements with
    | nil =>
      rw [NestedValue.items, List.forall_mem_singleton]
      exact ok_key hkey (Unquoted.append (by decide) hclose.2)
    | cons element elements =>
      rw [NestedValue.items, List.forall_mem_cons]
      refine ⟨ok_key hkey (by decide), objectsItems_ok hclose fun e he m hm => ?_⟩
      refine hkeys (m.1, some m.2) (List.mem_cons_of_mem _ (List.mem_flatMap.mpr ⟨e, he, ?_⟩))
      exact List.mem_map_of_mem (f := fun m => (m.1, some m.2)) hm

/-- **A document prints as well-formed items.** -/
theorem documentItems_ok {document : Document}
    (hkeys : ∀ entry ∈ document.flat, Plain (bytes entry.1)) :
    ∀ i ∈ documentItems layout document, i.Ok := by
  have hmember : ∀ member ∈ document, ∀ entry ∈ member.2.flat member.1, Plain (bytes entry.1) :=
    fun member hm entry he => hkeys entry (List.mem_flatMap.mpr ⟨member, hm, he⟩)
  clear hkeys
  fun_induction documentItems layout document with
  | case1 => simp
  | case2 member => exact valueItems_ok (closes_cons (by decide) (by decide)) (hmember member (by simp))
  | case3 member next members ih =>
    intro i hi
    rcases List.mem_append.mp hi with hi | hi
    · exact valueItems_ok layout.closes_comma (hmember member (by simp)) i hi
    · exact ih (fun m hm => hmember m (List.mem_cons_of_mem member hm)) i hi

end ok

/-! ## The first member of a name -/

/-- Items in which the search for a key finds the first member of that name, and passes on to what
follows them where there is none. -/
def Locates (layout : Spacing) (k : String) (flat : List (String × Option Leaf))
    (items : List Item) : Prop :=
  ∀ rest, match firstNamed flat k with
    | some (some leaf) => ∃ shown, lookup (bytes k) (items ++ rest) = some shown ∧
        leaf.Shown layout shown
    | some none => True
    | none => lookup (bytes k) (items ++ rest) = lookup (bytes k) rest

section locate

variable {layout : Spacing} {close : Bytes} {k : String}

theorem firstNamed_append (flat flat' : List (String × Option Leaf)) :
    firstNamed (flat ++ flat') k = (firstNamed flat k).or (firstNamed flat' k) := by
  unfold firstNamed
  rw [List.find?_append]
  cases flat.find? fun member => bytes member.1 == bytes k <;> rfl

theorem Locates.append {flat flat' : List (String × Option Leaf)} {items items' : List Item}
    (h : Locates layout k flat items) (h' : Locates layout k flat' items') :
    Locates layout k (flat ++ flat') (items ++ items') := by
  intro rest
  have hrest := h (items' ++ rest)
  rw [firstNamed_append, List.append_assoc]
  cases hfirst : firstNamed flat k with
  | some found =>
    rw [hfirst] at hrest
    rw [Option.some_or]
    cases found <;> exact hrest
  | none =>
    rw [hfirst] at hrest
    dsimp only at hrest
    rw [Option.none_or, hrest]
    exact h' rest

theorem locates_nil : Locates layout k [] [] := fun _ => rfl

/-- Values are not keys. -/
theorem lookup_values {items rest : List Item}
    (h : ∀ i ∈ items, i.follow.head? ≠ some colon) (k : Bytes) :
    lookup k (items ++ rest) = lookup k rest := by
  induction items with
  | nil => rfl
  | cons i items ih =>
    rw [List.forall_mem_cons] at h
    rw [List.cons_append, lookup, if_neg fun hc => h.1 hc.1, ih h.2]

theorem head_closes (h : Closes close) : close.head? ≠ some colon :=
  not_key_of_closes (closes_iff.mpr h)

theorem elementItems_values (hclose : Closes close) (values : List Literal) :
    ∀ i ∈ elementItems layout close values, i.follow.head? ≠ some colon := by
  fun_induction elementItems layout close values with
  | case1 => simp
  | case2 value => simpa using head_closes hclose
  | case3 value next values ih =>
    rw [List.forall_mem_cons]
    exact ⟨head_closes layout.closes_comma, ih⟩

/-- A key without a leaf of its own, with values behind it. -/
theorem locates_opening {key : String} {f : Bytes} {items : List Item}
    (h : ∀ i ∈ items, i.follow.head? ≠ some colon) :
    Locates layout k [(key, none)] (⟨bytes key, layout.colon ++ f⟩ :: items) := by
  intro rest
  by_cases hkey : bytes key = bytes k
  · simp [firstNamed, hkey]
  · have hfirst : firstNamed [(key, none)] k = none := by simp [firstNamed, hkey]
    rw [hfirst]
    dsimp only
    rw [List.cons_append, lookup, if_neg fun hc => hkey hc.2, lookup_values h]

/-- A key with a leaf, printed as an item for the key and values behind it. -/
theorem locates_leaf_of {key : String} {leaf : Leaf} {f : Bytes} {items : List Item}
    (h : ∀ i ∈ items, i.follow.head? ≠ some colon)
    (hshown : ∀ rest, leaf.Shown layout (spaces layout.afterColon ++ f ++ render (items ++ rest))) :
    Locates layout k [(key, some leaf)] (⟨bytes key, layout.colon ++ f⟩ :: items) := by
  intro rest
  by_cases hkey : bytes key = bytes k
  · have hfirst : firstNamed [(key, some leaf)] k = some (some leaf) := by
      simp [firstNamed, hkey]
    rw [hfirst]
    refine ⟨_, ?_, hshown rest⟩
    rw [List.cons_append, lookup, if_pos ⟨rfl, hkey⟩]
    rfl
  · have hfirst : firstNamed [(key, some leaf)] k = none := by simp [firstNamed, hkey]
    rw [hfirst]
    dsimp only
    rw [List.cons_append, lookup, if_neg fun hc => hkey hc.2, lookup_values h]

theorem locates_leaf (hclose : Closes close) (key : String) (leaf : Leaf) :
    Locates layout k [(key, some leaf)] (leaf.items layout (bytes key) close) := by
  have hvalue : ∀ value : Literal, ∀ i ∈ [(⟨value.text, close⟩ : Item)],
      i.follow.head? ≠ some colon := by
    intro value i hi
    rw [List.mem_singleton.mp hi]
    exact head_closes hclose
  cases leaf with
  | text value =>
    have hitems : (Leaf.text value).items layout (bytes key) close =
        ⟨bytes key, layout.colon ++ []⟩ :: [⟨value.text, close⟩] := by
      rw [List.append_nil]
      rfl
    rw [hitems]
    refine locates_leaf_of (hvalue value) fun rest => ⟨close, rest, ?_⟩
    rw [List.append_nil]
    rfl
  | number n =>
    refine locates_leaf_of (by simp) fun rest => ⟨close, render rest, ?_, ?_⟩
    · simp only [List.append_assoc, List.nil_append]
    · obtain ⟨⟨b, hb, hpunct, -⟩, -⟩ := hclose
      rw [hb, Option.map_some]
      simp only [isPunct, Bool.or_eq_true, beq_iff_eq] at hpunct
      rcases hpunct with ((rfl | rfl) | rfl) | rfl <;> rfl
  | fractional whole fraction => exact locates_leaf_of (by simp) fun _ => trivial
  | flag value => exact locates_leaf_of (by simp) fun _ => trivial
  | texts values =>
    cases values with
    | nil => exact locates_leaf_of (by simp) fun _ => trivial
    | cons value values =>
      have hbracket : Closes (93 :: close) := closes_cons (by decide) hclose.2
      exact locates_leaf_of (elementItems_values hbracket _) fun _ => trivial

/-- The entries of an object's members. -/
abbrev entries (members : List (String × Leaf)) : List (String × Option Leaf) :=
  members.map fun member => (member.1, some member.2)

theorem locates_members (hclose : Closes close) (members : List (String × Leaf)) :
    Locates layout k (entries members) (membersItems layout close members) := by
  fun_induction membersItems layout close members with
  | case1 => exact locates_nil
  | case2 member => exact locates_leaf hclose _ _
  | case3 member next members ih => exact (locates_leaf layout.closes_comma _ _).append ih

theorem locates_objects (hclose : Closes close)
    (elements : List ((String × Leaf) × List (String × Leaf))) :
    Locates layout k (elements.flatMap fun element => entries (element.1 :: element.2))
      (objectsItems layout close elements) := by
  fun_induction objectsItems layout close elements with
  | case1 => exact locates_nil
  | case2 element =>
    have hbracket : Unquoted (93 :: close) := Unquoted.append (s := [93]) (by decide) hclose.2
    rw [List.flatMap_singleton]
    exact locates_members (closes_cons (by decide) hbracket) _
  | case3 element next elements ih =>
    have hcomma : Unquoted (layout.comma ++ [123]) := layout.closes_comma.2.append (by decide)
    rw [List.flatMap_cons]
    exact (locates_members (closes_cons (by decide) hcomma) _).append ih

theorem locates_value (hclose : Closes close) (key : String) (value : NestedValue) :
    Locates layout k (value.flat key) (value.items layout (bytes key) close) := by
  have hnil : ∀ i ∈ ([] : List Item), i.follow.head? ≠ some colon := by simp
  cases value with
  | leaf value => exact locates_leaf hclose key value
  | object members =>
    cases members with
    | nil => exact locates_opening hnil
    | cons member members =>
      have hbrace : Closes (125 :: close) := closes_cons (by decide) hclose.2
      exact (locates_opening hnil).append (locates_members hbrace (member :: members))
  | objects elements =>
    cases elements with
    | nil => exact locates_opening hnil
    | cons element elements => exact (locates_opening hnil).append (locates_objects hclose _)

/-- **The search for a key finds the first member of that name in the order of the text.** -/
theorem locates_document (document : Document) :
    Locates layout k document.flat (documentItems layout document) := by
  fun_induction documentItems layout document with
  | case1 => exact locates_nil
  | case2 member =>
    rw [Document.flat, List.flatMap_singleton]
    exact locates_value (closes_cons (by decide) (by decide)) _ _
  | case3 member next members ih =>
    rw [Document.flat, List.flatMap_cons]
    exact (locates_value layout.closes_comma _ _).append ih

end locate

/-! ## Reading -/

/-- The line of a document. -/
def documentLine (layout : Spacing) (document : Document) : Bytes :=
  123 :: render (documentItems layout document) ++ (if document = [] then [125] else []) ++ [newline]

section read

variable {layout : Spacing} {document : Document} {k : String}

theorem dropSpaces_spaces (n : Nat) (s : Bytes) : dropSpaces (spaces n ++ s) = dropSpaces s :=
  List.dropWhile_append_of_pos fun b hb => by rw [List.eq_of_mem_replicate hb]; rfl

/-- What the search finds, where the key has a leaf or is not there. -/
theorem findFieldValue_document (hplain : ∀ entry ∈ document.flat, Plain (bytes entry.1))
    (hk : FieldKey k) :
    ∃ tail, quote ∉ tail ∧ match firstNamed document.flat k with
      | some (some leaf) => ∃ shown, leaf.Shown layout shown ∧
          findFieldValue (documentLine layout document) k = some (dropSpaces (shown ++ tail))
      | some none => True
      | none => findFieldValue (documentLine layout document) k = none := by
  have htail : quote ∉ (if document = [] then [125] else []) ++ [newline] := by
    split <;> decide
  refine ⟨_, htail, ?_⟩
  have hfind : findFieldValue (documentLine layout document) k =
      (lookup (bytes k) (documentItems layout document)).map fun value =>
        dropSpaces (value ++ ((if document = [] then [125] else []) ++ [newline])) := by
    rw [documentLine, List.append_assoc]
    exact @findFieldValue_object k ⟨_, documentItems_ok hplain⟩ _ hk htail
  have hlocate := @locates_document layout k document []
  rw [List.append_nil] at hlocate
  cases hfirst : firstNamed document.flat k with
  | none =>
    rw [hfirst] at hlocate
    dsimp only at hlocate ⊢
    rw [hfind, hlocate]
    rfl
  | some found =>
    rw [hfirst] at hlocate
    cases found with
    | none => trivial
    | some leaf =>
      obtain ⟨shown, hshown, hleaf⟩ := hlocate
      exact ⟨shown, hleaf, by rw [hfind, hshown, Option.map_some]⟩

/-- A text that is the first of its name is read where it fits. -/
theorem readText_document (hplain : ∀ entry ∈ document.flat, Plain (bytes entry.1))
    (hk : FieldKey k) {value : Literal} (h : firstNamed document.flat k = some (some (.text value)))
    {size : Nat} (hsize : 0 < size) :
    (wtJsonReadString (documentLine layout document) k size).toOption =
      if (unescape value.text).length < size then some (unescape value.text) else none := by
  obtain ⟨tail, htail, hfind⟩ := @findFieldValue_document layout _ _ hplain hk
  rw [h] at hfind
  obtain ⟨shown, ⟨follow, items, rfl⟩, hfind⟩ := hfind
  have hdrop : dropSpaces (spaces layout.afterColon ++ render (⟨value.text, follow⟩ :: items) ++ tail) =
      quote :: (value.text ++ quote :: (follow ++ render items ++ tail)) := by
    rw [List.append_assoc, dropSpaces_spaces, render_cons]
    simp only [List.cons_append, List.append_assoc]
    rfl
  rw [hdrop] at hfind
  have hne : ¬ (quote ≠ quote ∨ size = 0) := by
    rintro (h | rfl)
    · exact h rfl
    · omega
  by_cases hlt : (unescape value.text).length < size
  · have hfit : (unescape value.text).length ≤ size - 1 := by omega
    simp only [wtJsonReadString, hfind, hne, ↓reduceIte, copyString_escaped value.escaped, hfit, hlt,
      StringField.toOption]
  · have hfit : ¬ (unescape value.text).length ≤ size - 1 := by omega
    simp only [wtJsonReadString, hfind, hne, ↓reduceIte, copyString_escaped value.escaped, hfit, hlt,
      Bool.false_eq_true, StringField.toOption]

theorem readString_absent (hplain : ∀ entry ∈ document.flat, Plain (bytes entry.1))
    (hk : FieldKey k) (h : firstNamed document.flat k = none) (size : Nat) :
    wtJsonReadString (documentLine layout document) k size = .absent := by
  obtain ⟨tail, htail, hfind⟩ := @findFieldValue_document layout _ _ hplain hk
  rw [h] at hfind
  rw [wtJsonReadString, hfind]

theorem readNumber_document (hplain : ∀ entry ∈ document.flat, Plain (bytes entry.1))
    (hk : FieldKey k) {n : Int} (h : firstNamed document.flat k = some (some (.number n))) :
    wtJsonReadLong (documentLine layout document) k = some (clamp64 n) := by
  obtain ⟨tail, htail, hfind⟩ := @findFieldValue_document layout _ _ hplain hk
  rw [h] at hfind
  obtain ⟨shown, ⟨close, rest, rfl, hclose⟩, hfind⟩ := hfind
  rw [wtJsonReadLong, hfind, Option.bind_some, List.append_assoc, dropSpaces_spaces]
  have hsp : strtoll (dropSpaces (decimal n ++ close ++ rest ++ tail)) =
      strtoll (decimal n ++ (close ++ rest ++ tail)) := by
    simp only [strtoll, dropSpaces_dropSpaces, List.append_assoc]
  rw [hsp, strtoll_decimal_clamp]
  cases close with
  | nil => simp at hclose
  | cons c close => simpa using hclose

theorem readLong_absent (hplain : ∀ entry ∈ document.flat, Plain (bytes entry.1))
    (hk : FieldKey k) (h : firstNamed document.flat k = none) :
    wtJsonReadLong (documentLine layout document) k = none := by
  obtain ⟨tail, htail, hfind⟩ := @findFieldValue_document layout _ _ hplain hk
  rw [h] at hfind
  rw [wtJsonReadLong, hfind]
  rfl

end read

end WovenTeam

import WovenTeam.Nested
import WovenTeam.Projection

/-!
# The documented task package

`docs/api/task-package-v0.1.json`: which members a package and its objects may have, in any order,
and where the daemon takes the values of one from. The readers look for a name in the whole text, so
a member of an object is read from its own place unless an object in front of it has a member of
that name too: `network` stands in `toolPolicy` and in `autonomyGrant`, `maxTokens` in `budget` and
in `autonomyGrant`, `title` at the top and in `task`.
-/

namespace WovenTeam

open CText QuotedText

/-! ## The documented shape -/

inductive LeafKind where
  | text
  | number
  | fractional
  | flag
  | texts
  deriving DecidableEq

def Leaf.kind : Leaf → LeafKind
  | .text _ => .text
  | .number _ => .number
  | .fractional _ _ => .fractional
  | .flag _ => .flag
  | .texts _ => .texts

/-- The names an object may have, with the kinds of their values. -/
abbrev Shape := List (String × LeafKind)

/-- A member that the shape allows. -/
def Member (shape : Shape) := { member : String × Leaf // (member.1, member.2.kind) ∈ shape }

/-- The objects of a package. -/
inductive Place where
  | task
  | toolPolicy
  | autonomyGrant
  | budget
  | timestamps
  deriving DecidableEq

def Place.key : Place → String
  | task => "task"
  | toolPolicy => "toolPolicy"
  | autonomyGrant => "autonomyGrant"
  | budget => "budget"
  | timestamps => "timestamps"

def Place.shape : Place → Shape
  | task => [("title", .text), ("body", .text), ("deliverables", .texts)]
  | toolPolicy => [("profile", .text), ("filesystem", .text), ("network", .text),
      ("system", .text), ("git", .text), ("allowedPaths", .texts), ("deniedPaths", .texts)]
  | autonomyGrant => [("scope", .text), ("ttlSeconds", .number), ("maxWallClockSeconds", .number),
      ("maxCostUsd", .number), ("maxCostUsd", .fractional), ("maxTokens", .number),
      ("network", .text), ("credentialClass", .text), ("requiresCleanWorktree", .flag),
      ("revokedAtUnixMs", .number), ("revokedBy", .text)]
  | budget => [("timeoutSeconds", .number), ("maxOutputBytes", .number), ("maxCostUsd", .number),
      ("maxCostUsd", .fractional), ("maxTokens", .number)]
  | timestamps => [("createdAt", .text), ("updatedAt", .text), ("startedAt", .text),
      ("completedAt", .text)]

def contextRefShape : Shape :=
  [("type", .text), ("ref", .text), ("description", .text), ("required", .flag)]

/-- The members of the package that are no objects. -/
def topShape : Shape :=
  [("schema", .text), ("taskId", .text), ("initiativeId", .text), ("parentTaskId", .text),
    ("requestedByRole", .text), ("createdBy", .text), ("assignedRole", .text),
    ("assignedAgent", .text), ("modelId", .text), ("priority", .text), ("status", .text),
    ("title", .text), ("body", .text), ("acceptanceCriteria", .texts), ("autonomyLevel", .text),
    ("dependencies", .texts), ("createdAtUnixMs", .number)]

inductive PackageMember where
  | leaf (member : Member topShape)
  | object (place : Place) (members : List (Member place.shape))
  | contextRefs (elements : List (Member contextRefShape × List (Member contextRefShape)))

/-- The members of a package, in the order of its text. -/
abbrev Package := List PackageMember

def PackageMember.document : PackageMember → String × NestedValue
  | leaf member => (member.1.1, .leaf member.1.2)
  | object place members => (place.key, .object (members.map (·.1)))
  | contextRefs elements => ("contextRefs",
      .objects (elements.map fun element => (element.1.1, element.2.map (·.1))))

def Package.line (layout : Spacing) (package : Package) : Bytes :=
  documentLine layout (package.map PackageMember.document)

/-! ## Places -/

def memberNamed (members : List (String × Leaf)) (k : String) : Option Leaf :=
  (members.find? fun member => bytes member.1 == bytes k).map (·.2)

/-- The member of that name in an object, or at the top where `place` is `none`. -/
def PackageMember.own (place : Option Place) (k : String) : PackageMember → Option Leaf
  | leaf member => if place = none then memberNamed [member.1] k else none
  | object p members => if place = some p then memberNamed (members.map (·.1)) k else none
  | contextRefs _ => none

def Package.own (package : Package) (place : Option Place) (k : String) : Option Leaf :=
  package.findSome? (PackageMember.own place k)

/-- The member of that name in `rival`, where it stands in front of the one in `place`. -/
def Package.shadow (package : Package) (place rival : Option Place) (k : String) : Option Leaf :=
  (package.takeWhile fun member => (member.own place k).isNone).findSome?
    (PackageMember.own rival k)

/-- The member that is read: the rival's where it stands in front, else the own one. -/
def Package.first (package : Package) (place rival : Option Place) (k : String) : Option Leaf :=
  (package.shadow place rival k).or (package.own place k)

def Leaf.asText : Leaf → Bytes
  | .text value => unescape value.text
  | _ => []

def Leaf.asNumber : Leaf → Int
  | .number n => n
  | _ => 0

def Package.ownText (package : Package) (place : Option Place) (k : String) (fallback : Bytes) :
    Bytes :=
  ((package.own place k).map Leaf.asText).getD fallback

def Package.ownNumber (package : Package) (place : Option Place) (k : String) (fallback : Int) :
    Int :=
  ((package.own place k).map Leaf.asNumber).getD fallback

/-! ## What a package is read as -/

/-- The values of the row and of the summary are those of the documented places, and the defaults
where the package has none. -/
structure Package.ReadFromOwnPlaces (package : Package) (old summary : WtTaskSummary)
    (row : TaskRow) : Prop where
  network : summary.autonomyNetwork =
      package.ownText (some .autonomyGrant) "network" (bytes "none") ∧
    row.autonomyNetwork = package.ownText (some .autonomyGrant) "network" (bytes "none")
  ttlSeconds : summary.autonomyTtlSeconds =
      package.ownNumber (some .autonomyGrant) "ttlSeconds" old.autonomyTtlSeconds ∧
    row.autonomyTtlSeconds = package.ownNumber (some .autonomyGrant) "ttlSeconds" 0
  scope : summary.autonomyScope = package.ownText (some .autonomyGrant) "scope" [] ∧
    row.autonomyScope = package.ownText (some .autonomyGrant) "scope" []
  profile : summary.toolProfile =
      package.ownText (some .toolPolicy) "profile" (bytes "observe") ∧
    row.toolProfile = package.ownText (some .toolPolicy) "profile" (bytes "observe")
  maxTokens : row.maxTokens = package.ownNumber (some .budget) "maxTokens" 0
  timeoutSeconds : summary.timeoutSeconds =
    package.ownNumber (some .budget) "timeoutSeconds" old.timeoutSeconds
  title : summary.title = package.ownText none "title" (bytes "Untitled task") ∧
    row.title = package.ownText none "title" (bytes "Untitled task")

/-- A text as it is kept in a buffer. -/
def keptText (size : Nat) (fallback value : Bytes) : Bytes :=
  if value.length < size then value else fallback

/-- No member of that name stands in front, or one that is kept as the same text; and the own text
fits into the buffer. -/
def Package.TextInPlace (package : Package) (place rival : Option Place) (k : String) (size : Nat)
    (fallback : Bytes) : Prop :=
  match package.shadow place rival k with
  | some leaf => keptText size fallback leaf.asText = package.ownText place k fallback
  | none => (package.ownText place k fallback).length < size

/-- The same of a number in a 64-bit variable. -/
def Package.NumberInPlace (package : Package) (place rival : Option Place) (k : String)
    (fallback : Int) : Prop :=
  match package.shadow place rival k with
  | some leaf => clamp64 leaf.asNumber = package.ownNumber place k fallback
  | none => ∀ leaf ∈ package.own place k, -2 ^ 63 ≤ leaf.asNumber ∧ leaf.asNumber < 2 ^ 63

/-- **The condition on a package.** Only `network`, `maxTokens` and `title` have a place from which
they can be shadowed. -/
structure Package.InPlace (package : Package) : Prop where
  network : package.TextInPlace (some .autonomyGrant) (some .toolPolicy) "network" wtTaskPolicySize
    (bytes "none")
  title : package.TextInPlace none (some .task) "title" wtTaskTitleSize (bytes "Untitled task")
  maxTokens : package.NumberInPlace (some .budget) (some .autonomyGrant) "maxTokens" 0
  scope : (package.ownText (some .autonomyGrant) "scope" []).length < wtTaskBodySize
  profile : (package.ownText (some .toolPolicy) "profile" (bytes "observe")).length <
    wtTaskPolicySize
  ttlSeconds : ∀ leaf ∈ package.own (some .autonomyGrant) "ttlSeconds",
    -2 ^ 31 ≤ leaf.asNumber ∧ leaf.asNumber < 2 ^ 31
  timeoutSeconds : ∀ leaf ∈ package.own (some .budget) "timeoutSeconds",
    -2 ^ 31 ≤ leaf.asNumber ∧ leaf.asNumber < 2 ^ 31

/-! ## The first member of a name -/

theorem findSome?_or {α β : Type} (f g : α → Option β) (l : List α) :
    (l.findSome? fun a => (f a).or (g a)) =
      ((l.takeWhile fun a => (f a).isNone).findSome? g).or (l.findSome? f) := by
  induction l with
  | nil => rfl
  | cons a l ih =>
    cases hf : f a with
    | some b => simp [hf]
    | none =>
      cases hg : g a with
      | some b => simp [hf, hg]
      | none => simp [hf, hg, ih]

theorem firstNamed_entries (members : List (String × Leaf)) (k : String) :
    firstNamed (entries members) k = (memberNamed members k).map some := by
  induction members with
  | nil => rfl
  | cons member members ih =>
    unfold firstNamed memberNamed at ih ⊢
    by_cases h : bytes member.1 = bytes k
    · simp [h]
    · have hne : (bytes member.1 == bytes k) = false := beq_false_of_ne h
      rw [entries, List.map_cons, List.find?_cons, List.find?_cons, hne]
      exact ih

theorem firstNamed_flatMap {α : Type} (f : α → List (String × Option Leaf)) (l : List α)
    (k : String) : firstNamed (l.flatMap f) k = l.findSome? fun a => firstNamed (f a) k := by
  induction l with
  | nil => rfl
  | cons a l ih =>
    rw [List.flatMap_cons, firstNamed_append, ih, List.findSome?_cons]
    cases firstNamed (f a) k <;> rfl

theorem memberNamed_mem {members : List (String × Leaf)} {k : String} {leaf : Leaf}
    (h : memberNamed members k = some leaf) : ∃ key, bytes key = bytes k ∧ (key, leaf) ∈ members := by
  unfold memberNamed at h
  obtain ⟨member, hfind, rfl⟩ := Option.map_eq_some_iff.mp h
  exact ⟨member.1, by simpa using List.find?_some hfind, List.mem_of_find?_eq_some hfind⟩

/-- The shape has no member of that name. -/
def Shape.Lacks (shape : Shape) (k : String) : Prop := ∀ m ∈ shape, bytes m.1 ≠ bytes k

theorem memberNamed_of_lacks {shape : Shape} {k : String} (h : shape.Lacks k)
    (members : List (Member shape)) : memberNamed (members.map (·.1)) k = none := by
  cases hown : memberNamed (members.map (·.1)) k with
  | none => rfl
  | some leaf =>
    obtain ⟨key, hkey, hmem⟩ := memberNamed_mem hown
    obtain ⟨member, -, hmember⟩ := List.mem_map.mp hmem
    have hshape := member.2
    rw [hmember] at hshape
    exact absurd hkey (h _ hshape)

/-- A name that only two places have, both of them with values of that kind. -/
structure HeldBy (place rival : Option Place) (kind : LeafKind) (k : String) : Prop where
  key : FieldKey k
  objects : ∀ p : Place, bytes p.key ≠ bytes k
  refs : bytes "contextRefs" ≠ bytes k ∧ contextRefShape.Lacks k
  top : place = none ∨ rival = none ∨ topShape.Lacks k
  others : ∀ p : Place, place = some p ∨ rival = some p ∨ p.shape.Lacks k
  topKind : ∀ m ∈ topShape, bytes m.1 = bytes k → m.2 = kind
  kinds : ∀ p : Place, ∀ m ∈ p.shape, bytes m.1 = bytes k → m.2 = kind

def Place.all : List Place := [.task, .toolPolicy, .autonomyGrant, .budget, .timestamps]

theorem Place.mem_all (p : Place) : p ∈ Place.all := by cases p <;> decide

def Shape.lacks (shape : Shape) (k : String) : Bool := shape.all fun m => bytes m.1 != bytes k

def Shape.onlyKind (shape : Shape) (kind : LeafKind) (k : String) : Bool :=
  shape.all fun m => bytes m.1 != bytes k || m.2 == kind

theorem Shape.lacks_of_check {shape : Shape} {k : String} (h : shape.lacks k = true) :
    shape.Lacks k := fun m hm => by simpa using List.all_eq_true.mp h m hm

theorem Shape.kind_of_check {shape : Shape} {kind : LeafKind} {k : String}
    (h : shape.onlyKind kind k = true) : ∀ m ∈ shape, bytes m.1 = bytes k → m.2 = kind := by
  intro m hm hkey
  simpa [hkey] using List.all_eq_true.mp h m hm

def isHeldBy (place rival : Option Place) (kind : LeafKind) (k : String) : Bool :=
  (Place.all.all fun p => bytes p.key != bytes k &&
    (place == some p || rival == some p || p.shape.lacks k) && p.shape.onlyKind kind k) &&
  (bytes "contextRefs" != bytes k && contextRefShape.lacks k) &&
  ((place == none || rival == none || topShape.lacks k) && topShape.onlyKind kind k)

theorem HeldBy.of_check {place rival : Option Place} {kind : LeafKind} {k : String}
    (hkey : FieldKey k) (h : isHeldBy place rival kind k = true) : HeldBy place rival kind k := by
  simp only [isHeldBy, Bool.and_eq_true, Bool.or_eq_true, bne_iff_ne, beq_iff_eq,
    List.all_eq_true] at h
  obtain ⟨⟨hplaces, hrefs, hrefShape⟩, htop, htopKind⟩ := h
  exact
    { key := hkey
      objects := fun p => (hplaces p p.mem_all).1.1
      refs := ⟨hrefs, Shape.lacks_of_check hrefShape⟩
      top := (or_assoc.mp htop).imp_right (Or.imp_right Shape.lacks_of_check)
      others := fun p =>
        (or_assoc.mp (hplaces p p.mem_all).1.2).imp_right (Or.imp_right Shape.lacks_of_check)
      topKind := Shape.kind_of_check htopKind
      kinds := fun p => Shape.kind_of_check (hplaces p p.mem_all).2 }

section held

variable {place rival : Option Place} {kind : LeafKind} {k : String}

theorem HeldBy.firstNamed_member (h : HeldBy place rival kind k) (member : PackageMember) :
    firstNamed (member.document.2.flat member.document.1) k =
      ((member.own place k).or (member.own rival k)).map some := by
  cases member with
  | leaf member =>
    have hflat : firstNamed (entries [member.1]) k = (memberNamed [member.1] k).map some :=
      firstNamed_entries [member.1] k
    change firstNamed (entries [member.1]) k = _
    rw [hflat, PackageMember.own, PackageMember.own]
    by_cases hp : place = none
    · rw [if_pos hp]
      cases memberNamed [member.1] k <;> simp
    · by_cases hr : rival = none
      · rw [if_neg hp, if_pos hr, Option.none_or]
      · have hlacks := (h.top.resolve_left hp).resolve_left hr
        have hnone : memberNamed [member.1] k = none := memberNamed_of_lacks hlacks [member]
        rw [hnone]
        simp
  | object p members =>
    have hflat : firstNamed ((p.key, none) :: entries (members.map (·.1))) k =
        (memberNamed (members.map (·.1)) k).map some := by
      have hkey := h.objects p
      rw [← firstNamed_entries]
      unfold firstNamed
      rw [List.find?_cons, beq_false_of_ne hkey]
    change firstNamed ((p.key, none) :: entries (members.map (·.1))) k = _
    rw [hflat, PackageMember.own, PackageMember.own]
    by_cases hp : place = some p
    · rw [if_pos hp]
      cases memberNamed (members.map (·.1)) k <;> simp
    · by_cases hr : rival = some p
      · rw [if_neg hp, if_pos hr, Option.none_or]
      · have hlacks := ((h.others p).resolve_left hp).resolve_left hr
        rw [memberNamed_of_lacks hlacks]
        simp
  | contextRefs elements =>
    have hnone : ∀ entry ∈ PackageMember.document (.contextRefs elements) |>.2.flat "contextRefs",
        bytes entry.1 ≠ bytes k := by
      intro entry hentry
      simp only [PackageMember.document, NestedValue.flat, List.mem_cons, List.mem_flatMap,
        List.mem_map] at hentry
      rcases hentry with rfl | ⟨_, ⟨element, -, rfl⟩, member, hmember, rfl⟩
      · exact h.refs.1
      · have hshape : (member.1, member.2.kind) ∈ contextRefShape := by
          rcases hmember with hfirst | hmember
          · rw [hfirst]
            exact element.1.2
          · obtain ⟨m, -, rfl⟩ := List.mem_map.mp hmember
            exact m.2
        exact h.refs.2 _ hshape
    have hfind : firstNamed ((PackageMember.document (.contextRefs elements)).2.flat "contextRefs") k
        = none := by
      unfold firstNamed
      rw [List.find?_eq_none.mpr fun entry hentry => by simpa using hnone entry hentry]
      rfl
    exact hfind

/-- **The first member of a name**: the one in its own place, unless one of the rival's stands in
front. -/
theorem HeldBy.firstNamed_package (h : HeldBy place rival kind k) (package : Package) :
    firstNamed (Document.flat (package.map PackageMember.document)) k =
      (package.first place rival k).map some := by
  have hmembers : ∀ package : Package,
      package.findSome? (fun member => firstNamed (member.document.2.flat member.document.1) k) =
        (package.findSome? fun member => (member.own place k).or (member.own rival k)).map some := by
    intro package
    induction package with
    | nil => rfl
    | cons member package ih =>
      rw [List.findSome?_cons, List.findSome?_cons, ih, h.firstNamed_member]
      cases (member.own place k).or (member.own rival k) <;> rfl
  rw [Document.flat, List.flatMap_map, firstNamed_flatMap, hmembers, findSome?_or]
  rfl

theorem HeldBy.own_kind (h : HeldBy place rival kind k) {package : Package} {p : Option Place}
    {leaf : Leaf} (hown : package.own p k = some leaf) : leaf.kind = kind := by
  obtain ⟨member, -, hmember⟩ := List.exists_of_findSome?_eq_some hown
  cases member with
  | leaf member =>
    rw [PackageMember.own] at hmember
    split at hmember
    · obtain ⟨key, hkey, hmem⟩ := memberNamed_mem hmember
      have hshape := member.2
      rw [← List.mem_singleton.mp hmem] at hshape
      exact h.topKind _ hshape hkey
    · cases hmember
  | object p' members =>
    rw [PackageMember.own] at hmember
    split at hmember
    · obtain ⟨key, hkey, hmem⟩ := memberNamed_mem hmember
      obtain ⟨m, -, hm⟩ := List.mem_map.mp hmem
      have hshape := m.2
      rw [hm] at hshape
      exact h.kinds p' _ hshape hkey
    · cases hmember
  | contextRefs elements => cases hmember

theorem shadow_own {package : Package} {leaf : Leaf}
    (hshadow : package.shadow place rival k = some leaf) :
    ∃ front, front <+: package ∧ Package.own front rival k = some leaf :=
  ⟨_, List.takeWhile_prefix _, hshadow⟩

/-- The names of the documented shape are plain words. -/
theorem plain_flat (package : Package) :
    ∀ entry ∈ Document.flat (package.map PackageMember.document), Plain (bytes entry.1) := by
  have htop : ∀ m ∈ topShape, Plain (bytes m.1) := by decide +kernel
  have hrefs : ∀ m ∈ contextRefShape, Plain (bytes m.1) := by decide +kernel
  have hshapes : ∀ p : Place, ∀ m ∈ p.shape, Plain (bytes m.1) := by
    intro p
    cases p <;> decide +kernel
  have hkeys : ∀ p : Place, Plain (bytes p.key) := by
    intro p
    cases p <;> decide +kernel
  intro entry hentry
  obtain ⟨_, hmem, hentry⟩ := List.mem_flatMap.mp hentry
  obtain ⟨member, -, rfl⟩ := List.mem_map.mp hmem
  cases member with
  | leaf member =>
    have heq : entry = (member.1.1, some member.1.2) := by
      simpa [PackageMember.document, NestedValue.flat] using hentry
    rw [heq]
    exact htop _ member.2
  | object p members =>
    simp only [PackageMember.document, NestedValue.flat, List.mem_cons, List.mem_map] at hentry
    rcases hentry with rfl | ⟨_, ⟨m, -, rfl⟩, rfl⟩
    · exact hkeys p
    · exact hshapes p _ m.2
  | contextRefs elements =>
    simp only [PackageMember.document, NestedValue.flat, List.mem_cons, List.mem_flatMap,
      List.mem_map] at hentry
    rcases hentry with rfl | ⟨_, ⟨element, -, rfl⟩, member, hmember, rfl⟩
    · exact (by decide +kernel : Plain (bytes "contextRefs"))
    · have hshape : (member.1, member.2.kind) ∈ contextRefShape := by
        rcases hmember with hfirst | hmember
        · rw [hfirst]
          exact element.1.2
        · obtain ⟨m, -, rfl⟩ := List.mem_map.mp hmember
          exact m.2
      exact hrefs _ hshape

end held

/-! ## Reading a package -/

section read

variable {place rival : Option Place} {k : String} {layout : Spacing}

theorem HeldBy.first_kind {kind : LeafKind} (h : HeldBy place rival kind k) {package : Package}
    {leaf : Leaf} (hfirst : package.first place rival k = some leaf) : leaf.kind = kind := by
  rcases Option.or_eq_some_iff.mp hfirst with hshadow | ⟨-, hown⟩
  · obtain ⟨front, -, hown⟩ := shadow_own hshadow
    exact h.own_kind hown
  · exact h.own_kind hown

theorem readText_package (h : HeldBy place rival .text k) (package : Package) {size : Nat}
    (hsize : 0 < size) (fallback : Bytes) :
    (wtJsonReadString (package.line layout) k size).orElse fallback =
      match package.first place rival k with
      | some leaf => keptText size fallback leaf.asText
      | none => fallback := by
  have hplain := plain_flat package
  have hnamed := h.firstNamed_package package
  rw [StringField.orElse_eq]
  cases hfirst : package.first place rival k with
  | none =>
    rw [hfirst] at hnamed
    rw [Package.line, readString_absent hplain h.key hnamed]
    rfl
  | some leaf =>
    rw [hfirst] at hnamed
    have hkind := h.first_kind hfirst
    cases leaf with
    | text value =>
      rw [Package.line, readText_document hplain h.key hnamed hsize]
      by_cases hlt : (unescape value.text).length < size
      · simp only [keptText, Leaf.asText, hlt, ↓reduceIte, Option.getD_some]
      · simp only [keptText, Leaf.asText, hlt, ↓reduceIte, Option.getD_none]
    | number _ => cases hkind
    | fractional _ _ => cases hkind
    | flag _ => cases hkind
    | texts _ => cases hkind

theorem readNumber_package (h : HeldBy place rival .number k) (package : Package) :
    wtJsonReadLong (package.line layout) k =
      (package.first place rival k).map fun leaf => clamp64 leaf.asNumber := by
  have hplain := plain_flat package
  have hnamed := h.firstNamed_package package
  cases hfirst : package.first place rival k with
  | none =>
    rw [hfirst] at hnamed
    exact readLong_absent hplain h.key hnamed
  | some leaf =>
    rw [hfirst] at hnamed
    have hkind := h.first_kind hfirst
    cases leaf with
    | number n => exact readNumber_document hplain h.key hnamed
    | text _ => cases hkind
    | fractional _ _ => cases hkind
    | flag _ => cases hkind
    | texts _ => cases hkind

/-- A text is read from its own place exactly where it is in place. -/
theorem readText_iff (layout : Spacing) (h : HeldBy place rival .text k) (package : Package)
    {size : Nat} {fallback : Bytes} (hfallback : fallback.length < size) :
    (wtJsonReadString (package.line layout) k size).orElse fallback =
        package.ownText place k fallback ↔
      package.TextInPlace place rival k size fallback := by
  rw [readText_package h package (by omega)]
  unfold Package.TextInPlace
  cases hshadow : package.shadow place rival k with
  | some leaf => rw [Package.first, hshadow, Option.some_or]
  | none =>
    rw [Package.first, hshadow, Option.none_or]
    unfold Package.ownText keptText
    cases package.own place k with
    | none => simpa using hfallback
    | some leaf =>
      dsimp only [Option.map_some, Option.getD_some]
      split
      · simpa
      · rename_i hlong
        simp only [hlong, iff_false]
        intro heq
        rw [← heq] at hlong
        exact hlong hfallback

/-- A number is read from its own place exactly where it is in place. -/
theorem readNumber_iff (layout : Spacing) (h : HeldBy place rival .number k) (package : Package)
    (fallback : Int) :
    (wtJsonReadLong (package.line layout) k).getD fallback =
        package.ownNumber place k fallback ↔
      package.NumberInPlace place rival k fallback := by
  rw [readNumber_package h package]
  unfold Package.NumberInPlace
  cases hshadow : package.shadow place rival k with
  | some leaf => rw [Package.first, hshadow, Option.some_or, Option.map_some, Option.getD_some]
  | none =>
    rw [Package.first, hshadow, Option.none_or]
    unfold Package.ownNumber
    cases package.own place k with
    | none => simp
    | some leaf =>
      simp only [Option.map_some, Option.getD_some, Option.mem_def, Option.some.injEq,
        forall_eq']
      unfold clamp64
      omega

end read

/-! ## The fields -/

/-- The fields that are compared, with their places and the places of their rivals. -/
def comparedFields : List (Option Place × Option Place × LeafKind × String) :=
  [ (some .autonomyGrant, some .toolPolicy, .text, "network"),
    (none, some .task, .text, "title"),
    (some .budget, some .autonomyGrant, .number, "maxTokens"),
    (some .autonomyGrant, some .autonomyGrant, .text, "scope"),
    (some .toolPolicy, some .toolPolicy, .text, "profile"),
    (some .autonomyGrant, some .autonomyGrant, .number, "ttlSeconds"),
    (some .budget, some .budget, .number, "timeoutSeconds") ]

theorem heldBy_compared : ∀ field ∈ comparedFields,
    HeldBy field.1 field.2.1 field.2.2.1 field.2.2.2 := by
  have hchecks : ∀ field ∈ comparedFields, isFieldKey field.2.2.2 = true ∧
      isHeldBy field.1 field.2.1 field.2.2.1 field.2.2.2 = true := by
    decide +kernel
  intro field hfield
  obtain ⟨hkey, hheld⟩ := hchecks field hfield
  exact .of_check (.of_check hkey) hheld

theorem held_network : HeldBy (some .autonomyGrant) (some .toolPolicy) .text "network" :=
  heldBy_compared (_, _, _, _) (by simp [comparedFields])

theorem held_title : HeldBy none (some .task) .text "title" :=
  heldBy_compared (_, _, _, _) (by simp [comparedFields])

theorem held_maxTokens : HeldBy (some .budget) (some .autonomyGrant) .number "maxTokens" :=
  heldBy_compared (_, _, _, _) (by simp [comparedFields])

theorem held_scope : HeldBy (some .autonomyGrant) (some .autonomyGrant) .text "scope" :=
  heldBy_compared (_, _, _, _) (by simp [comparedFields])

theorem held_profile : HeldBy (some .toolPolicy) (some .toolPolicy) .text "profile" :=
  heldBy_compared (_, _, _, _) (by simp [comparedFields])

theorem held_ttlSeconds : HeldBy (some .autonomyGrant) (some .autonomyGrant) .number "ttlSeconds" :=
  heldBy_compared (_, _, _, _) (by simp [comparedFields])

theorem held_timeoutSeconds : HeldBy (some .budget) (some .budget) .number "timeoutSeconds" :=
  heldBy_compared (_, _, _, _) (by simp [comparedFields])

/-- No place shadows itself. -/
theorem shadow_self (package : Package) (place : Option Place) (k : String) :
    package.shadow place place k = none := by
  unfold Package.shadow
  rw [List.findSome?_eq_none_iff]
  intro member hmember
  have hnone := List.mem_takeWhile_imp hmember
  simpa using hnone

theorem textInPlace_self (package : Package) (place : Option Place) (k : String) (size : Nat)
    (fallback : Bytes) : package.TextInPlace place place k size fallback ↔
      (package.ownText place k fallback).length < size := by
  rw [Package.TextInPlace, shadow_self]

theorem toInt32_clamp_iff (n : Int) :
    toInt32 (clamp64 n) = n ↔ -2 ^ 31 ≤ n ∧ n < 2 ^ 31 := by
  constructor
  · intro h
    rw [← h]
    exact toInt32_range _
  · intro h
    rw [clamp64_of_range (by omega), toInt32_of_range h]

/-- A number without a rival that is kept in 32 bits. -/
theorem readInt_iff {place : Option Place} {k : String} (layout : Spacing)
    (h : HeldBy place place .number k) (package : Package) (fallback : Int) :
    ((wtJsonReadLong (package.line layout) k).map toInt32).getD fallback =
        package.ownNumber place k fallback ↔
      ∀ leaf ∈ package.own place k, -2 ^ 31 ≤ leaf.asNumber ∧ leaf.asNumber < 2 ^ 31 := by
  rw [readNumber_package h package, Package.first, shadow_self, Option.none_or]
  unfold Package.ownNumber
  cases package.own place k with
  | none => simp
  | some leaf =>
    simp only [Option.map_some, Option.getD_some, Option.mem_def, Option.some.injEq, forall_eq']
    exact toInt32_clamp_iff _

/-- A number of 32 bits is the same in the row. -/
theorem readLong_of_int {place : Option Place} {k : String} {layout : Spacing}
    (h : HeldBy place place .number k) (package : Package) (fallback : Int)
    (hrange : ∀ leaf ∈ package.own place k, -2 ^ 31 ≤ leaf.asNumber ∧ leaf.asNumber < 2 ^ 31) :
    (wtJsonReadLong (package.line layout) k).getD fallback =
      package.ownNumber place k fallback := by
  rw [readNumber_iff layout h, Package.NumberInPlace, shadow_self]
  intro leaf hleaf
  have := hrange leaf hleaf
  omega

/-- **Package fields are read from their own places exactly where the package is in place**:
`network`, `maxTokens` and `title` are not shadowed by another value, and the values fit. -/
theorem readFromOwnPlaces_iff (layout : Spacing) (package : Package) (taskId : Bytes)
    (task : WtTaskSummary) :
    package.ReadFromOwnPlaces task (populateTaskPackageFields (package.line layout) task)
        (packageRow (package.line layout) taskId) ↔ package.InPlace := by
  have hnone : (bytes "none").length < wtTaskPolicySize := by decide
  have huntitled : (bytes "Untitled task").length < wtTaskTitleSize := by decide
  have hempty : ([] : Bytes).length < wtTaskBodySize := by decide
  have hobserve : (bytes "observe").length < wtTaskPolicySize := by decide
  have hnetwork := readText_iff layout held_network package hnone
  have htitle := readText_iff layout held_title package huntitled
  have hmaxTokens := readNumber_iff layout held_maxTokens package 0
  have hscope := (readText_iff layout held_scope package hempty).trans (textInPlace_self ..)
  have hprofile := (readText_iff layout held_profile package hobserve).trans (textInPlace_self ..)
  have httl := readInt_iff layout held_ttlSeconds package task.autonomyTtlSeconds
  have htimeout := readInt_iff layout held_timeoutSeconds package task.timeoutSeconds
  constructor
  · intro h
    exact ⟨hnetwork.mp h.network.1, htitle.mp h.title.1, hmaxTokens.mp h.maxTokens,
      hscope.mp h.scope.1, hprofile.mp h.profile.1, httl.mp h.ttlSeconds.1,
      htimeout.mp h.timeoutSeconds⟩
  · intro h
    exact
      { network := ⟨hnetwork.mpr h.network, hnetwork.mpr h.network⟩
        title := ⟨htitle.mpr h.title, htitle.mpr h.title⟩
        maxTokens := hmaxTokens.mpr h.maxTokens
        scope := ⟨hscope.mpr h.scope, hscope.mpr h.scope⟩
        profile := ⟨hprofile.mpr h.profile, hprofile.mpr h.profile⟩
        ttlSeconds := ⟨httl.mpr h.ttlSeconds,
          readLong_of_int held_ttlSeconds package 0 h.ttlSeconds⟩
        timeoutSeconds := htimeout.mpr h.timeoutSeconds }

/-! ## A package with its objects the other way round -/

/-- A constant member. -/
def Member.of (shape : Shape) (key : String) (leaf : Leaf)
    (h : decide ((key, leaf.kind) ∈ shape) = true := by exact Eq.refl true) : Member shape :=
  ⟨(key, leaf), of_decide_eq_true h⟩

/-- What `cmd_create` posts for an autonomous task with the tool profile `test_local`. -/
def testLocalPackage : Package :=
  [ .leaf (.of topShape "schema" (.text (.ofPlain "woventeam.task_package.v0.1"))),
    .leaf (.of topShape "taskId" (.text (.ofPlain "task_demo_1"))),
    .leaf (.of topShape "initiativeId" (.text (.ofPlain "init_demo_1"))),
    .leaf (.of topShape "createdBy" (.text (.ofPlain "ceo"))),
    .leaf (.of topShape "assignedRole" (.text (.ofPlain "engineer"))),
    .leaf (.of topShape "assignedAgent" (.text (.ofPlain "codex"))),
    .leaf (.of topShape "modelId" (.text (.ofPlain "openai/gpt-5"))),
    .leaf (.of topShape "priority" (.text (.ofPlain "normal"))),
    .leaf (.of topShape "status" (.text (.ofPlain "queued"))),
    .leaf (.of topShape "title" (.text (.ofPlain "Run the tests"))),
    .leaf (.of topShape "body" (.text (.ofPlain "Run the tests."))),
    .object .task
      [ .of _ "title" (.text (.ofPlain "Run the tests")),
        .of _ "body" (.text (.ofPlain "Run the tests.")),
        .of _ "deliverables" (.texts []) ],
    .contextRefs [],
    .leaf (.of topShape "acceptanceCriteria"
      (.texts [.ofPlain "Task result is recorded in the room and task ledger."])),
    .object .toolPolicy
      [ .of _ "profile" (.text (.ofPlain "test_local")),
        .of _ "filesystem" (.text (.ofPlain "workspace_write")),
        .of _ "network" (.text (.ofPlain "loopback")),
        .of _ "system" (.text (.ofPlain "none")),
        .of _ "git" (.text (.ofPlain "branch_only")) ],
    .object .budget
      [ .of _ "timeoutSeconds" (.number 1800),
        .of _ "maxOutputBytes" (.number 1048576),
        .of _ "maxCostUsd" (.fractional 1 0),
        .of _ "maxTokens" (.number 2000000) ],
    .leaf (.of topShape "dependencies" (.texts [])),
    .leaf (.of topShape "createdAtUnixMs" (.number 1000)),
    .leaf (.of topShape "autonomyLevel" (.text (.ofPlain "autonomous"))),
    .object .autonomyGrant
      [ .of _ "scope" (.text (.ofPlain "workspace")),
        .of _ "ttlSeconds" (.number 3600),
        .of _ "maxWallClockSeconds" (.number 1800),
        .of _ "maxCostUsd" (.fractional 1 0),
        .of _ "maxTokens" (.number 2000000),
        .of _ "network" (.text (.ofPlain "none")),
        .of _ "credentialClass" (.text (.ofPlain "none")),
        .of _ "requiresCleanWorktree" (.flag true) ] ]

/-- The grant says `none`, and the summary says `loopback`. -/
theorem not_readFromOwnPlaces : ¬ ∀ (layout : Spacing) (package : Package) (taskId : Bytes)
    (task : WtTaskSummary),
    package.ReadFromOwnPlaces task (populateTaskPackageFields (package.line layout) task)
      (packageRow (package.line layout) taskId) := by
  intro h
  have hnetwork := (h {} testLocalPackage (bytes "task_demo_1") {}).network.1
  exact absurd hnetwork (by decide +kernel)

end WovenTeam

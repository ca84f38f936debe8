import WovenTeam.Lib.UnixPath

/-!
# Parent directories

`wtRoomEnsureParentDirs` makes the directories a file stands in, the shortest first, by putting
the components of its path together again. It puts a slash in front of a component where what it
has so far is longer than one byte: the root needs none, but a first component of one byte would.
`ensures_parent_iff`: for which paths the directories it makes are those of the path.
-/

namespace WovenTeam

open CText UnixPath

/-! ## Making directories -/

inductive EntryKind
  | directory
  | other
  deriving DecidableEq, Repr

/-- What stands at each name, if anything does. -/
abbrev Entries := Bytes → Option EntryKind

inductive MkdirResult
  | made
  | exists
  | failed
  deriving DecidableEq, Repr

/-- `mkdir` makes a directory where nothing stands, unless the system refuses it. -/
def mkdir (refuses : Entries → Bytes → Bool) (disk : Entries) (path : Bytes) :
    MkdirResult × Entries :=
  if (disk path).isSome then (.exists, disk)
  else if refuses disk path then (.failed, disk)
  else (.made, Function.update disk path (some .directory))

/-- Nothing is taken away, and what is new is a directory. -/
def Grown (disk disk' : Entries) : Prop :=
  ∀ name, disk' name = disk name ∨ disk name = none ∧ disk' name = some .directory

theorem Grown.refl (disk : Entries) : Grown disk disk := fun _ => .inl rfl

theorem Grown.trans {disk disk' disk'' : Entries} (h : Grown disk disk')
    (h' : Grown disk' disk'') : Grown disk disk'' := by
  intro name
  rcases h' name with hsame | ⟨hnone, hnew⟩
  · rw [hsame]
    exact h name
  · rcases h name with hsame | ⟨_, hmade⟩
    · exact .inr ⟨hsame ▸ hnone, hnew⟩
    · rw [hnone] at hmade
      cases hmade

theorem Grown.stands {disk disk' : Entries} (h : Grown disk disk') {name : Bytes}
    (hstands : (disk' name).isSome) : disk' name = some ((disk name).getD .directory) := by
  rcases h name with hsame | ⟨hnone, hnew⟩
  · obtain ⟨kind, hkind⟩ := Option.isSome_iff_exists.mp hstands
    rw [← hsame, hkind, Option.getD_some]
  · rw [hnone, hnew, Option.getD_none]

theorem Grown.keeps {disk disk' : Entries} (h : Grown disk disk') {name : Bytes}
    (hstands : (disk name).isSome) : (disk' name).isSome := by
  rcases h name with hsame | ⟨_, hnew⟩
  · rwa [hsame]
  · rw [hnew]
    rfl

theorem mkdir_grown (refuses : Entries → Bytes → Bool) (disk : Entries) (path : Bytes) :
    Grown disk (mkdir refuses disk path).2 := by
  unfold mkdir
  split
  · exact .refl disk
  · split
    · exact .refl disk
    · rename_i hnone _
      intro name
      by_cases hname : name = path
      · subst hname
        exact .inr ⟨by simpa using hnone, Function.update_self ..⟩
      · exact .inl (Function.update_of_ne hname ..)

/-- A call that does not fail leaves something at the name. -/
theorem mkdir_stands {refuses : Entries → Bytes → Bool} {disk : Entries} {path : Bytes}
    (h : (mkdir refuses disk path).1 ≠ .failed) : ((mkdir refuses disk path).2 path).isSome := by
  unfold mkdir at *
  by_cases hsome : (disk path).isSome
  · rwa [if_pos hsome]
  · rw [if_neg hsome] at *
    by_cases hrefused : refuses disk path
    · rw [if_pos hrefused] at h
      exact absurd rfl h
    · rw [if_neg hrefused]
      dsimp only
      rw [Function.update_self]
      rfl

/-! ## The loop -/

/-- `strncat` with the room that is left in a buffer of `size` bytes. -/
def strncat (size : Nat) (text more : Bytes) : Bytes := text ++ more.take (size - text.length - 1)

theorem strncat_fits {size : Nat} {text more : Bytes} (h : text.length + more.length < size) :
    strncat size text more = text ++ more := by
  rw [strncat, List.take_of_length_le (by omega)]

/-- What a call returns, what the names stand for then, and the names passed to `mkdir`. -/
structure Made where
  result : Int
  disk : Entries
  passed : List Bytes

/-- The name the next component makes. -/
def nextName (built token : Bytes) : Bytes :=
  strncat 512 (if built.length > 1 then strncat 512 built [separator] else built) token

/-- The loop over the components from where `built` has got to. -/
def makeDirs (refuses : Entries → Bytes → Bool) : Entries → Bytes → List Bytes → Made
  | disk, _, [] => ⟨0, disk, []⟩
  | disk, built, token :: tokens =>
    let name := nextName built token
    let (result, disk) := mkdir refuses disk name
    if result = .failed then ⟨-1, disk, [name]⟩
    else
      let rest := makeDirs refuses disk name tokens
      { rest with passed := name :: rest.passed }

/-- The text in front of the last slash, if there is one. -/
def frontOfSlash (path : Bytes) : Option Bytes :=
  if separator ∈ path then some (path.rdropWhile (· != separator)).dropLast else none

def wtRoomEnsureParentDirs (refuses : Entries → Bytes → Bool) (disk : Entries) (path : Bytes) :
    Made :=
  match frontOfSlash (snprintf 512 path) with
  | none => ⟨0, disk, []⟩
  | some copy =>
    if copy = [] then ⟨0, disk, []⟩
    else if copy.head? = some separator then
      makeDirs refuses disk [separator] (strtok separator copy.tail)
    else makeDirs refuses disk [] (strtok separator copy)

/-! ## Ancestors -/

/-- The components in front of the last slash. -/
def dirComponents (path : Bytes) : List Bytes :=
  (path.splitOn separator).dropLast.filter (· != [])

/-- The names of the directories on the way down the components. -/
def namesBelow (lead : Bytes) (components : List Bytes) : List Bytes :=
  components.inits.tail.map fun front => lead ++ [separator].intercalate front

/-- What the names of a path begin with. -/
def rootOf (path : Bytes) : Bytes := if path.head? = some separator then [separator] else []

/-- The names of the directories a file stands in, the shortest first. -/
def ancestors (path : Bytes) : List Bytes := namesBelow (rootOf path) (dirComponents path)

theorem namesBelow_nil (lead : Bytes) : namesBelow lead [] = [] := rfl

theorem namesBelow_cons (lead token : Bytes) (tokens : List Bytes) :
    namesBelow lead (token :: tokens) =
      (lead ++ token) :: namesBelow (lead ++ token ++ [separator]) tokens := by
  cases tokens with
  | nil => simp [namesBelow, List.intercalate]
  | cons next tokens => simp [namesBelow, List.intercalate]

/-! ## What the loop makes -/

section loop

variable (refuses : Entries → Bytes → Bool)

/-- The room the components still need, each with a slash. -/
def roomFor (tokens : List Bytes) : Nat := (tokens.map fun token => token.length + 1).sum

theorem makeDirs_failed {disk : Entries} {built token : Bytes} {tokens : List Bytes}
    (h : (mkdir refuses disk (nextName built token)).1 = .failed) :
    makeDirs refuses disk built (token :: tokens) =
      ⟨-1, (mkdir refuses disk (nextName built token)).2, [nextName built token]⟩ :=
  if_pos h

theorem makeDirs_made {disk : Entries} {built token : Bytes} {tokens : List Bytes}
    (h : (mkdir refuses disk (nextName built token)).1 ≠ .failed) :
    makeDirs refuses disk built (token :: tokens) =
      { makeDirs refuses (mkdir refuses disk (nextName built token)).2 (nextName built token)
          tokens with
        passed := nextName built token :: (makeDirs refuses
          (mkdir refuses disk (nextName built token)).2 (nextName built token) tokens).passed } :=
  if_neg h

/-- A loop that gets through made or found its first directory. -/
theorem made_of_through {disk : Entries} {built token : Bytes} {tokens : List Bytes}
    (h : (makeDirs refuses disk built (token :: tokens)).result = 0) :
    (mkdir refuses disk (nextName built token)).1 ≠ .failed := by
  intro hfailed
  rw [makeDirs_failed refuses hfailed] at h
  cases h

theorem makeDirs_through {disk : Entries} {built token : Bytes} {tokens : List Bytes}
    (h : (makeDirs refuses disk built (token :: tokens)).result = 0) :
    makeDirs refuses disk built (token :: tokens) =
      { makeDirs refuses (mkdir refuses disk (nextName built token)).2 (nextName built token)
          tokens with
        passed := nextName built token :: (makeDirs refuses
          (mkdir refuses disk (nextName built token)).2 (nextName built token) tokens).passed } :=
  makeDirs_made refuses (made_of_through refuses h)

theorem makeDirs_grown (disk : Entries) (built : Bytes) (tokens : List Bytes) :
    Grown disk (makeDirs refuses disk built tokens).disk := by
  induction tokens generalizing disk built with
  | nil => exact .refl disk
  | cons token tokens ih =>
    have hfirst := mkdir_grown refuses disk (nextName built token)
    by_cases h : (mkdir refuses disk (nextName built token)).1 = .failed
    · rwa [makeDirs_failed refuses h]
    · rw [makeDirs_made refuses h]
      exact hfirst.trans (ih _ _)

/-- Where the loop gets through, something stands at every name it passed. -/
theorem makeDirs_stands {disk : Entries} {built : Bytes} {tokens : List Bytes}
    (h : (makeDirs refuses disk built tokens).result = 0) :
    ∀ name ∈ (makeDirs refuses disk built tokens).passed,
      ((makeDirs refuses disk built tokens).disk name).isSome := by
  induction tokens generalizing disk built with
  | nil => simp [makeDirs]
  | cons token tokens ih =>
    have hmade := made_of_through refuses h
    rw [makeDirs_made refuses hmade] at *
    intro name hname
    rcases List.mem_cons.mp hname with rfl | hname
    · exact (makeDirs_grown refuses _ _ _).keeps (mkdir_stands hmade)
    · exact ih h name hname

/-- A system that refuses nothing lets the loop through. -/
theorem makeDirs_unrefused (disk : Entries) (built : Bytes) (tokens : List Bytes) :
    (makeDirs (fun _ _ => false) disk built tokens).result = 0 := by
  induction tokens generalizing disk built with
  | nil => rfl
  | cons token tokens ih =>
    have hmade : (mkdir (fun _ _ => false) disk (nextName built token)).1 ≠ .failed := by
      unfold mkdir
      split <;> simp
    rw [makeDirs_made _ hmade]
    exact ih ..

/-- From two bytes on, every component is led by a slash. -/
theorem makeDirs_passed {disk : Entries} {built : Bytes} {tokens : List Bytes}
    (hbuilt : built.length > 1) (hroom : built.length + roomFor tokens < 512)
    (h : (makeDirs refuses disk built tokens).result = 0) :
    (makeDirs refuses disk built tokens).passed = namesBelow (built ++ [separator]) tokens := by
  induction tokens generalizing disk built with
  | nil => rfl
  | cons token tokens ih =>
    rw [roomFor, List.map_cons, List.sum_cons, ← roomFor] at hroom
    have hname : nextName built token = built ++ [separator] ++ token := by
      have hled : strncat 512 built [separator] = built ++ [separator] :=
        strncat_fits (by simp; omega)
      rw [nextName, if_pos hbuilt, hled, strncat_fits (by simp; omega)]
    have hmade := makeDirs_through refuses h
    rw [hmade] at h ⊢
    rw [hname] at h ⊢
    rw [namesBelow_cons]
    dsimp only at h ⊢
    rw [ih (by simp; omega) (by simp; omega) h]

theorem nextName_first {lead token : Bytes} (hlead : lead.length ≤ 1)
    (hroom : lead.length + token.length < 512) : nextName lead token = lead ++ token := by
  rw [nextName, if_neg (by omega), strncat_fits hroom]

/-- The names are those on the way down where the first has two bytes or is the only one. -/
theorem makeDirs_names {disk : Entries} {lead : Bytes} {tokens : List Bytes}
    (hlead : lead.length ≤ 1) (hroom : lead.length + roomFor tokens < 512)
    (hfirst : ∀ token ∈ tokens.head?, (lead ++ token).length > 1 ∨ tokens.length ≤ 1)
    (h : (makeDirs refuses disk lead tokens).result = 0) :
    (makeDirs refuses disk lead tokens).passed = namesBelow lead tokens := by
  rcases tokens with _ | ⟨token, tokens⟩
  · rfl
  · rw [roomFor, List.map_cons, List.sum_cons, ← roomFor] at hroom
    have hname : nextName lead token = lead ++ token := nextName_first hlead (by omega)
    have hmade := makeDirs_through refuses h
    rw [hmade] at h ⊢
    rw [hname] at h ⊢
    rw [namesBelow_cons]
    dsimp only at h ⊢
    congr 1
    rcases hfirst token rfl with hlong | hone
    · refine makeDirs_passed refuses hlong ?_ h
      simp
      omega
    · obtain rfl : tokens = [] := by simpa using hone
      rfl

/-- A second component is put right behind a first one of one byte. -/
theorem makeDirs_glued {disk : Entries} {first second : Bytes} {tokens : List Bytes}
    (hfirst : first.length ≤ 1) (hroom : roomFor (first :: second :: tokens) < 512)
    (h : (makeDirs refuses disk [] (first :: second :: tokens)).result = 0) :
    ∃ rest, (makeDirs refuses disk [] (first :: second :: tokens)).passed =
      first :: (first ++ second) :: rest := by
  simp only [roomFor, List.map_cons, List.sum_cons] at hroom
  have hname : nextName [] first = first := nextName_first (by simp) (by simp; omega)
  have hname' : nextName first second = first ++ second := nextName_first hfirst (by omega)
  have hmade := makeDirs_through refuses h
  rw [hmade] at h ⊢
  rw [hname] at h ⊢
  dsimp only at h ⊢
  rw [makeDirs_through refuses h, hname']
  exact ⟨_, rfl⟩

end loop

/-! ## The components of a path -/

theorem frontOfSlash_split {front last : Bytes} (h : separator ∉ last) :
    frontOfSlash (front ++ separator :: last) = some front := by
  have hbehind : ∀ b ∈ last.reverse, (b != separator) = true := by
    intro b hb
    rw [bne_iff_ne]
    rintro rfl
    exact h (List.mem_reverse.mp hb)
  have hlast : (front ++ separator :: last).rdropWhile (· != separator) =
      front ++ [separator] := by
    rw [List.rdropWhile, List.reverse_append, List.reverse_cons, List.append_assoc,
      List.dropWhile_append_of_pos hbehind, List.singleton_append,
      List.dropWhile_cons_of_neg (by simp), List.reverse_cons, List.reverse_reverse]
  rw [frontOfSlash, if_pos (by simp), hlast, List.dropLast_concat]

theorem dirComponents_split {front last : Bytes} (h : separator ∉ last) :
    dirComponents (front ++ separator :: last) = strtok separator front := by
  rw [dirComponents, List.splitOn_append_cons_self, splitOn_of_notMem h, List.dropLast_concat,
    strtok]

theorem dirComponents_of_notMem {path : Bytes} (h : separator ∉ path) : dirComponents path = [] := by
  rw [dirComponents, splitOn_of_notMem h]
  rfl

/-- A path with a slash is what stands before its last slash and behind it. -/
theorem exists_split {path : Bytes} (h : separator ∈ path) :
    ∃ front last, path = front ++ separator :: last ∧ separator ∉ last := by
  obtain ⟨last, front, hpath, hlast⟩ := List.eq_append_cons_of_mem (List.mem_reverse.mpr h)
  refine ⟨front.reverse, last.reverse, ?_, by simpa using hlast⟩
  rw [← List.reverse_reverse path, hpath]
  simp

theorem roomFor_splitOn (text : Bytes) : roomFor (text.splitOn separator) = text.length + 1 := by
  induction text with
  | nil => rfl
  | cons b text ih =>
    obtain ⟨token, tokens, h⟩ :=
      List.exists_cons_of_ne_nil (List.splitOnP_ne_nil (· == separator) text)
    rw [List.splitOn, h] at ih
    rw [List.splitOn, List.splitOnP_cons_eq_if_modifyHead, h]
    split <;> simp [roomFor] at ih ⊢ <;> omega

theorem roomFor_filter (keep : Bytes → Bool) (tokens : List Bytes) :
    roomFor (tokens.filter keep) ≤ roomFor tokens := by
  induction tokens with
  | nil => rfl
  | cons token tokens ih =>
    rw [List.filter_cons]
    split <;> simp [roomFor] at * <;> omega

theorem roomFor_strtok (text : Bytes) : roomFor (strtok separator text) ≤ text.length + 1 :=
  (roomFor_filter _ _).trans_eq (roomFor_splitOn text)

theorem ne_nil_of_mem_dirComponents {path token : Bytes} (h : token ∈ dirComponents path) :
    token ≠ [] := by
  simpa using (List.mem_filter.mp h).2

/-! ## The directories of a path -/

/-- What the call does on a path that fits its copy: the loop from the root of the path. -/
theorem wtRoomEnsureParentDirs_eq (refuses : Entries → Bytes → Bool) (disk : Entries) {path : Bytes}
    (hfits : path.length < 512) :
    wtRoomEnsureParentDirs refuses disk path =
      makeDirs refuses disk (rootOf path) (dirComponents path) := by
  rw [wtRoomEnsureParentDirs, snprintf_of_lt hfits]
  by_cases hslash : separator ∈ path
  · obtain ⟨front, last, rfl, hlast⟩ := exists_split hslash
    rw [frontOfSlash_split hlast, dirComponents_split hlast]
    dsimp only
    rcases front with _ | ⟨b, front⟩
    · rfl
    · rw [if_neg (List.cons_ne_nil b front)]
      rw [rootOf, List.cons_append, List.head?_cons, List.head?_cons]
      split
      · rename_i hroot
        obtain rfl : b = separator := by simpa using hroot
        have hnil : strtok separator [] = [] := rfl
        have hskip := strtok_append [] front
        rw [hnil, List.nil_append, List.nil_append] at hskip
        rw [hskip, List.tail_cons]
      · rfl
  · have hroot : rootOf path = [] := by
      rw [rootOf, if_neg]
      exact fun h => hslash (List.mem_of_mem_head? h)
    rw [frontOfSlash, if_neg hslash, dirComponents_of_notMem hslash]
    rfl

/-- The components leave room for their slashes in the copy. -/
theorem roomFor_dirComponents {path : Bytes} (hfits : path.length < 512) :
    (rootOf path).length + roomFor (dirComponents path) < 512 := by
  by_cases hslash : separator ∈ path
  · obtain ⟨front, last, rfl, hlast⟩ := exists_split hslash
    rw [dirComponents_split hlast]
    rw [List.length_append, List.length_cons] at hfits
    rcases front with _ | ⟨b, front⟩
    · have hnil : roomFor (strtok separator []) = 0 := rfl
      rw [hnil, rootOf]
      split <;> simp
    · have hroom := roomFor_strtok (b :: front)
      rw [rootOf, List.cons_append, List.head?_cons]
      split
      · rename_i hroot
        obtain rfl : b = separator := by simpa using hroot
        have hnil : strtok separator [] = [] := rfl
        have hskip := strtok_append [] front
        rw [hnil, List.nil_append, List.nil_append] at hskip
        have hroom := roomFor_strtok front
        rw [hskip]
        simp at *
        omega
      · simp at *
        omega
  · rw [dirComponents_of_notMem hslash, rootOf]
    split <;> simp [roomFor]

theorem length_rootOf_le (path : Bytes) : (rootOf path).length ≤ 1 := by
  rw [rootOf]
  split <;> simp

/-- No slash is left out: the path starts at the root, or its first component is longer than one
byte, or the file stands in at most one directory. -/
def SlashesKept (path : Bytes) : Prop :=
  path.head? = some separator ∨ (dirComponents path).length ≤ 1 ∨
    ∀ first ∈ (dirComponents path).head?, 1 < first.length

theorem SlashesKept.first_leads {path : Bytes} (h : SlashesKept path) :
    ∀ token ∈ (dirComponents path).head?,
      (rootOf path ++ token).length > 1 ∨ (dirComponents path).length ≤ 1 := by
  intro token htoken
  rcases h with hroot | hone | hlong
  · have hne : token ≠ [] := ne_nil_of_mem_dirComponents (List.mem_of_mem_head? htoken)
    have := List.length_pos_of_ne_nil hne
    rw [rootOf, if_pos hroot, List.length_append, List.length_singleton]
    omega
  · exact .inr hone
  · have := hlong token htoken
    rw [List.length_append]
    omega

/-- With a slash left out the second name is not the file's. -/
theorem passed_ne_of_short {disk : Entries} {path first : Bytes}
    (hrel : path.head? ≠ some separator) (htwo : 1 < (dirComponents path).length)
    (hfirst : first ∈ (dirComponents path).head?) (hshort : first.length ≤ 1)
    (hfits : path.length < 512) :
    (makeDirs (fun _ _ => false) disk (rootOf path) (dirComponents path)).passed ≠
      ancestors path := by
  intro hnames
  have hroom := roomFor_dirComponents hfits
  rw [ancestors] at hnames
  rw [rootOf, if_neg hrel] at hnames hroom
  generalize dirComponents path = components at *
  rcases components with _ | ⟨token, _ | ⟨second, rest⟩⟩
  · cases hfirst
  · simp at htwo
  · obtain rfl : token = first := by simpa using hfirst
    obtain ⟨others, hglued⟩ := makeDirs_glued (fun _ _ => false) hshort
      (by simpa using hroom) (makeDirs_unrefused disk _ _)
    rw [hglued, namesBelow_cons, namesBelow_cons] at hnames
    have hsecond : token ++ second = token ++ [separator] ++ second := by
      simpa using (List.cons.inj (List.cons.inj hnames).2).1
    have := congrArg List.length hsecond
    simp at this

/-- Where the call returns 0, the names it passed to `mkdir` are those of the directories the file
stands in, and the last of them is a directory. -/
def EnsuresParent (disk : Entries) (path : Bytes) : Prop :=
  ∀ refuses : Entries → Bytes → Bool, (wtRoomEnsureParentDirs refuses disk path).result = 0 →
    (wtRoomEnsureParentDirs refuses disk path).passed = ancestors path ∧
      ∀ parent ∈ (ancestors path).getLast?,
        (wtRoomEnsureParentDirs refuses disk path).disk parent = some .directory

/-- **The directories made are the path's own where no slash is left out**, and the file has its
directory where nothing else stands at that name. -/
theorem ensures_parent_iff (disk : Entries) (path : Bytes) (hfits : path.length < 512) :
    EnsuresParent disk path ↔
      SlashesKept path ∧ ∀ parent ∈ (ancestors path).getLast?, disk parent ≠ some .other := by
  have hroom := roomFor_dirComponents hfits
  have hlead := length_rootOf_le path
  have hpassed (refuses : Entries → Bytes → Bool)
      (h : (makeDirs refuses disk (rootOf path) (dirComponents path)).result = 0)
      (hpassed : (makeDirs refuses disk (rootOf path) (dirComponents path)).passed =
        ancestors path) :
      ∀ parent ∈ (ancestors path).getLast?,
        (makeDirs refuses disk (rootOf path) (dirComponents path)).disk parent =
          some ((disk parent).getD .directory) := by
    intro parent hparent
    have hmem := List.mem_of_mem_getLast? hparent
    rw [← hpassed] at hmem
    exact (makeDirs_grown refuses disk _ _).stands (makeDirs_stands refuses h parent hmem)
  simp only [EnsuresParent, wtRoomEnsureParentDirs_eq _ _ hfits]
  constructor
  · intro hensures
    obtain ⟨hnames, hdir⟩ := hensures _ (makeDirs_unrefused disk _ _)
    constructor
    · by_contra hkept
      simp only [SlashesKept, not_or, not_le, not_forall, Nat.not_lt] at hkept
      obtain ⟨hrel, htwo, first, hfirst, hshort⟩ := hkept
      exact passed_ne_of_short hrel htwo hfirst hshort hfits hnames
    · intro parent hparent hother
      have hstands := hpassed _ (makeDirs_unrefused disk _ _) hnames parent hparent
      rw [hdir parent hparent, hother] at hstands
      cases hstands
  · rintro ⟨hkept, hfree⟩ refuses h
    have hnames : (makeDirs refuses disk (rootOf path) (dirComponents path)).passed =
        ancestors path :=
      makeDirs_names refuses hlead hroom (hkept.first_leads) h
    refine ⟨hnames, fun parent hparent => ?_⟩
    rw [hpassed refuses h hnames parent hparent]
    have := hfree parent hparent
    cases hdisk : disk parent with
    | none => rfl
    | some kind =>
      cases kind with
      | directory => rfl
      | other => exact absurd hdisk this

/-- Two components in front of the file's name, the first of two bytes. -/
theorem ensures_parent_data :
    EnsuresParent (fun _ => none) (bytes "data/logs/room.jsonl") :=
  (ensures_parent_iff (fun _ => none) (bytes "data/logs/room.jsonl") (by decide)).mpr
    ⟨.inr (.inr (by decide)), by decide⟩

/-- Of `./logs` the call makes `.` and `.logs`. -/
theorem not_ensures_parent :
    ¬ ∀ (disk : Entries) (path : Bytes), path.length < 512 → EnsuresParent disk path := by
  intro hall
  have hpassed := (hall (fun _ => none) (bytes "./logs/room.jsonl") (by decide)
    (fun _ _ => false) (by decide)).1
  revert hpassed
  decide

end WovenTeam

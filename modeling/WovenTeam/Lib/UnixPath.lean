import WovenTeam.Lib.CText

/-!
# Paths

A path is its names between slashes, read from the root or from a working directory: `.` stays,
`..` goes to the parent (the root is its own parent), any other name goes down. `under_walk_iff`
says when names end at or below the directory they start from.
-/

namespace UnixPath

open CText

def separator : UInt8 := 47

/-- The directory one name leads to. -/
def step (dir : List Bytes) (name : Bytes) : List Bytes :=
  if name = bytes "." then dir
  else if name = bytes ".." then dir.dropLast
  else dir ++ [name]

def walk (dir names : List Bytes) : List Bytes := names.foldl step dir

/-- The names of a path in a working directory, with dot names resolved. -/
def normalise (cwd : List Bytes) (path : Bytes) : List Bytes :=
  walk (if path.head? = some separator then [] else cwd) (strtok separator path)

/-- At the directory or below it. -/
def Under (dir path : List Bytes) : Prop := dir <+: path

instance decidableUnder (dir path : List Bytes) : Decidable (Under dir path) :=
  inferInstanceAs (Decidable (dir <+: path))

/-- How far names climb above their start, and the names they have come down from there. -/
structure Climb where
  up : Nat
  down : List Bytes
  deriving DecidableEq, Repr

def Climb.step (climb : Climb) (name : Bytes) : Climb :=
  if name = bytes "." then climb
  else if name = bytes ".." then
    if climb.down = [] then { climb with up := climb.up + 1 }
    else { climb with down := climb.down.dropLast }
  else { climb with down := climb.down ++ [name] }

def climb (names : List Bytes) : Climb := names.foldl Climb.step ⟨0, []⟩

/-- Names that do not leave the directory, or come back by the names they climbed out of. -/
def Returns (dir names : List Bytes) : Prop :=
  dir.drop (dir.length - (climb names).up) <+: (climb names).down

section walk

variable (dir : List Bytes) (names : List Bytes)

/-- Names climb first and come down then. -/
theorem walk_eq : walk dir names =
    dir.take (dir.length - (climb names).up) ++ (climb names).down := by
  induction names using List.reverseRecOn with
  | nil => simp [walk, climb]
  | append_singleton names name ih =>
    have hwalk : walk dir (names ++ [name]) = step (walk dir names) name := by
      simp [walk]
    have hclimb : climb (names ++ [name]) = (climb names).step name := by
      simp [climb]
    rw [hwalk, hclimb, ih, step, Climb.step]
    split
    · rfl
    · split
      · split
        · rename_i hdown
          rw [hdown, List.append_nil, List.append_nil, List.dropLast_eq_take, List.take_take,
            List.length_take]
          congr 1
          dsimp only
          omega
        · rename_i hdown
          rw [List.dropLast_append_of_ne_nil hdown]
      · rw [List.append_assoc]

/-- **Names end under their start exactly where they return to it.** -/
theorem under_walk_iff : Under dir (walk dir names) ↔ Returns dir names := by
  rw [walk_eq, Under, Returns]
  conv_lhs => lhs; rw [← List.take_append_drop (dir.length - (climb names).up) dir]
  exact List.prefix_append_right_inj _

/-- From the root names lead to what they come down to. -/
theorem walk_root : walk [] names = (climb names).down := by
  rw [walk_eq, List.take_nil, List.nil_append]

end walk

theorem strtok_append (front rest : Bytes) :
    strtok separator (front ++ separator :: rest) = strtok separator front ++ strtok separator rest := by
  rw [strtok, List.splitOn_append_cons_self, List.filter_append]
  rfl

/-- Behind a path, the names of the rest are walked from it. -/
theorem normalise_append (cwd : List Bytes) {front : Bytes} (h : front ≠ []) (rest : Bytes) :
    normalise cwd (front ++ separator :: rest) =
      walk (normalise cwd front) (strtok separator rest) := by
  obtain ⟨b, front, rfl⟩ := List.exists_cons_of_ne_nil h
  rw [normalise, normalise, strtok_append, walk, walk, walk, List.foldl_append]
  rfl

/-- An absolute path does not depend on the working directory. -/
theorem normalise_absolute (cwd : List Bytes) (rest : Bytes) :
    normalise cwd (separator :: rest) = (climb (strtok separator rest)).down := by
  have hhead : (separator :: rest).head? = some separator := rfl
  have hnames : strtok separator (separator :: rest) = strtok separator rest :=
    strtok_append [] rest
  rw [← walk_root, normalise, if_pos hhead, hnames]

end UnixPath

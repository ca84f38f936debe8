import WovenTeam.Lib.CText

/-!
# Shell text

The quoting of a POSIX shell, byte by byte: which role each byte of a command has. A command made
from a template is a list of pieces, fixed text outside quotes and values in single or double
quotes. `roles_render_iff` says when every byte of it has the role its template gives it: the
values are safe in their quotes.
-/

namespace ShellText

open CText

def apostrophe : UInt8 := 39
def dollar : UInt8 := 36
def backquote : UInt8 := 96

/-- What a byte is to the shell: part of its syntax or of an unquoted word, a byte of an argument
that stands for itself, a quoting byte, or the begin of an expansion inside quotes. -/
inductive Role where
  | active
  | literal
  | quoting
  | expansion
  deriving DecidableEq, Repr

/-- Where the shell is between two bytes. -/
inductive Quoting where
  | unquoted
  | escaped
  | single
  | double
  | doubleEscaped
  deriving DecidableEq, Repr

/-- The bytes in front of which a backslash inside double quotes is an escape. -/
def isEscapable (b : UInt8) : Bool :=
  b == dollar || b == backquote || b == quote || b == backslash || b == newline

/-- The role of a byte with `next` behind it, and where the shell is then. -/
def step (q : Quoting) (b : UInt8) (next : Option UInt8) : Role × Quoting :=
  match q with
  | .unquoted =>
    if b = apostrophe then (.quoting, .single)
    else if b = quote then (.quoting, .double)
    else if b = backslash then (.quoting, .escaped)
    else (.active, .unquoted)
  | .escaped => (.literal, .unquoted)
  | .single => if b = apostrophe then (.quoting, .unquoted) else (.literal, .single)
  | .double =>
    if b = quote then (.quoting, .unquoted)
    else if b = dollar ∨ b = backquote then (.expansion, .double)
    else if b = backslash ∧ next.any isEscapable then (.quoting, .doubleEscaped)
    else (.literal, .double)
  | .doubleEscaped => (.literal, .double)

def roles : Quoting → Bytes → List Role
  | _, [] => []
  | q, b :: t => (step q b t.head?).1 :: roles (step q b t.head?).2 t

theorem length_roles (q : Quoting) (s : Bytes) : (roles q s).length = s.length := by
  induction s generalizing q with
  | nil => rfl
  | cons b t ih => simp [roles, ih]

/-! ## Templates -/

/-- Fixed text that opens no quotes. -/
def isUnquotedText (t : Bytes) : Bool :=
  t.all fun b => b != apostrophe && b != quote && b != backslash

inductive Piece where
  | text (t : Bytes) (h : isUnquotedText t = true)
  | single (value : Bytes)
  | double (value : Bytes)

/-- A piece of a template that is written out. -/
def Piece.fixed (s : String) (h : isUnquotedText (bytes s) = true := by exact Eq.refl true) : Piece :=
  .text (bytes s) h

def Piece.render : Piece → Bytes
  | text t _ => t
  | single value => apostrophe :: (value ++ [apostrophe])
  | double value => quote :: (value ++ [quote])

def render (pieces : List Piece) : Bytes := pieces.flatMap Piece.render

/-- The roles the template means the bytes of a piece to have. -/
def Piece.meant : Piece → List Role
  | text t _ => List.replicate t.length .active
  | single value => .quoting :: (List.replicate value.length .literal ++ [.quoting])
  | double value => .quoting :: (List.replicate value.length .literal ++ [.quoting])

def meant (pieces : List Piece) : List Role := pieces.flatMap Piece.meant

/-- Between double quotes the value stands for itself: no quotes and no expansions, and no
backslash in front of a backslash, of a line break or at the end. -/
def isSafeInDouble : Bytes → Bool
  | [] => true
  | b :: t =>
    b != quote && b != dollar && b != backquote &&
      !(b == backslash && (t.head?.getD quote |> isEscapable)) && isSafeInDouble t

/-- The value of the piece is safe in its quotes. -/
def Piece.Safe : Piece → Prop
  | text _ _ => True
  | single value => apostrophe ∉ value
  | double value => isSafeInDouble value = true

theorem length_meant (pieces : List Piece) : (meant pieces).length = (render pieces).length := by
  induction pieces with
  | nil => rfl
  | cons piece pieces ih =>
    have hpiece : piece.meant.length = piece.render.length := by
      cases piece <;> simp [Piece.meant, Piece.render]
    simpa [meant, render, hpiece] using ih

/-! ## Safe values -/

theorem roles_text {t : Bytes} (h : isUnquotedText t = true) (s : Bytes) :
    roles .unquoted (t ++ s) = List.replicate t.length .active ++ roles .unquoted s := by
  induction t with
  | nil => rfl
  | cons b t ih =>
    simp only [isUnquotedText, List.all_cons, Bool.and_eq_true, bne_iff_ne, ne_eq] at h
    obtain ⟨⟨⟨ha, hq⟩, hb⟩, ht⟩ := h
    have hstep : ∀ next, step .unquoted b next = (.active, .unquoted) := by
      intro next
      simp [step, ha, hq, hb]
    rw [List.cons_append, roles, hstep, ih ht]
    rfl

theorem roles_single_iff {value s : Bytes} {meant : List Role} :
    roles .single (value ++ apostrophe :: s) =
        List.replicate value.length .literal ++ .quoting :: meant ↔
      apostrophe ∉ value ∧ roles .unquoted s = meant := by
  induction value with
  | nil => simp [roles, step]
  | cons b value ih =>
    rw [List.cons_append, roles, List.length_cons, List.replicate_succ, List.cons_append,
      List.cons.injEq]
    by_cases hb : b = apostrophe
    · simp [step, hb]
    · have hstep : ∀ next, step .single b next = (.literal, .single) := by simp [step, hb]
      simp only [hstep, true_and, ih, List.mem_cons, not_or, Ne.symm hb, not_false_eq_true]

theorem roles_double_iff {value s : Bytes} {meant : List Role} :
    roles .double (value ++ quote :: s) =
        List.replicate value.length .literal ++ .quoting :: meant ↔
      isSafeInDouble value = true ∧ roles .unquoted s = meant := by
  induction value with
  | nil => simp [roles, step, isSafeInDouble]
  | cons b value ih =>
    have hhead : (value ++ quote :: s).head? = some (value.head?.getD quote) := by
      cases value <;> rfl
    rw [List.cons_append, roles, List.length_cons, List.replicate_succ, List.cons_append,
      List.cons.injEq, hhead, isSafeInDouble]
    by_cases hq : b = quote
    · simp [step, hq]
    by_cases hd : b = dollar
    · simp [step, hd, show dollar ≠ quote by decide]
    by_cases hback : b = backquote
    · simp [step, hback, show backquote ≠ quote by decide]
    by_cases he : b = backslash ∧ isEscapable (value.head?.getD quote) = true
    · obtain ⟨rfl, hesc⟩ := he
      simp [step, hesc, show backslash ≠ quote by decide, show backslash ≠ dollar by decide,
        show backslash ≠ backquote by decide]
    · have hstep : step .double b (some (value.head?.getD quote)) = (.literal, .double) := by
        simp only [step, hq, hd, hback, ↓reduceIte, or_self, Option.any_some, he]
      have hescape : (b == backslash && isEscapable (value.head?.getD quote)) = false := by
        rw [Bool.eq_false_iff, Ne, Bool.and_eq_true, beq_iff_eq]
        exact he
      simp only [hstep, true_and, ih]
      simp [hq, hd, hback, hescape]

/-- **Every byte has the role its template gives it exactly where the values are safe.** -/
theorem roles_render_iff (pieces : List Piece) :
    roles .unquoted (render pieces) = meant pieces ↔ ∀ piece ∈ pieces, piece.Safe := by
  induction pieces with
  | nil => simp [render, meant, roles]
  | cons piece pieces ih =>
    rw [List.forall_mem_cons, ← ih]
    have hrender : render (piece :: pieces) = piece.render ++ render pieces := List.flatMap_cons
    have hmeant : meant (piece :: pieces) = piece.meant ++ meant pieces := List.flatMap_cons
    rw [hrender, hmeant]
    cases piece with
    | text t h =>
      rw [Piece.render, roles_text h, Piece.meant, List.append_cancel_left_eq]
      simp [Piece.Safe]
    | single value =>
      have hstep : ∀ next, step .unquoted apostrophe next = (.quoting, .single) := by simp [step]
      simp only [Piece.render, Piece.meant, List.cons_append, List.append_assoc, List.nil_append,
        roles, hstep, List.cons.injEq, true_and, roles_single_iff, Piece.Safe]
    | double value =>
      have hstep : ∀ next, step .unquoted quote next = (.quoting, .double) := by
        simp [step, show quote ≠ apostrophe by decide]
      simp only [Piece.render, Piece.meant, List.cons_append, List.append_assoc, List.nil_append,
        roles, hstep, List.cons.injEq, true_and, roles_double_iff, Piece.Safe]

/-- The bytes of a command have the roles of its template. -/
def Intact (command : Bytes) (pieces : List Piece) : Prop :=
  roles .unquoted command = meant pieces

/-- The same of a command that is cut to a buffer: it must not be cut. -/
theorem intact_snprintf_iff {size : Nat} (hsize : 0 < size) (pieces : List Piece) :
    Intact (snprintf size (render pieces)) pieces ↔
      (render pieces).length < size ∧ ∀ piece ∈ pieces, piece.Safe := by
  by_cases hfits : (render pieces).length < size
  · rw [Intact, snprintf_of_lt hfits, roles_render_iff]
    simp [hfits]
  · refine iff_of_false (fun h => ?_) fun h => hfits h.1
    have hlen := congrArg List.length h
    rw [length_roles, length_meant, snprintf, List.length_take] at hlen
    omega

end ShellText

import WovenTeam.Lib.CText

/-!
# Reading a file line by line

`fgetsLines size text` are the strings a loop over `fgets` with a buffer of `size` bytes reads
from a file: each ends behind a newline, or where the buffer is full, or at the end of the file.
The file is at a line start where the next byte written would begin a line of the reader
(`AtLineStart`): at the beginning, behind a newline, or behind a full buffer. What is appended
there is read on its own (`fgetsLines_append`); a line that is read on its own was written there
(`atLineStart_of_split`).
-/

namespace LineReader

open CText

/-- Put a byte in front of the line being read. -/
def consByte (b : UInt8) : List Bytes → List Bytes
  | [] => [[b]]
  | line :: rest => (b :: line) :: rest

/-- The lines of a text when `left + 1` bytes of the buffer are free and a fresh buffer has room
for `cap + 1`. -/
def linesFrom (cap : Nat) : Nat → Bytes → List Bytes
  | _, [] => []
  | 0, b :: t => [b] :: linesFrom cap cap t
  | left + 1, b :: t =>
    if b = newline then [b] :: linesFrom cap cap t else consByte b (linesFrom cap left t)

/-- What is left of the buffer behind a text. -/
def leftAfter (cap : Nat) : Nat → Bytes → Nat
  | left, [] => left
  | 0, _ :: t => leftAfter cap cap t
  | left + 1, b :: t => if b = newline then leftAfter cap cap t else leftAfter cap left t

/-- The strings read by `while (fgets(line, size, file))`: at most `size - 1` bytes each. -/
def fgetsLines (size : Nat) (text : Bytes) : List Bytes := linesFrom (size - 2) (size - 2) text

/-- The next byte of the file would begin a line of the reader. -/
def AtLineStart (size : Nat) (file : Bytes) : Prop :=
  leftAfter (size - 2) (size - 2) file = size - 2

instance (size : Nat) (file : Bytes) : Decidable (AtLineStart size file) := by
  unfold AtLineStart; infer_instance

variable {cap left : Nat}

theorem leftAfter_le (h : left ≤ cap) (s : Bytes) : leftAfter cap left s ≤ cap := by
  induction s generalizing left with
  | nil => exact h
  | cons b t ih =>
    cases left with
    | zero => exact ih (Nat.le_refl cap)
    | succ left =>
      rw [leftAfter]
      split
      · exact ih (Nat.le_refl cap)
      · exact ih (by omega)

theorem leftAfter_append (a b : Bytes) :
    leftAfter cap left (a ++ b) = leftAfter cap (leftAfter cap left a) b := by
  induction a generalizing left with
  | nil => rfl
  | cons x t ih =>
    cases left with
    | zero => exact ih
    | succ left =>
      rw [List.cons_append, leftAfter, leftAfter]
      split <;> exact ih

theorem linesFrom_ne_nil {s : Bytes} (h : s ≠ []) : linesFrom cap left s ≠ [] := by
  cases s with
  | nil => exact absurd rfl h
  | cons b t =>
    cases left with
    | zero => simp [linesFrom]
    | succ left =>
      rw [linesFrom]
      split
      · simp
      · cases linesFrom cap left t <;> simp [consByte]

/-- The lines joined are the text. -/
theorem flatten_linesFrom (s : Bytes) : (linesFrom cap left s).flatten = s := by
  induction s generalizing left with
  | nil => cases left <;> rfl
  | cons b t ih =>
    have hcons : ∀ ls : List Bytes, (consByte b ls).flatten = b :: ls.flatten := by
      intro ls
      cases ls <;> simp [consByte]
    cases left with
    | zero => simp [linesFrom, ih]
    | succ left =>
      rw [linesFrom]
      split
      · simp [ih]
      · rw [hcons, ih]

/-- **What is appended at a line start is read on its own.** -/
theorem linesFrom_append {a : Bytes} (h : leftAfter cap left a = cap) (hl : left ≤ cap)
    (b : Bytes) (ha : a ≠ [] ∨ left = cap) :
    linesFrom cap left (a ++ b) = linesFrom cap left a ++ linesFrom cap cap b := by
  induction a generalizing left with
  | nil =>
    rw [ha.resolve_left (fun h => h rfl), List.nil_append]
    cases cap <;> rfl
  | cons x t ih =>
    cases left with
    | zero =>
      rw [List.cons_append, linesFrom, linesFrom, ih h (Nat.le_refl cap) (.inr rfl),
        List.cons_append]
    | succ left =>
      rw [leftAfter] at h
      rw [List.cons_append, linesFrom, linesFrom]
      split
      · rename_i hx
        rw [if_pos hx] at h
        rw [ih h (Nat.le_refl cap) (.inr rfl), List.cons_append]
      · rename_i hx
        rw [if_neg hx] at h
        have ht : t ≠ [] := by
          rintro rfl
          simp only [leftAfter] at h
          omega
        rw [ih h (by omega) (.inl ht)]
        obtain ⟨line, rest, hlines⟩ :=
          List.exists_cons_of_ne_nil (linesFrom_ne_nil ht : linesFrom cap left t ≠ [])
        simp [hlines, consByte]

/-- The first line read, the text behind it, and that the file is at a line start between them
unless it ends there. -/
theorem linesFrom_eq_cons {s line : Bytes} {rest : List Bytes}
    (h : linesFrom cap left s = line :: rest) :
    s = line ++ rest.flatten ∧ rest = linesFrom cap cap rest.flatten ∧
      (rest ≠ [] → leftAfter cap left line = cap) := by
  have hnil : ∀ left, linesFrom cap left [] = [] := fun left => by cases left <;> rfl
  induction s generalizing left line with
  | nil => rw [hnil] at h; cases h
  | cons b t ih =>
    have hflat : (linesFrom cap cap t).flatten = t := flatten_linesFrom t
    cases left with
    | zero =>
      rw [linesFrom] at h
      cases h
      rw [hflat]
      exact ⟨rfl, rfl, fun _ => rfl⟩
    | succ left =>
      rw [linesFrom] at h
      split at h
      · rename_i hb
        cases h
        rw [hflat]
        exact ⟨rfl, rfl, fun _ => by simp [leftAfter, hb]⟩
      · rename_i hb
        cases hl : linesFrom cap left t with
        | nil =>
          rw [hl] at h
          have ht : t = [] := by
            by_contra hne
            exact linesFrom_ne_nil hne hl
          cases h
          exact ⟨by simp [ht], by rw [List.flatten_nil, hnil], fun hne => absurd rfl hne⟩
        | cons line' rest' =>
          rw [hl] at h
          cases h
          obtain ⟨hs, hrest, hleft⟩ := ih hl
          refine ⟨by rw [hs]; rfl, hrest, fun hne => ?_⟩
          rw [leftAfter, if_neg hb]
          exact hleft hne

theorem leftAfter_flatten {lines rest : List Bytes} {s : Bytes}
    (h : linesFrom cap cap s = lines ++ rest) (hrest : rest ≠ []) :
    leftAfter cap cap lines.flatten = cap ∧ rest = linesFrom cap cap rest.flatten := by
  induction lines generalizing s with
  | nil =>
    refine ⟨rfl, ?_⟩
    rw [List.nil_append] at h
    rw [← h, flatten_linesFrom]
  | cons line lines ih =>
    obtain ⟨-, hl, hleft⟩ := linesFrom_eq_cons h
    obtain ⟨hat, hr⟩ := ih hl.symm
    refine ⟨?_, hr⟩
    rw [List.flatten_cons, leftAfter_append, hleft (by simp [hrest]), hat]

/-- A newline stands in a line only at its end. -/
theorem newline_notMem_dropLast {s line : Bytes} (h : line ∈ linesFrom cap left s) :
    newline ∉ line.dropLast := by
  induction s generalizing left line with
  | nil => cases left <;> cases h
  | cons b t ih =>
    have hfront : ∀ {left}, line ∈ [b] :: linesFrom cap left t → newline ∉ line.dropLast := by
      intro left h
      rcases List.mem_cons.mp h with rfl | h
      · exact List.not_mem_nil
      · exact ih h
    cases left with
    | zero => exact hfront h
    | succ left =>
      rw [linesFrom] at h
      split at h
      · exact hfront h
      · rename_i hb
        cases hl : linesFrom cap left t with
        | nil =>
          rw [hl] at h
          rw [List.mem_singleton.mp h]
          exact List.not_mem_nil
        | cons first rest =>
          rw [hl] at h
          rcases List.mem_cons.mp h with rfl | h
          · have hmem : first ∈ linesFrom cap left t := by simp [hl]
            have hfirst : newline ∉ first.dropLast := ih hmem
            cases first with
            | nil => exact List.not_mem_nil
            | cons c first =>
              rw [List.dropLast_cons_cons, List.mem_cons, not_or]
              exact ⟨Ne.symm hb, hfirst⟩
          · have hmem : line ∈ linesFrom cap left t := by simp [hl, h]
            exact ih hmem

theorem length_linesFrom_head {s line : Bytes} {rest : List Bytes}
    (h : linesFrom cap left s = line :: rest) : line.length ≤ left + 1 := by
  induction s generalizing left line with
  | nil => cases left <;> cases h
  | cons b t ih =>
    cases left with
    | zero =>
      rw [linesFrom] at h
      cases h
      simp
    | succ left =>
      rw [linesFrom] at h
      split at h
      · cases h
        simp
      · cases hl : linesFrom cap left t with
        | nil =>
          rw [hl] at h
          cases h
          simp
        | cons line' rest' =>
          rw [hl] at h
          cases h
          have := ih hl
          simpa using this

/-- A newline behind a text is a line of its own, or it ends the last line. -/
theorem linesFrom_append_newline (s : Bytes) :
    linesFrom cap left (s ++ [newline]) = linesFrom cap left s ++ [[newline]] ∨
      ∃ earlier line, linesFrom cap left s = earlier ++ [line] ∧
        linesFrom cap left (s ++ [newline]) = earlier ++ [line ++ [newline]] := by
  have hnil : ∀ left, linesFrom cap left [] = [] := fun left => by cases left <;> rfl
  have hone : ∀ left, linesFrom cap left [newline] = [[newline]] := fun left => by
    cases left <;> simp [linesFrom]
  induction s generalizing left with
  | nil => exact .inl (by rw [List.nil_append, hone, hnil, List.nil_append])
  | cons b t ih =>
    -- a line in front changes nothing
    have hfront : ∀ front : Bytes, front :: linesFrom cap cap (t ++ [newline]) =
          front :: linesFrom cap cap t ++ [[newline]] ∨
        ∃ earlier line, front :: linesFrom cap cap t = earlier ++ [line] ∧
          front :: linesFrom cap cap (t ++ [newline]) = earlier ++ [line ++ [newline]] := by
      intro front
      rcases @ih cap with h | ⟨earlier, line, h, h'⟩
      · exact .inl (by rw [h, List.cons_append])
      · exact .inr ⟨front :: earlier, line, by rw [h, List.cons_append],
          by rw [h', List.cons_append]⟩
    rw [List.cons_append]
    cases left with
    | zero => exact hfront [b]
    | succ left =>
      rw [linesFrom, linesFrom]
      split
      · exact hfront [b]
      · rcases @ih left with h | ⟨earlier, line, h, h'⟩
        · rw [h]
          cases linesFrom cap left t with
          | nil => exact .inr ⟨[], [b], rfl, rfl⟩
          | cons first rest => exact .inl rfl
        · rw [h, h']
          cases earlier with
          | nil => exact .inr ⟨[], b :: line, rfl, rfl⟩
          | cons first earlier => exact .inr ⟨(b :: first) :: earlier, line, rfl, rfl⟩

/-! ## One record -/

theorem linesFrom_record {record : Bytes} (hn : newline ∉ record) (hlen : record.length ≤ left)
    (rest : Bytes) :
    linesFrom cap left (record ++ newline :: rest) =
      (record ++ [newline]) :: linesFrom cap cap rest := by
  induction record generalizing left with
  | nil => cases left <;> simp [linesFrom]
  | cons b t ih =>
    have hb : b ≠ newline := fun h => hn (by simp [h])
    cases left with
    | zero => simp at hlen
    | succ left =>
      rw [List.cons_append, linesFrom, if_neg hb,
        ih (fun h => hn (by simp [h])) (by simpa using hlen)]
      rfl

/-- A record that fills the buffer is read without its newline, which is read next. -/
theorem linesFrom_full_record {record : Bytes} (hn : newline ∉ record)
    (hlen : record.length = left + 1) (rest : Bytes) :
    linesFrom cap left (record ++ newline :: rest) =
      record :: linesFrom cap cap (newline :: rest) := by
  induction record generalizing left with
  | nil => simp at hlen
  | cons b t ih =>
    have hb : b ≠ newline := fun h => hn (by simp [h])
    have ht : t.length = left := by simpa using hlen
    cases left with
    | zero =>
      rw [List.length_eq_zero_iff.mp ht]
      rfl
    | succ left =>
      rw [List.cons_append, linesFrom, if_neg hb, ih (fun h => hn (by simp [h])) ht]
      rfl

/-- A text without a newline that the buffer holds is one line. -/
theorem linesFrom_unfinished {text : Bytes} (hn : newline ∉ text) (hne : text ≠ [])
    (hlen : text.length ≤ left + 1) : linesFrom cap left text = [text] := by
  have hnil : ∀ left, linesFrom cap left [] = [] := fun left => by cases left <;> rfl
  induction text generalizing left with
  | nil => exact absurd rfl hne
  | cons b t ih =>
    have hb : b ≠ newline := fun h => hn (by simp [h])
    have ht : t.length ≤ left := by simpa using hlen
    cases left with
    | zero =>
      rw [List.length_eq_zero_iff.mp (Nat.le_zero.mp ht), linesFrom, hnil]
    | succ left =>
      rw [linesFrom, if_neg hb]
      cases t with
      | nil =>
        rw [hnil]
        rfl
      | cons c t =>
        rw [ih (fun h => hn (List.mem_cons_of_mem b h)) (List.cons_ne_nil c t) ht]
        rfl

variable {size : Nat}

theorem fgetsLines_unfinished {text : Bytes} (hn : newline ∉ text) (hne : text ≠ [])
    (hlen : text.length < size) (hsize : 2 ≤ size) : fgetsLines size text = [text] :=
  linesFrom_unfinished hn hne (by omega)

theorem atLineStart_nil : AtLineStart size [] := rfl

theorem atLineStart_newline (file : Bytes) : AtLineStart size (file ++ [newline]) := by
  rw [AtLineStart, leftAfter_append]
  generalize leftAfter (size - 2) (size - 2) file = left
  cases left <;> simp [leftAfter]

theorem fgetsLines_append {file : Bytes} (h : AtLineStart size file) (text : Bytes) :
    fgetsLines size (file ++ text) = fgetsLines size file ++ fgetsLines size text :=
  linesFrom_append h (Nat.le_refl _) text (.inr rfl)

theorem fgetsLines_record {record : Bytes} (hn : newline ∉ record) (hlen : record.length + 2 ≤ size)
    (rest : Bytes) :
    fgetsLines size (record ++ newline :: rest) =
      (record ++ [newline]) :: fgetsLines size rest :=
  linesFrom_record hn (by omega) rest

theorem fgetsLines_full_record {record : Bytes} (hn : newline ∉ record)
    (hlen : record.length + 1 = size) (hsize : 2 ≤ size) (rest : Bytes) :
    fgetsLines size (record ++ newline :: rest) =
      record :: fgetsLines size (newline :: rest) :=
  linesFrom_full_record hn (by omega) rest

theorem fgetsLines_append_newline (file : Bytes) :
    fgetsLines size (file ++ [newline]) = fgetsLines size file ++ [[newline]] ∨
      ∃ earlier line, fgetsLines size file = earlier ++ [line] ∧
        fgetsLines size (file ++ [newline]) = earlier ++ [line ++ [newline]] :=
  linesFrom_append_newline file

/-- Where the reader's lines are cut, the file was at a line start. -/
theorem atLineStart_of_split {file : Bytes} {before after : List Bytes} {line : Bytes}
    (h : fgetsLines size file = before ++ line :: after) (hsize : 2 ≤ size) :
    AtLineStart size before.flatten ∧ line.length < size := by
  obtain ⟨hat, hrest⟩ := leftAfter_flatten h (by simp)
  have := length_linesFrom_head hrest.symm
  exact ⟨hat, by omega⟩

theorem flatten_fgetsLines (text : Bytes) : (fgetsLines size text).flatten = text :=
  flatten_linesFrom text

end LineReader

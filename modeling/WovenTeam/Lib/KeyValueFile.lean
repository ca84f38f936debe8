import Mathlib.Data.List.DropRight
import WovenTeam.Lib.LineReader

/-!
# Files of `key=value` lines

Settings are read line by line: white space around a line, its key and its value is trimmed, blank
lines and comments are skipped, the first `=` separates key and value. They are written without
quoting. `assignments_write`: what is read from written settings are the keys with their values,
trimmed, where no value has a line break; `assignments_lineText`: a value that was read never has
one.
-/

namespace KeyValueFile

open CText LineReader

def equalsSign : UInt8 := 61

def trimWhitespace (s : Bytes) : Bytes := (s.dropWhile isSpace).rdropWhile isSpace

/-- The key and the value of a line, where it has them. -/
def assignment (line : Bytes) : Option (Bytes × Bytes) :=
  let trimmed := trimWhitespace (line.takeWhile (· != 0))
  if trimmed = [] ∨ trimmed.head? = some 35 then none
  else if equalsSign ∈ trimmed then
    some (trimWhitespace (trimmed.takeWhile (· != equalsSign)),
      trimWhitespace (trimmed.dropWhile (· != equalsSign)).tail)
  else none

/-- The assignments of a file that is read with a buffer of `size` bytes. -/
def assignments (size : Nat) (file : Bytes) : List (Bytes × Bytes) :=
  (fgetsLines size file).filterMap assignment

def settingLine (key value : Bytes) : Bytes := key ++ equalsSign :: (value ++ [newline])

/-- The file that is written from keys and values. -/
def writeSettings (settings : List (Bytes × Bytes)) : Bytes :=
  settings.flatMap fun setting => settingLine setting.1 setting.2

/-! ## Trimming -/

theorem length_rdropWhile_le (s : Bytes) : (s.rdropWhile isSpace).length ≤ s.length :=
  (List.rdropWhile_prefix isSpace s).length_le

theorem length_dropWhile_le (s : Bytes) : (s.dropWhile isSpace).length ≤ s.length :=
  (List.dropWhile_suffix isSpace).length_le

theorem trimWhitespace_isInfix (s : Bytes) : trimWhitespace s <:+: s :=
  (List.rdropWhile_prefix isSpace _).isInfix.trans (List.dropWhile_suffix isSpace).isInfix

/-- Text that trimming keeps has no white space at either end. -/
theorem ends_of_trimmed {s : Bytes} (h : trimWhitespace s = s) :
    s.dropWhile isSpace = s ∧ s.rdropWhile isSpace = s := by
  have hlen := congrArg List.length h
  have hright := length_rdropWhile_le (s.dropWhile isSpace)
  have hleft := length_dropWhile_le s
  unfold trimWhitespace at h hlen
  have hdrop : s.dropWhile isSpace = s :=
    (List.dropWhile_suffix isSpace).eq_of_length (by omega)
  exact ⟨hdrop, by rwa [hdrop] at h⟩

theorem trimWhitespace_of_solid {s : Bytes} (h : ∀ b ∈ s, isSpace b = false) :
    trimWhitespace s = s := by
  have hdrop : s.dropWhile isSpace = s := by
    cases s with
    | nil => rfl
    | cons b s => rw [List.dropWhile_cons_of_neg (by simp [h b (by simp)])]
  rw [trimWhitespace, hdrop, List.rdropWhile_eq_self_iff]
  intro hne
  simp [h _ (List.getLast_mem hne)]

/-- What is left of a value when its line and then the value is trimmed. -/
def reloaded (value : Bytes) : Bytes := trimWhitespace (value.rdropWhile isSpace)

theorem length_reloaded_le (value : Bytes) : (reloaded value).length ≤ value.length :=
  (trimWhitespace_isInfix _).length_le.trans (length_rdropWhile_le value)

theorem reloaded_eq_self_iff {value : Bytes} :
    reloaded value = value ↔ trimWhitespace value = value := by
  constructor
  · intro h
    have hlen := congrArg List.length h
    have hinner := (trimWhitespace_isInfix (value.rdropWhile isSpace)).length_le
    have hright := length_rdropWhile_le value
    have hend : value.rdropWhile isSpace = value := by
      refine (List.rdropWhile_prefix isSpace value).eq_of_length ?_
      unfold reloaded at hlen
      omega
    rwa [reloaded, hend] at h
  · intro h
    rw [reloaded, (ends_of_trimmed h).2, h]

/-! ## What is read -/

/-- A text that a line of the file can hold: no line break and no terminator. -/
def LineText (text : Bytes) : Prop := newline ∉ text ∧ 0 ∉ text

instance (text : Bytes) : Decidable (LineText text) := by unfold LineText; infer_instance

theorem LineText.of_isInfix {s t : Bytes} (ht : LineText t) (h : s <:+: t) : LineText s :=
  ⟨fun hn => ht.1 (h.subset hn), fun hz => ht.2 (h.subset hz)⟩

theorem newline_notMem_trim {line : Bytes} (h : newline ∉ line.dropLast) :
    newline ∉ line.rdropWhile isSpace := by
  rcases List.eq_nil_or_concat line with rfl | ⟨init, last, rfl⟩
  · simp
  · rw [List.concat_eq_append] at h ⊢
    rw [List.dropLast_concat] at h
    by_cases hlast : isSpace last
    · rw [List.rdropWhile_concat_pos _ _ _ hlast]
      exact fun hn => h ((List.rdropWhile_prefix isSpace init).subset hn)
    · rw [List.rdropWhile_concat_neg _ _ _ hlast, List.mem_append, not_or, List.mem_singleton]
      exact ⟨h, fun hn => hlast (hn ▸ by decide)⟩

theorem dropLast_suffix {s t : Bytes} (h : s <:+ t) : s.dropLast <:+: t.dropLast := by
  obtain ⟨front, rfl⟩ := h
  cases s with
  | nil => exact List.nil_infix
  | cons b s =>
    rw [List.dropLast_append_of_ne_nil (List.cons_ne_nil b s)]
    exact (List.suffix_append _ _).isInfix

/-- The trimmed text of a line has no line break. -/
theorem lineText_trimmed {line : Bytes} (h : newline ∉ line.dropLast) :
    LineText (trimWhitespace (line.takeWhile (· != 0))) := by
  have htext : newline ∉ (line.takeWhile (· != 0)).dropLast := by
    obtain ⟨rest, hrest⟩ := List.takeWhile_prefix (l := line) (· != 0)
    intro hn
    cases rest with
    | nil =>
      rw [List.append_nil] at hrest
      exact h (hrest ▸ hn)
    | cons b rest =>
      refine h ?_
      rw [← hrest, List.dropLast_append_of_ne_nil (List.cons_ne_nil b rest)]
      exact List.mem_append_left _ (List.mem_of_mem_dropLast hn)
  constructor
  · refine newline_notMem_trim fun hn => htext ?_
    exact (dropLast_suffix (List.dropWhile_suffix isSpace)).subset hn
  · intro hz
    have hmem := (trimWhitespace_isInfix _).subset hz
    simpa using List.mem_takeWhile_imp hmem

/-- **A value that is read has no line break.** -/
theorem assignments_lineText {size : Nat} {file : Bytes} {key value : Bytes}
    (h : (key, value) ∈ assignments size file) : LineText value := by
  obtain ⟨line, hline, hassign⟩ := List.mem_filterMap.mp h
  have htrimmed := lineText_trimmed (newline_notMem_dropLast hline)
  unfold assignment at hassign
  dsimp only at hassign
  split at hassign
  · cases hassign
  · split at hassign
    · cases hassign
      refine htrimmed.of_isInfix ((trimWhitespace_isInfix _).trans ?_)
      exact ((List.tail_suffix _).trans (List.dropWhile_suffix _)).isInfix
    · cases hassign

/-! ## What is written -/

/-- A key: a word without an equals sign that does not begin a comment. -/
structure PlainKey (key : Bytes) : Prop where
  nonempty : key ≠ []
  plain : ∀ b ∈ key, isSpace b = false ∧ b ≠ equalsSign ∧ b ≠ 0 ∧ b ≠ 35

section write

variable {key value : Bytes}

theorem PlainKey.trimmed (hkey : PlainKey key) : trimWhitespace key = key :=
  trimWhitespace_of_solid fun b hb => (hkey.plain b hb).1

/-- White space behind an equals sign is trimmed from the value alone. -/
theorem rdropWhile_setting (front value : Bytes) :
    (front ++ equalsSign :: value).rdropWhile isSpace =
      front ++ equalsSign :: value.rdropWhile isSpace := by
  induction value using List.reverseRecOn with
  | nil =>
    rw [List.rdropWhile_concat_neg _ _ _ (by decide), List.rdropWhile_nil]
  | append_singleton value b ih =>
    have hassoc : front ++ equalsSign :: (value ++ [b]) = (front ++ equalsSign :: value) ++ [b] := by
      simp
    by_cases hb : isSpace b
    · rw [hassoc, List.rdropWhile_concat_pos _ _ _ hb, List.rdropWhile_concat_pos _ _ _ hb, ih]
    · rw [hassoc, List.rdropWhile_concat_neg _ _ _ hb, List.rdropWhile_concat_neg _ _ _ hb, hassoc]

theorem trim_settingLine (hkey : PlainKey key) :
    trimWhitespace (settingLine key value) = key ++ equalsSign :: value.rdropWhile isSpace := by
  have hdrop : (settingLine key value).dropWhile isSpace = settingLine key value := by
    cases hk : key with
    | nil => exact absurd hk hkey.nonempty
    | cons b rest =>
      have hb := (hkey.plain b (by simp [hk])).1
      rw [settingLine, List.cons_append, List.dropWhile_cons_of_neg (by simp [hb])]
  have hassoc : settingLine key value = (key ++ equalsSign :: value) ++ [newline] := by
    simp [settingLine]
  rw [trimWhitespace, hdrop, hassoc, List.rdropWhile_concat_pos _ _ _ (by decide),
    rdropWhile_setting]

/-- **A written line is read as its key with its value, trimmed.** -/
theorem assignment_settingLine (hkey : PlainKey key) (hvalue : LineText value) :
    assignment (settingLine key value) = some (key, reloaded value) := by
  have htext : (settingLine key value).takeWhile (· != 0) = settingLine key value := by
    refine List.takeWhile_eq_self_iff.mpr fun b hb => bne_iff_ne.mpr ?_
    rintro rfl
    simp only [settingLine, List.mem_append, List.mem_cons, List.not_mem_nil, or_false] at hb
    rcases hb with hb | hb | hb | hb
    · exact (hkey.plain 0 hb).2.2.1 rfl
    · exact absurd hb (by decide)
    · exact hvalue.2 hb
    · exact absurd hb (by decide)
  have hkeyend : ∀ b ∈ key, (b != equalsSign) = true :=
    fun b hb => bne_iff_ne.mpr (hkey.plain b hb).2.1
  have htake : (key ++ equalsSign :: value.rdropWhile isSpace).takeWhile (· != equalsSign) = key := by
    rw [List.takeWhile_append_of_pos hkeyend, List.takeWhile_cons_of_neg (by simp), List.append_nil]
  have hdrop : (key ++ equalsSign :: value.rdropWhile isSpace).dropWhile (· != equalsSign) =
      equalsSign :: value.rdropWhile isSpace := by
    rw [List.dropWhile_append_of_pos hkeyend, List.dropWhile_cons_of_neg (by simp)]
  have hhead : ¬ (key ++ equalsSign :: value.rdropWhile isSpace = [] ∨
      (key ++ equalsSign :: value.rdropWhile isSpace).head? = some 35) := by
    cases hk : key with
    | nil => exact absurd hk hkey.nonempty
    | cons b rest =>
      have hb := (hkey.plain b (by simp [hk])).2.2.2
      simpa using hb
  unfold assignment
  dsimp only
  rw [htext, trim_settingLine hkey, if_neg hhead, if_pos (by simp), htake, hdrop, hkey.trimmed]
  rfl

/-- Keys and values whose lines fit the buffer. -/
structure Writable (size : Nat) (setting : Bytes × Bytes) : Prop where
  key : PlainKey setting.1
  value : LineText setting.2
  fits : setting.1.length + setting.2.length + 3 ≤ size

/-- **What is read from a written file are its keys with their values, trimmed.** -/
theorem assignments_write {size : Nat} {settings : List (Bytes × Bytes)}
    (h : ∀ setting ∈ settings, Writable size setting) :
    assignments size (writeSettings settings) =
      settings.map fun setting => (setting.1, reloaded setting.2) := by
  induction settings with
  | nil =>
    unfold assignments writeSettings fgetsLines
    cases size - 2 <;> rfl
  | cons setting settings ih =>
    obtain ⟨hkey, hvalue, hfits⟩ := h setting (by simp)
    have hnl : newline ∉ setting.1 ++ equalsSign :: setting.2 := by
      simp only [List.mem_append, List.mem_cons, not_or]
      refine ⟨fun hn => ?_, by decide, hvalue.1⟩
      exact absurd (hkey.plain newline hn).1 (by decide)
    have hfile : writeSettings (setting :: settings) =
        (setting.1 ++ equalsSign :: setting.2) ++ newline :: writeSettings settings := by
      simp [writeSettings, settingLine]
    have hlen : (setting.1 ++ equalsSign :: setting.2).length + 2 ≤ size := by
      simp only [List.length_append, List.length_cons]
      omega
    have hline : setting.1 ++ equalsSign :: setting.2 ++ [newline] =
        settingLine setting.1 setting.2 := by
      simp [settingLine]
    rw [assignments, hfile, fgetsLines_record hnl hlen, hline, List.filterMap_cons,
      assignment_settingLine hkey hvalue, List.map_cons]
    exact congrArg _ (ih fun s hs => h s (List.mem_cons_of_mem setting hs))

end write

end KeyValueFile

import WovenTeam.Dependents
import WovenTeam.Roomd.Recorded

/-!
# The records of clients

`handlePostTaskEvent` and `handlePostTaskPackage` check the body of the request and append what
`compactJsonLine` makes of it. The compactor follows the quotes of the body; the checks search it
for quoted keys. `record_intact` says when the two agree: the body makes one ledger line exactly
where no string of it has a line feed and it is not too long, and the line is read as the body was
where dropping line breaks does not join the end of a string with a key.
-/

namespace WovenTeam

open CText QuotedText LineReader

/-! ## Quotes -/

/-- What the compactor knows of the text behind it. -/
inductive QuoteState where
  | outside
  | inside
  | escaped
  deriving DecidableEq

def QuoteState.step (q : QuoteState) (b : UInt8) : QuoteState :=
  match q with
  | outside => if b = quote then inside else outside
  | inside => if b = backslash then escaped else if b = quote then outside else inside
  | escaped => inside

/-- The state behind a text. -/
def QuoteState.after (q : QuoteState) (text : Bytes) : QuoteState := text.foldl QuoteState.step q

/-- The text without the line breaks and tabs outside its strings. -/
def compactText : QuoteState → Bytes → Bytes
  | _, [] => []
  | q, b :: t =>
    if q = .outside ∧ isLineSpace b then compactText q t else b :: compactText (q.step b) t

section compact

variable {q : QuoteState} {b : UInt8} {t : Bytes}

theorem compactText_inside (h : q ≠ .outside) :
    compactText q (b :: t) = b :: compactText (q.step b) t :=
  if_neg fun hdrop => h hdrop.1

theorem compactText_kept (h : isLineSpace b = false) :
    compactText q (b :: t) = b :: compactText (q.step b) t :=
  if_neg fun hdrop => by simp [h] at hdrop

theorem compactText_dropped (h : isLineSpace b = true) :
    compactText .outside (b :: t) = compactText .outside t :=
  if_pos ⟨rfl, h⟩

theorem compactFrom_eq (q : QuoteState) (room : Nat) (text : Bytes) :
    compactFrom (q != .outside) (q == .escaped) room text = (compactText q text).take room := by
  induction text generalizing q room with
  | nil => simp [compactFrom, compactText]
  | cons b t ih =>
    cases room with
    | zero => simp [compactFrom]
    | succ room =>
      rw [compactFrom, if_neg (Nat.succ_ne_zero room), Nat.add_one_sub_one]
      cases q with
      | escaped =>
        rw [if_pos (by decide), compactText_inside (by decide), List.take_succ_cons]
        exact congrArg _ (ih .inside room)
      | inside =>
        rw [if_neg (by decide), compactText_inside (by decide), List.take_succ_cons,
          QuoteState.step]
        by_cases hb : b = backslash
        · rw [if_pos ⟨hb, by decide⟩, if_pos hb]
          exact congrArg _ (ih .escaped room)
        · rw [if_neg fun h => hb h.1, if_neg hb]
          by_cases hq : b = quote
          · rw [if_pos hq, if_pos hq]
            exact congrArg _ (ih .outside room)
          · rw [if_neg hq, if_neg (by simp), if_neg hq]
            exact congrArg _ (ih .inside room)
      | outside =>
        rw [if_neg (by decide), if_neg fun h => absurd h.2 (by decide)]
        by_cases hq : b = quote
        · subst hq
          rw [if_pos rfl, compactText_kept (by decide), List.take_succ_cons]
          exact congrArg _ (ih .inside room)
        · rw [if_neg hq]
          cases hline : isLineSpace b with
          | true =>
            rw [if_pos (by decide), compactText_dropped hline]
            exact ih .outside (room + 1)
          | false =>
            rw [if_neg (by simp), compactText_kept hline, List.take_succ_cons, QuoteState.step,
              if_neg hq]
            exact congrArg _ (ih .outside room)

theorem compactJsonLine_eq (text : Bytes) (size : Nat) :
    compactJsonLine text size = (compactText .outside text).take (size - 1) :=
  compactFrom_eq .outside (size - 1) text

end compact

@[simp] theorem QuoteState.after_nil (q : QuoteState) : q.after [] = q := rfl

@[simp] theorem QuoteState.after_cons (q : QuoteState) (b : UInt8) (t : Bytes) :
    q.after (b :: t) = (q.step b).after t := rfl

theorem step_lineSpace {b : UInt8} (h : isLineSpace b = true) :
    QuoteState.outside.step b = .outside := by
  have hq : b ≠ quote := by
    rintro rfl
    cases h
  rw [QuoteState.step]
  exact if_neg hq

/-! ## One line -/

/-- The body stays on one line: the compactor meets no line feed inside a string, and what it keeps
fits a line with its end. -/
structure StaysOnLine (body : Bytes) : Prop where
  unbroken : ∀ front rest, body = front ++ newline :: rest →
    QuoteState.outside.after front = .outside
  fits : (compactText .outside body).length + 2 ≤ wtTaskLedgerLineSize

theorem newline_mem_compactText {q : QuoteState} {text : Bytes} :
    newline ∈ compactText q text ↔
      ∃ front rest, text = front ++ newline :: rest ∧ q.after front ≠ .outside := by
  induction text generalizing q with
  | nil => simp [compactText]
  | cons b t ih =>
    by_cases hdrop : q = .outside ∧ isLineSpace b
    · obtain ⟨rfl, hline⟩ := hdrop
      have hstep : QuoteState.outside.step b = .outside := step_lineSpace hline
      rw [compactText_dropped hline, ih]
      constructor
      · rintro ⟨front, rest, rfl, hafter⟩
        exact ⟨b :: front, rest, rfl, by rwa [QuoteState.after_cons, hstep]⟩
      · rintro ⟨_ | ⟨c, front⟩, rest, heq, hafter⟩
        · exact absurd rfl hafter
        · obtain ⟨rfl, rfl⟩ := List.cons.inj heq
          rw [QuoteState.after_cons, hstep] at hafter
          exact ⟨front, rest, rfl, hafter⟩
    · rw [compactText, if_neg hdrop, List.mem_cons, ih]
      constructor
      · rintro (rfl | ⟨front, rest, rfl, hafter⟩)
        · exact ⟨[], t, rfl, fun h => hdrop ⟨h, rfl⟩⟩
        · exact ⟨b :: front, rest, rfl, hafter⟩
      · rintro ⟨_ | ⟨c, front⟩, rest, heq, hafter⟩
        · exact .inl (List.cons.inj heq).1.symm
        · obtain ⟨rfl, rfl⟩ := List.cons.inj heq
          exact .inr ⟨front, rest, rfl, hafter⟩

theorem recordedLines_of_stays {body : Bytes} (h : StaysOnLine body) :
    recordedLines body = [compactText .outside body ++ [newline]] := by
  have hfits := h.fits
  have hmem : newline ∉ compactText .outside body := by
    rw [newline_mem_compactText]
    rintro ⟨front, rest, heq, hafter⟩
    exact hafter (h.unbroken front rest heq)
  rw [recordedLines, compactJsonLine_eq, List.take_of_length_le (by omega),
    fgetsLines_record hmem hfits]
  rfl

theorem recordedLines_iff {body : Bytes} :
    (∃ line, recordedLines body = [line]) ↔ StaysOnLine body := by
  have hlength : ((compactText .outside body).take (wtTaskLedgerLineSize - 1)).length =
      min (wtTaskLedgerLineSize - 1) (compactText .outside body).length := List.length_take ..
  constructor
  · rintro ⟨line, hline⟩
    rw [recordedLines, compactJsonLine_eq] at hline
    have hflat := @flatten_fgetsLines wtTaskLedgerLineSize
      ((compactText .outside body).take (wtTaskLedgerLineSize - 1) ++ [newline])
    rw [hline, List.flatten_singleton] at hflat
    have hshort : line.length < wtTaskLedgerLineSize :=
      (@atLineStart_of_split _ _ [] [] line hline (by decide)).2
    have hmem : newline ∉ line.dropLast := by
      have hin := List.mem_singleton_self line
      rw [← hline] at hin
      exact newline_notMem_dropLast hin
    rw [hflat, List.dropLast_concat] at hmem
    rw [hflat, List.length_append, List.length_singleton] at hshort
    have hfits : (compactText .outside body).length + 2 ≤ wtTaskLedgerLineSize := by omega
    rw [List.take_of_length_le (by omega)] at hmem
    refine ⟨fun front rest heq => ?_, hfits⟩
    by_contra hafter
    exact hmem (newline_mem_compactText.mpr ⟨front, rest, heq, hafter⟩)
  · exact fun h => ⟨_, recordedLines_of_stays h⟩

/-! ## Reading the line -/

/-- A key whose bytes the compactor keeps and passes over. -/
def BareKey (key : Bytes) : Prop := ∀ b ∈ key, b ≠ quote ∧ b ≠ backslash ∧ isLineSpace b = false

/-- No string of the text is followed by the bare key and a quote, line breaks and tabs left out. -/
def KeyApart (key : Bytes) (q : QuoteState) (text : Bytes) : Prop :=
  ∀ front rest, text = front ++ quote :: rest → q.after front = .inside →
    ¬ key ++ [quote] <+: compactText .outside rest

section reading

variable {key : Bytes} {q : QuoteState} {text : Bytes}

theorem KeyApart.suffix {front rest : Bytes} (h : KeyApart key q (front ++ rest)) :
    KeyApart key (q.after front) rest := by
  rintro front' rest' rfl hafter
  refine h (front ++ front') rest' (by simp) ?_
  rwa [QuoteState.after, List.foldl_append]

theorem compactText_key_inside (hkey : BareKey key) (rest : Bytes) :
    compactText .inside (key ++ quote :: rest) = key ++ quote :: compactText .outside rest := by
  induction key with
  | nil => exact compactText_inside (by decide)
  | cons c key ih =>
    obtain ⟨⟨hq, hb, -⟩, hkey⟩ := List.forall_mem_cons.mp hkey
    have hstep : QuoteState.inside.step c = .inside := by simp [QuoteState.step, hq, hb]
    rw [List.cons_append, compactText_inside (by decide), hstep, ih hkey, List.cons_append]

theorem compactText_key_outside (hkey : BareKey key) (rest : Bytes) :
    compactText .outside (key ++ quote :: rest) = key ++ quote :: compactText .inside rest := by
  induction key with
  | nil => exact compactText_kept (by decide)
  | cons c key ih =>
    obtain ⟨⟨hq, -, hline⟩, hkey⟩ := List.forall_mem_cons.mp hkey
    have hstep : QuoteState.outside.step c = .outside := by simp [QuoteState.step, hq]
    rw [List.cons_append, compactText_kept hline, hstep, ih hkey, List.cons_append]

/-- Inside a string the key stands in the line where it stands in the text. -/
theorem key_prefix_inside (hkey : BareKey key) :
    key ++ [quote] <+: compactText .inside text ↔ key ++ [quote] <+: text := by
  induction key generalizing text with
  | nil =>
    cases text with
    | nil => simp [compactText]
    | cons b t => simp [compactText_inside]
  | cons c key ih =>
    obtain ⟨⟨hq, hb, -⟩, hkey⟩ := List.forall_mem_cons.mp hkey
    cases text with
    | nil => simp [compactText]
    | cons b t =>
      rw [compactText_inside (by decide), List.cons_append, List.cons_prefix_cons,
        List.cons_prefix_cons]
      refine and_congr_right fun heq => ?_
      subst heq
      have hstep : QuoteState.inside.step c = .inside := by simp [QuoteState.step, hq, hb]
      rw [hstep]
      exact ih hkey

theorem after_key_inside (hkey : BareKey key) :
    QuoteState.inside.after (key ++ [quote]) = .outside := by
  induction key with
  | nil => rfl
  | cons c key ih =>
    obtain ⟨⟨hq, hb, -⟩, hkey⟩ := List.forall_mem_cons.mp hkey
    have hstep : QuoteState.inside.step c = .inside := by simp [QuoteState.step, hq, hb]
    rw [List.cons_append, QuoteState.after_cons, hstep, ih hkey]

theorem quoted_eq (key : Bytes) : quoted key = quote :: (key ++ [quote]) := rfl

/-- At a quote the text and the line have the key or not, and where they have it, it ends a
string. -/
theorem quoted_prefix_compactText (hkey : BareKey key) (h : KeyApart key q (quote :: text)) :
    (∃ r, text = key ++ quote :: r ∧ q.after (quoted key) = .outside ∧
        compactText q (quote :: text) = quoted key ++ compactText .outside r) ∨
      ¬ quoted key <+: quote :: text ∧ ¬ quoted key <+: compactText q (quote :: text) := by
  have hkept : compactText q (quote :: text) = quote :: compactText (q.step quote) text :=
    compactText_kept (by decide)
  rw [hkept, quoted_eq, List.prefix_cons_inj, List.prefix_cons_inj, QuoteState.after_cons]
  by_cases hq : q = .inside
  · subst hq
    have hno : ¬ key ++ [quote] <+: compactText .outside text := h [] text rfl rfl
    refine .inr ⟨fun hpre => hno ?_, hno⟩
    obtain ⟨r, rfl⟩ := hpre
    rw [List.append_assoc, List.singleton_append, compactText_key_outside hkey]
    exact ⟨_, by rw [List.append_assoc, List.singleton_append]⟩
  · have hstep : q.step quote = .inside := by
      cases q with
      | outside => rfl
      | inside => exact absurd rfl hq
      | escaped => rfl
    rw [hstep, key_prefix_inside hkey]
    by_cases hpre : key ++ [quote] <+: text
    · left
      obtain ⟨r, rfl⟩ := hpre
      rw [List.append_assoc, List.singleton_append]
      exact ⟨r, rfl, after_key_inside hkey, by rw [compactText_key_inside hkey]; simp⟩
    · exact .inr ⟨hpre, hpre⟩

theorem quoted_not_starts {b : UInt8} (h : b ≠ quote) (t : Bytes) : ¬ quoted key <+: b :: t := by
  rw [quoted_eq, List.cons_prefix_cons]
  exact fun hpre => h hpre.1.symm

/-- The search finds the same in the text and the line. -/
theorem strstr_compactText (hkey : BareKey key) (h : KeyApart key q text) :
    (strstr (quoted key) text = none ∧ strstr (quoted key) (compactText q text) = none) ∨
      ∃ pre r, text = pre ++ (quoted key ++ r) ∧ q.after (pre ++ quoted key) = .outside ∧
        strstr (quoted key) text = some (quoted key ++ r) ∧
        strstr (quoted key) (compactText q text) =
          some (quoted key ++ compactText .outside r) := by
  induction text generalizing q with
  | nil => exact .inl ⟨rfl, rfl⟩
  | cons b t ih =>
    have hrest : KeyApart key (q.step b) t := @KeyApart.suffix _ _ [b] t h
    by_cases hb : b = quote
    · subst hb
      rcases quoted_prefix_compactText hkey h with ⟨r, rfl, hafter, hline⟩ | ⟨hno, hno'⟩
      · refine .inr ⟨[], r, by simp [quoted_eq], hafter, ?_, ?_⟩
        · rw [strstr_of_start ⟨r, by simp [quoted_eq]⟩]
          simp [quoted_eq]
        · rw [hline, strstr_of_start (List.prefix_append _ _)]
      · have hkept : compactText q (quote :: t) = quote :: compactText (q.step quote) t :=
          compactText_kept (by decide)
        rw [hkept] at hno' ⊢
        rw [strstr_cons hno, strstr_cons hno']
        rcases ih hrest with hnone | ⟨pre, r, rfl, hafter, hfound⟩
        · exact .inl hnone
        · exact .inr ⟨quote :: pre, r, rfl, hafter, hfound⟩
    · rw [strstr_cons (quoted_not_starts hb t)]
      have hskip : strstr (quoted key) (compactText q (b :: t)) =
          strstr (quoted key) (compactText (q.step b) t) := by
        by_cases hdrop : q = .outside ∧ isLineSpace b
        · obtain ⟨rfl, hline⟩ := hdrop
          rw [compactText_dropped hline, step_lineSpace hline]
        · rw [compactText, if_neg hdrop, strstr_cons (quoted_not_starts hb _)]
      rw [hskip]
      rcases ih hrest with hnone | ⟨pre, r, rfl, hafter, hfound⟩
      · exact .inl hnone
      · exact .inr ⟨b :: pre, r, rfl, hafter, hfound⟩

theorem isLineSpace_of_not_isSpace {b : UInt8} (h : isSpace b = false) :
    isLineSpace b = false := by
  rw [Bool.eq_false_iff]
  intro hline
  simp only [isLineSpace, Bool.or_eq_true, beq_iff_eq] at hline
  rcases hline with (rfl | rfl) | rfl <;> cases h

theorem dropSpaces_compactText (text : Bytes) :
    dropSpaces (compactText .outside text) = compactText .outside (dropSpaces text) := by
  induction text with
  | nil => rfl
  | cons b t ih =>
    have hquote : isSpace quote = false := by decide
    cases hspace : isSpace b with
    | true =>
      have hb : b ≠ quote := by
        rintro rfl
        rw [hquote] at hspace
        cases hspace
      have hstep : QuoteState.outside.step b = .outside := if_neg hb
      have hdrop (s : Bytes) : dropSpaces (b :: s) = dropSpaces s := by simp [dropSpaces, hspace]
      rw [hdrop]
      cases hline : isLineSpace b with
      | true => rw [compactText_dropped hline, ih]
      | false => rw [compactText_kept hline, hstep, hdrop, ih]
    | false =>
      have hline := isLineSpace_of_not_isSpace hspace
      have hkeep (s : Bytes) : dropSpaces (b :: s) = b :: s := by simp [dropSpaces, hspace]
      rw [compactText_kept hline, hkeep, hkeep, compactText_kept hline]

theorem after_of_no_quote {s : Bytes} (h : ∀ b ∈ s, b ≠ quote) :
    QuoteState.outside.after s = .outside := by
  induction s with
  | nil => rfl
  | cons b s ih =>
    obtain ⟨hb, hs⟩ := List.forall_mem_cons.mp h
    have hstep : QuoteState.outside.step b = .outside := if_neg hb
    rw [QuoteState.after_cons, hstep, ih hs]

theorem findFieldFrom_compactText (hkey : BareKey key) {fuel fuel' : Nat}
    (h : KeyApart key .outside text) (hfuel : text.length < fuel)
    (hfuel' : (compactText .outside text).length < fuel') :
    findFieldFrom (quoted key) fuel' (compactText .outside text) =
      (findFieldFrom (quoted key) fuel text).map (compactText .outside) := by
  induction fuel generalizing fuel' text with
  | zero => omega
  | succ fuel ih =>
    obtain ⟨fuel', rfl⟩ : ∃ less, fuel' = less + 1 := ⟨fuel' - 1, by omega⟩
    rw [findFieldFrom, findFieldFrom]
    rcases strstr_compactText hkey h with ⟨hnone, hnone'⟩ | ⟨pre, r, rfl, hafter, hfound, hfound'⟩
    · rw [hnone, hnone']
      rfl
    · rw [hfound, hfound']
      dsimp only
      have hkeyrest : KeyApart key .outside r := by
        rw [← List.append_assoc] at h
        exact hafter ▸ h.suffix
      have hsuffix : quoted key ++ compactText .outside r <:+
          compactText .outside (pre ++ (quoted key ++ r)) := by
        obtain ⟨pre', rest, heq, hrest⟩ := strstr_eq_some hfound'
        exact ⟨pre', by rw [heq, hrest]⟩
      have hshort := hsuffix.length_le
      have hquoted : 2 ≤ (quoted key).length := by simp [quoted_eq]
      have hle : (dropSpaces (compactText .outside r)).length ≤ (compactText .outside r).length :=
        (List.dropWhile_suffix _).length_le
      have hle' : (dropSpaces r).length ≤ r.length := (List.dropWhile_suffix _).length_le
      rw [List.drop_left, List.drop_left, dropSpaces_compactText]
      rw [dropSpaces_compactText] at hle
      simp only [List.length_append] at hfuel hshort
      have hnext : KeyApart key .outside (dropSpaces r) := by
        have hspaces : ∀ b ∈ r.takeWhile isSpace, b ≠ quote := by
          rintro b hb rfl
          exact absurd (List.mem_takeWhile_imp hb) (by decide)
        rw [← List.takeWhile_append_dropWhile (p := isSpace) (l := r)] at hkeyrest
        exact after_of_no_quote hspaces ▸ hkeyrest.suffix
      cases hd : dropSpaces r with
      | nil =>
        dsimp only [compactText]
        have hne : quoted key ≠ [] := List.cons_ne_nil _ _
        rw [findFieldFrom_nil hne, findFieldFrom_nil hne]
        rfl
      | cons b rest =>
        rw [hd] at hle hle' hnext
        have hline : isLineSpace b = false :=
          isLineSpace_of_not_isSpace (not_isSpace_of_dropSpaces hd)
        have hkept : compactText .outside (b :: rest) =
            b :: compactText (QuoteState.outside.step b) rest := compactText_kept hline
        have hrec := ih hnext (show (b :: rest).length < fuel by omega)
          (show (compactText .outside (b :: rest)).length < fuel' by omega)
        rw [hkept] at hrec ⊢
        dsimp only
        by_cases hcolon : b = colon
        · subst hcolon
          have hstep : QuoteState.outside.step colon = .outside := by decide
          rw [if_pos rfl, if_pos rfl, hstep, dropSpaces_compactText]
          rfl
        · rw [if_neg hcolon, if_neg hcolon]
          exact hrec

theorem copyString_compactText (room : Nat) (text : Bytes) :
    copyString room (compactText .inside text) = copyString room text := by
  fun_induction copyString room text with
  | case1 room => cases room <;> rfl
  | case2 b t =>
    rw [compactText_inside (by decide)]
    rfl
  | case3 room t =>
    rw [compactText_inside (by decide)]
    simp [copyString]
  | case4 room => rfl
  | case5 room e t _ ih =>
    have hstep : (QuoteState.inside.step backslash).step e = .inside := rfl
    have hback : backslash ≠ quote := by decide
    rw [compactText_inside (by decide), compactText_inside (by decide), hstep]
    simp [copyString, hback, ih]
  | case6 room b t hq hb ih =>
    have hstep : QuoteState.inside.step b = .inside := by simp [QuoteState.step, hq, hb]
    rw [compactText_inside (by decide), hstep, copyString_byte hq hb, ih]

/-- **What a reader returns for the text it returns for the line.** -/
theorem wtJsonReadString_compactText {k : String} (hk : KeyFits k) (hkey : BareKey (bytes k))
    (h : KeyApart (bytes k) .outside text) (size : Nat) :
    wtJsonReadString (compactText .outside text) k size = wtJsonReadString text k size := by
  have hfind : findFieldValue (compactText .outside text) k =
      (findFieldValue text k).map (compactText .outside) := by
    rw [findFieldValue, findFieldValue, pattern_eq hk]
    exact findFieldFrom_compactText hkey h (by omega) (by omega)
  rw [wtJsonReadString, wtJsonReadString, hfind]
  cases hv : findFieldValue text k with
  | none => rfl
  | some v =>
    cases v with
    | nil => rfl
    | cons b cursor =>
      have hline : isLineSpace b = false :=
        isLineSpace_of_not_isSpace (not_isSpace_of_dropSpaces (findFieldFrom_trimmed hv))
      have hkept : compactText .outside (b :: cursor) =
          b :: compactText (QuoteState.outside.step b) cursor := compactText_kept hline
      rw [Option.map_some, hkept]
      dsimp only
      by_cases hb : b = quote
      · subst hb
        have hstep : QuoteState.outside.step quote = .inside := by decide
        rw [hstep, copyString_compactText]
      · rw [if_pos (.inl hb), if_pos (.inl hb)]

end reading

/-! ## The event handler -/

/-- What `handlePostTaskEvent` reads of its body. -/
structure TaskEventPost where
  taskId : Bytes
  status : Bytes
  createdBy : Bytes
  deriving DecidableEq, Repr

def readTaskEventPost (body : Bytes) : Option TaskEventPost := do
  let schema ← (wtJsonReadString body "schema" 128).toOption
  if schema ≠ bytes taskEventSchema then none
  let taskId ← (wtJsonReadString body "taskId" wtTaskIdSize).toOption
  let status ← (wtJsonReadString body "status" wtTaskStatusSize).toOption
  return {
    taskId
    status
    createdBy := (wtJsonReadString body "createdBy" wtTaskAgentSize).orElse (bytes "system") }

/-- The part behind the append; `clock` is what the clock says at each further one. -/
def TaskEventPost.propagate (e : TaskEventPost) (ledger : Ledger) (clock : Nat → Long) :
    Ledger × Option Nat :=
  if e.status = bytes "blocked" then
    wtTaskAppendBlockedDependents ledger e.taskId e.createdBy clock
  else (ledger, some 0)

def eventReply (e : TaskEventPost) : HttpReply :=
  okReply (snprintf 512 (bytes "\x7b\"ok\":true,\"taskId\":\"" ++ e.taskId ++
    bytes "\",\"status\":\"" ++ e.status ++ bytes "\",\"createdBy\":\"" ++ e.createdBy ++
    bytes "\"\x7d\n"))

def handlePostTaskEvent (ledger : Ledger) (request : Bytes) (clock : Nat → Long) :
    Ledger × HttpReply :=
  match requestBody request with
  | none => (ledger, noBody)
  | some body =>
    match readTaskEventPost body with
    | none => (ledger, badRequest "invalid task event")
    | some e =>
      match e.propagate (wtTaskAppendRecord ledger (compactJsonLine body wtTaskLedgerLineSize))
          clock with
      | (ledger, none) =>
        (ledger, errorReply 500 "Internal Server Error" "dependency propagation failed")
      | (ledger, some _) => (ledger, eventReply e)

/-! ## Accepted posts -/

/-- The two requests whose body goes into the ledger. -/
inductive ClientPost where
  | event (clock : Nat → Long)
  | package (config : WtConfig) (clock : Clock)

def ClientPost.handle (ledger : Ledger) (request : Bytes) : ClientPost → Ledger × HttpReply
  | event clock => handlePostTaskEvent ledger request clock
  | package config clock => handlePostTaskPackage config ledger request clock

def ClientPost.schema : ClientPost → String
  | event _ => taskEventSchema
  | package .. => taskPackageSchema

/-- What the server adds behind the client's record: the events of blocked dependents, or the
routing event. -/
def ClientPost.Adds (body : Bytes) (ledger after : Ledger) : ClientPost → Prop
  | event clock => ∃ e, readTaskEventPost body = some e ∧ after = (e.propagate ledger clock).1
  | package config clock => ∃ p events, readTaskPackage body = some p ∧
      RoutingEvents p config clock.record events ∧ after = ledger ++ events

/-- The client's record is one line, which is read as the body was, and behind it stands only what
the server adds. -/
def ClientPost.Intact (post : ClientPost) (ledger : Ledger) (request body : Bytes) : Prop :=
  ∃ line, recordedLines body = [line] ∧ lineHasSchema line post.schema ∧
    (lineTaskId line).isSome ∧ lineTaskId line = lineTaskId body ∧
    post.Adds body (ledger ++ [line]) (post.handle ledger request).1

/-- The readers find the same schema and task id in the body and in what the compactor leaves. -/
structure ReadsOn (body : Bytes) : Prop where
  schema : (wtJsonReadString (compactText .outside body) "schema" 128).toOption =
    (wtJsonReadString body "schema" 128).toOption
  taskId : lineTaskId (compactText .outside body) = lineTaskId body

/-- The compactor has nothing to drop, or it joins no string with a key. -/
def KeysApart (body : Bytes) : Prop :=
  compactText .outside body = body ∨
    KeyApart (bytes "schema") .outside body ∧ KeyApart (bytes "taskId") .outside body

section posts

variable {ledger : Ledger} {request body : Bytes}

theorem taskEvent_accepted {clock : Nat → Long}
    (h : (handlePostTaskEvent ledger request clock).2.accepted)
    (hbody : requestBody request = some body) :
    ∃ e, readTaskEventPost body = some e ∧ (handlePostTaskEvent ledger request clock).1 =
      (e.propagate (ledger ++ recordedLines body) clock).1 := by
  unfold handlePostTaskEvent at *
  rw [hbody] at h ⊢
  dsimp only at h ⊢
  cases he : readTaskEventPost body with
  | none =>
    rw [he] at h
    exact absurd h (by decide : ¬ (badRequest "invalid task event").accepted)
  | some e =>
    refine ⟨e, rfl, ?_⟩
    dsimp only
    rw [wtTaskAppendRecord_compact]
    split
    · rename_i hfailed
      rw [hfailed]
    · rename_i hdone
      rw [hdone]

theorem lineHasSchema_iff {line : Bytes} {schema : String} : lineHasSchema line schema ↔
    (wtJsonReadString line "schema" 128).toOption = some (bytes schema) := by
  rw [lineHasSchema, beq_iff_eq, StringField.toOption_eq_some_iff]

theorem readTaskEventPost_checks {e : TaskEventPost} (h : readTaskEventPost body = some e) :
    lineHasSchema body taskEventSchema ∧ (lineTaskId body).isSome := by
  simp only [readTaskEventPost, Option.bind_eq_bind, Option.bind_eq_some_iff] at h
  obtain ⟨schema, hschema, h⟩ := h
  split at h
  · cases h
  · rename_i hne
    obtain ⟨taskId, htask, -⟩ := Option.bind_eq_some_iff.mp h
    refine ⟨?_, by rw [lineTaskId, htask]; rfl⟩
    rw [lineHasSchema_iff, hschema, not_not.mp hne]

theorem readTaskPackage_checks {p : TaskProposal} (h : readTaskPackage body = some p) :
    lineHasSchema body taskPackageSchema ∧ (lineTaskId body).isSome := by
  simp only [readTaskPackage, Option.bind_eq_bind, Option.bind_eq_some_iff] at h
  obtain ⟨schema, hschema, h⟩ := h
  split at h
  · cases h
  · rename_i hne
    obtain ⟨taskId, htask, -⟩ := Option.bind_eq_some_iff.mp h
    refine ⟨?_, by rw [lineTaskId, htask]; rfl⟩
    rw [lineHasSchema_iff, hschema, not_not.mp hne]

/-- An accepted post has checked the body, appends the client's lines and adds its own. -/
theorem post_accepted {post : ClientPost} (h : (post.handle ledger request).2.accepted)
    (hbody : requestBody request = some body) :
    lineHasSchema body post.schema ∧ (lineTaskId body).isSome ∧
      post.Adds body (ledger ++ recordedLines body) (post.handle ledger request).1 := by
  cases post with
  | event clock =>
    obtain ⟨e, he, hledger⟩ := taskEvent_accepted h hbody
    obtain ⟨hschema, htask⟩ := readTaskEventPost_checks he
    exact ⟨hschema, htask, e, he, hledger⟩
  | package config clock =>
    obtain ⟨body', p, events, hbody', hp, -, hevents, hledger⟩ := taskPackage_accepted h
    cases hbody.symm.trans hbody'
    obtain ⟨hschema, htask⟩ := readTaskPackage_checks hp
    exact ⟨hschema, htask, p, events, hp, hevents, by rw [List.append_assoc]; exact hledger⟩

theorem bareKey_schema : BareKey (bytes "schema") := by unfold BareKey; decide +kernel

theorem bareKey_taskId : BareKey (bytes "taskId") := by unfold BareKey; decide +kernel

theorem KeysApart.readsOn (h : KeysApart body) : ReadsOn body := by
  rcases h with heq | ⟨hschema, htask⟩
  · exact ⟨by rw [heq], by rw [heq]⟩
  · refine ⟨?_, ?_⟩
    · rw [wtJsonReadString_compactText (by decide) bareKey_schema hschema]
    · rw [lineTaskId, wtJsonReadString_compactText (by decide) bareKey_taskId htask, lineTaskId]

/-- The end of the line changes nothing. -/
theorem toOption_newline {k : String} (hk : KeyFits k) (text : Bytes) (size : Nat) :
    (wtJsonReadString (text ++ [newline]) k size).toOption =
      (wtJsonReadString text k size).toOption := by
  have hnewline : ∀ b ∈ [newline], isSpace b := by decide +kernel
  exact wtJsonReadString_append hk hnewline size

/-- **The record of an accepted post is intact exactly where its body stays on a line and the
readers find the same in it when its line breaks are dropped**, as they do where the keys stand
apart. -/
theorem record_intact_iff (post : ClientPost) (ledger : Ledger) (request body : Bytes)
    (haccepted : (post.handle ledger request).2.accepted)
    (hbody : requestBody request = some body) :
    (post.Intact ledger request body ↔ StaysOnLine body ∧ ReadsOn body) ∧
      (KeysApart body → ReadsOn body) := by
  obtain ⟨hschema, htask, hadds⟩ := post_accepted haccepted hbody
  have htaskLine : lineTaskId (compactText .outside body ++ [newline]) =
      lineTaskId (compactText .outside body) := toOption_newline (by decide) _ _
  refine ⟨⟨?_, ?_⟩, KeysApart.readsOn⟩
  · rintro ⟨line, hline, hschema', -, htask', -⟩
    have hstays := recordedLines_iff.mp ⟨line, hline⟩
    obtain rfl : compactText .outside body ++ [newline] = line := by
      simpa [recordedLines_of_stays hstays] using hline
    rw [lineHasSchema_iff] at hschema hschema'
    rw [toOption_newline (by decide)] at hschema'
    exact ⟨hstays, hschema'.trans hschema.symm, htaskLine.symm.trans htask'⟩
  · rintro ⟨hstays, hreads⟩
    have hlines := recordedLines_of_stays hstays
    have hid := htaskLine.trans hreads.taskId
    rw [hlines] at hadds
    refine ⟨_, hlines, ?_, by rwa [hid], hid, hadds⟩
    rw [lineHasSchema_iff] at hschema ⊢
    rw [toOption_newline (by decide), hreads.schema, hschema]

end posts

/-! ### Two events -/

/-- An event on two lines of its own. -/
def plainEvent : Bytes :=
  bytes "\x7b\"schema\":\"woventeam.task_event.v0.1\",\n" ++
    bytes "\"taskId\":\"t\",\"status\":\"queued\"\x7d"

/-- An event with a line feed in its message. -/
def brokenEvent : Bytes :=
  bytes "\x7b\"schema\":\"woventeam.task_event.v0.1\",\"taskId\":\"t\"," ++
    bytes "\"status\":\"queued\",\"message\":\"one\ntwo\"\x7d"

def eventRequest (body : Bytes) : Bytes :=
  bytes "POST /api/task-event HTTP/1.1\r\n\r\n" ++ body

def stoppedClock : Nat → Long := fun _ => ⟨0, int64_zero⟩

theorem record_intact_plain :
    (ClientPost.event stoppedClock).Intact [] (eventRequest plainEvent) plainEvent := by
  have hone : (recordedLines plainEvent).length = 1 := by decide +kernel
  have hline : ∃ line, recordedLines plainEvent = [line] := List.length_eq_one_iff.mp hone
  have hreads : ReadsOn plainEvent := ⟨by decide +kernel, by decide +kernel⟩
  exact (record_intact_iff (.event stoppedClock) [] (eventRequest plainEvent) plainEvent
    (by decide +kernel) (by decide +kernel)).1.mpr ⟨recordedLines_iff.mp hline, hreads⟩

theorem not_record_intact : ¬ ∀ (post : ClientPost) (ledger : Ledger) (request body : Bytes),
    (post.handle ledger request).2.accepted → requestBody request = some body →
      post.Intact ledger request body := by
  intro hall
  obtain ⟨line, hline, -⟩ := hall (.event stoppedClock) [] (eventRequest brokenEvent)
    brokenEvent (by decide +kernel) (by decide +kernel)
  have htwo : (recordedLines brokenEvent).length = 2 := by decide +kernel
  rw [hline, List.length_singleton] at htwo
  cases htwo

end WovenTeam

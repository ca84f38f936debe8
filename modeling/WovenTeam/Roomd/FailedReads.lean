import WovenTeam.Roomd.PostConfig
import WovenTeam.Store.Find

/-!
# Reads that fail

`wtJsonReadString` writes while it scans, and finds out last that a value is too long or not
closed. `failedReads_keep` says when a failed read leaves its buffer as it was, and when the callers
that read into live state keep it: the events of the queued-task finder and the fields of a
configuration request.
-/

namespace WovenTeam

open CText

/-! ## The buffer -/

/-- How the copy loop ends. -/
inductive CopyExit where
  | closed
  | overlong
  | unterminated
  deriving DecidableEq

/-- The loop over the memory behind the opening quote, with `room` bytes left in front of the last
of the buffer: what it writes and how it ends. An escaped byte is taken whatever it is. -/
def copyMemory : Nat → Bytes → Bytes × CopyExit
  | _, [] => ([], .unterminated)
  | room, b :: t =>
    if b = 0 then ([], .unterminated)
    else if b = quote then ([], .closed)
    else if b = backslash then
      match t, room with
      | [], _ => ([], .unterminated)
      | _ :: _, 0 => ([], .overlong)
      | e :: t, room + 1 => (unescapeByte e :: (copyMemory room t).1, (copyMemory room t).2)
    else
      match room with
      | 0 => ([], .overlong)
      | room + 1 => (b :: (copyMemory room t).1, (copyMemory room t).2)

/-- The result and the buffer after `wtJsonReadString` for a text in memory, its terminator and what
lies behind. -/
def wtJsonReadStringInto (text behind : Bytes) (key : String) (output : Bytes) : Int × Bytes :=
  match findFieldValue text key with
  | none => (-1, output)
  | some [] => (-1, output)
  | some (b :: cursor) =>
    if b ≠ quote ∨ output.length = 0 then (-1, output)
    else
      let copied := copyMemory (output.length - 1) (cursor ++ 0 :: behind)
      match copied.2 with
      | .closed => (0, copied.1 ++ 0 :: output.drop (copied.1.length + 1))
      | .unterminated => (-1, copied.1 ++ 0 :: output.drop (copied.1.length + 1))
      | .overlong => (-1, copied.1 ++ output.drop copied.1.length)

/-- What the text behind an opening quote decodes to, and whether it is closed. -/
def decodeLiteral : Bytes → Bytes × Bool
  | [] => ([], false)
  | b :: t =>
    if b = 0 then ([], false)
    else if b = quote then ([], true)
    else if b = backslash then
      match t with
      | [] => ([], false)
      | e :: t => (unescapeByte e :: (decodeLiteral t).1, (decodeLiteral t).2)
    else (b :: (decodeLiteral t).1, (decodeLiteral t).2)

/-- A read that fails leaves the buffer as it was. -/
def FailsClean (text behind : Bytes) (key : String) (output : Bytes) : Prop :=
  (wtJsonReadStringInto text behind key output).1 = -1 →
    (wtJsonReadStringInto text behind key output).2 = output

/-- Where the value is a string that is not closed, or too long, what is written of it is there
already. -/
def WritesNothingNew (text behind : Bytes) (key : String) (output : Bytes) : Prop :=
  ∀ cursor, findFieldValue text key = some (quote :: cursor) → output ≠ [] →
    ((decodeLiteral (cursor ++ 0 :: behind)).1.length < output.length →
      (decodeLiteral (cursor ++ 0 :: behind)).2 = false →
        (decodeLiteral (cursor ++ 0 :: behind)).1 ++ [0] <+: output) ∧
    (output.length ≤ (decodeLiteral (cursor ++ 0 :: behind)).1.length →
      (decodeLiteral (cursor ++ 0 :: behind)).1.take (output.length - 1) <+: output)

theorem decodeLiteral_zero (t : Bytes) : decodeLiteral (0 :: t) = ([], false) := by
  rw [decodeLiteral.eq_def]
  rfl

theorem decodeLiteral_quote (t : Bytes) : decodeLiteral (quote :: t) = ([], true) := by
  rw [decodeLiteral.eq_def]
  rfl

theorem decodeLiteral_escape (e : UInt8) (t : Bytes) : decodeLiteral (backslash :: e :: t) =
    (unescapeByte e :: (decodeLiteral t).1, (decodeLiteral t).2) := by
  rw [decodeLiteral.eq_def]
  rfl

theorem decodeLiteral_byte {b : UInt8} (h0 : b ≠ 0) (hq : b ≠ quote) (hb : b ≠ backslash)
    (t : Bytes) : decodeLiteral (b :: t) = (b :: (decodeLiteral t).1, (decodeLiteral t).2) := by
  rw [decodeLiteral.eq_def]
  simp [h0, hq, hb]

/-- The loop decodes as far as there is room. -/
theorem copyMemory_eq (room : Nat) (memory : Bytes) : copyMemory room memory =
    if (decodeLiteral memory).1.length ≤ room then
      ((decodeLiteral memory).1, if (decodeLiteral memory).2 then .closed else .unterminated)
    else ((decodeLiteral memory).1.take room, .overlong) := by
  fun_induction copyMemory room memory with
  | case1 room => simp [decodeLiteral]
  | case2 room t => simp [decodeLiteral_zero]
  | case3 room t h0 => simp [decodeLiteral_quote]
  | case4 room h0 hq => rfl
  | case5 e t h0 hq => simp [decodeLiteral_escape]
  | case6 e t room h0 hq ih =>
    rw [ih, decodeLiteral_escape, List.length_cons]
    by_cases hle : (decodeLiteral t).1.length ≤ room
    · rw [if_pos hle, if_pos (Nat.succ_le_succ hle)]
    · rw [if_neg hle, if_neg (by omega), List.take_succ_cons]
  | case7 b t h0 hq hb => simp [decodeLiteral_byte h0 hq hb]
  | case8 b t h0 hq hb room ih =>
    rw [ih, decodeLiteral_byte h0 hq hb, List.length_cons]
    by_cases hle : (decodeLiteral t).1.length ≤ room
    · rw [if_pos hle, if_pos (Nat.succ_le_succ hle)]
    · rw [if_neg hle, if_neg (by omega), List.take_succ_cons]

/-- **A failed read keeps its buffer exactly where it writes nothing new.** -/
theorem failsClean_iff (text behind : Bytes) (key : String) (output : Bytes) :
    FailsClean text behind key output ↔ WritesNothingNew text behind key output := by
  unfold FailsClean WritesNothingNew wtJsonReadStringInto
  have hkeeps : ∀ written : Bytes, written ++ output.drop written.length = output ↔
      written <+: output := fun written => List.prefix_iff_eq_append.symm
  cases hfind : findFieldValue text key with
  | none => simp
  | some found =>
    cases found with
    | nil => simp
    | cons b cursor =>
      dsimp only
      split
      · rename_i hno
        refine iff_of_true (fun _ => rfl) fun cursor' hcursor hne => ?_
        rw [Option.some.injEq, List.cons.injEq] at hcursor
        rcases hno with hb | hempty
        · exact absurd hcursor.1 hb
        · exact absurd (List.eq_nil_of_length_eq_zero hempty) hne
      · rename_i hstring
        rw [not_or, not_not] at hstring
        obtain ⟨rfl, hsize⟩ := hstring
        have hne : output ≠ [] := fun hnil => hsize (by rw [hnil]; rfl)
        have hall : ∀ P : Bytes → Prop, (∀ cursor', some (quote :: cursor) = some (quote :: cursor') →
            output ≠ [] → P cursor') ↔ P cursor := fun P =>
          ⟨fun h => h cursor rfl hne, fun h cursor' hcursor _ => by cases hcursor; exact h⟩
        rw [hall, copyMemory_eq]
        generalize decodeLiteral (cursor ++ 0 :: behind) = decoded
        by_cases hfits : decoded.1.length ≤ output.length - 1
        · have hlt : decoded.1.length < output.length := by omega
          have hdrop : (decoded.1 ++ [0]) ++ output.drop (decoded.1 ++ [0]).length =
              decoded.1 ++ 0 :: output.drop (decoded.1.length + 1) := by simp
          cases hclosed : decoded.2 with
          | true =>
            simp only [hfits, if_true]
            refine iff_of_true (fun h => ?_) ⟨fun _ h => ?_, fun h => ?_⟩
            · cases h
            · cases h
            · omega
          | false =>
            simp only [hfits, if_true, hlt]
            rw [← hkeeps, hdrop]
            simp
            omega
        · have hle : output.length ≤ decoded.1.length := by omega
          have hlen : (decoded.1.take (output.length - 1)).length = output.length - 1 := by
            rw [List.length_take]
            omega
          simp only [hfits, if_false]
          rw [← hkeeps (decoded.1.take (output.length - 1))]
          simp [hle]

theorem decodeLiteral_of_closed {room : Nat} {s : Bytes} (h0 : 0 ∉ s)
    (h : (copyString room s).2 = true) (rest : Bytes) :
    decodeLiteral (s ++ rest) = ((copyString room s).1, true) := by
  fun_induction copyString room s with
  | case1 => cases h
  | case2 b t =>
    have hb : b = quote := by simpa using h
    rw [hb, List.cons_append, decodeLiteral_quote]
  | case3 room t => exact decodeLiteral_quote _
  | case4 => cases h
  | case5 room e t hq ih =>
    rw [List.cons_append, List.cons_append, decodeLiteral_escape,
      ih (fun hz => h0 (by simp [hz])) h]
  | case6 room b t hq hb ih =>
    have hzero : b ≠ 0 := fun hz => h0 (by simp [hz])
    rw [List.cons_append, decodeLiteral_byte hzero hq hb, ih (fun hz => h0 (by simp [hz])) h]

/-- A read that succeeds writes the value and its terminator. -/
theorem readStringInto_ok {text behind output value : Bytes} {key : String} (h0 : 0 ∉ text)
    (h : wtJsonReadString text key output.length = .ok value) :
    wtJsonReadStringInto text behind key output =
      (0, value ++ 0 :: output.drop (value.length + 1)) := by
  unfold wtJsonReadString at h
  unfold wtJsonReadStringInto
  cases hfind : findFieldValue text key with
  | none => simp [hfind] at h
  | some found =>
    cases found with
    | nil => simp [hfind] at h
    | cons b cursor =>
      have hcursor : 0 ∉ cursor := fun hz =>
        h0 ((findFieldFrom_suffix hfind).subset (List.mem_cons_of_mem _ hz))
      rw [hfind] at h
      dsimp only at h ⊢
      split at h
      · cases h
      · rename_i hstring
        rw [if_neg hstring]
        split at h
        · rename_i hclosed
          cases h
          have hlen := copyString_length (output.length - 1) cursor
          rw [copyMemory_eq, decodeLiteral_of_closed hcursor hclosed, if_pos hlen]
          rfl
        · cases h

/-! ## Events -/

/-- A failed read is not a success. -/
def StringField.failed : StringField → Bool
  | .ok _ => false
  | _ => true

/-- An event whose read of a field fails leaves the field of the task as it was. -/
def EventKeeps (line : Bytes) (task : WtTaskSummary) : Prop :=
  ((wtJsonReadString line "status" wtTaskStatusSize).failed →
    (overlayTaskEvent line task).status = task.status) ∧
  ((wtJsonReadString line "assignedAgent" wtTaskAgentSize).failed →
    (overlayTaskEvent line task).assignedAgent = task.assignedAgent)

theorem overwrite_keeps_iff {r : StringField} {old : Bytes} :
    (r.failed → r.overwrite old = old) ↔ ∀ written, r = .cut written → written = old := by
  cases r <;> simp [StringField.failed, StringField.overwrite]

theorem eventKeeps_iff (line : Bytes) (task : WtTaskSummary) : EventKeeps line task ↔
    (∀ written, wtJsonReadString line "status" wtTaskStatusSize = .cut written →
      written = task.status) ∧
    ∀ written, wtJsonReadString line "assignedAgent" wtTaskAgentSize = .cut written →
      written = task.assignedAgent :=
  and_congr overwrite_keeps_iff overwrite_keeps_iff

/-! ## Configuration requests -/

def isText (kind : SettingKind) : Bool := kind == .name || kind == .path

def PostedKey.isNumber : PostedKey → Bool
  | long .. => true
  | _ => false

/-- The value of a field cannot be read from the body: its text, or its number. -/
def fieldFails (body : Bytes) (i : Fin configKeys.length) : Bool :=
  if isText (configKeys.get i).kind then
    (wtJsonReadString body (configKeys.get i).key (configKeys.get i).kind.size).failed
  else (wtJsonReadLong body (configKeys.get i).key).isNone

/-- A request leaves every field that cannot be read as it was. -/
def ConfigKeeps (config : WtConfig) (body : Bytes) : Prop :=
  ∀ i, fieldFails body i → (applyPosted config body).value i = config.value i

/-- The fields whose texts a request sets. -/
def postedText (i : Fin configKeys.length) : Bool :=
  isText (configKeys.get i).kind && postedKeys.any fun posted =>
    posted.key == (configKeys.get i).key

section config

variable {config : WtConfig} {body : Bytes} {posted : PostedKey} {i j : Fin configKeys.length}

theorem PostedKey.Sets.key (h : posted.Sets i) : (configKeys.get i).key = posted.key := by
  cases posted with
  | long => exact h.1
  | name => exact h.1
  | path => exact h.1

/-- A number is not set from the key of a text. -/
theorem kind_of_number (hmem : posted ∈ postedKeys) (hnumber : posted.isNumber)
    (hkey : (configKeys.get i).key = posted.key) : isText (configKeys.get i).kind = false := by
  have hall : postedKeys.all (fun posted => !posted.isNumber || configKeys.all fun setting =>
      setting.key != posted.key || !isText setting.kind) = true := by decide +kernel
  have hposted := List.all_eq_true.mp hall posted hmem
  rw [hnumber, Bool.not_true, Bool.false_or] at hposted
  have hsetting := List.all_eq_true.mp hposted (configKeys.get i) (List.get_mem _ _)
  rw [hkey, bne_self_eq_false, Bool.false_or] at hsetting
  simpa using hsetting

/-- What each key of a request that sets the field keeps, a row of keys keeps. -/
theorem foldl_value {P : SettingValue → Prop} {keys : List PostedKey}
    (hkeys : ∀ posted ∈ keys, posted ∈ postedKeys)
    (hstep : ∀ posted ∈ postedKeys, posted.Sets i → ∀ config, P (config.value i) →
      P ((posted.apply body config).value i))
    (h : P (config.value i)) : P ((keys.foldl (PostedKey.apply body) config).value i) := by
  induction keys generalizing config with
  | nil => exact h
  | cons posted keys ih =>
    rw [List.forall_mem_cons] at hkeys
    refine ih hkeys.2 ?_
    obtain ⟨j, hj⟩ := postedKeys_sets posted hkeys.1
    by_cases hij : i = j
    · exact hstep posted hkeys.1 (hij ▸ hj) config h
    · obtain ⟨value, hvalue, -⟩ := hj.apply config body
      rw [hvalue, Function.update_of_ne hij]
      exact h

/-- A key of a text sets what is written to its array. -/
theorem value_apply_text (hset : posted.Sets i) (hmem : posted ∈ postedKeys)
    (hkind : isText (configKeys.get i).kind)
    (config : WtConfig) : (posted.apply body config).value i =
      match (wtJsonReadString body (configKeys.get i).key (configKeys.get i).kind.size).written with
      | some written => .text written
      | none => config.value i := by
  have hvalue : ∀ {size : Nat} [NeZero size] (old : CString size) (config' : WtConfig),
      (configKeys.get i).kind.size = size → config.value i = .text old.text →
      config'.values =
        config.values.set i (.text (readInto size body (configKeys.get i).key old).text) →
      config'.value i =
        match (wtJsonReadString body (configKeys.get i).key
          (configKeys.get i).kind.size).written with
        | some written => .text written
        | none => config.value i := by
    intro size _ old config' hsize hold hvalues
    rw [value_of_values hvalues, Function.update_self, readInto_text, hsize, hold]
    cases (wtJsonReadString body (configKeys.get i).key size).written <;> rfl
  cases posted with
  | long key assign =>
    rw [kind_of_number hmem rfl hset.1] at hkind
    cases hkind
  | name key array assign =>
    obtain ⟨rfl, hname, hassign⟩ := hset
    exact hvalue (array config) _ (by rw [hname]; rfl) (hassign config (array config)).1
      (hassign config _).2
  | path key array assign =>
    obtain ⟨rfl, hpath, hassign⟩ := hset
    exact hvalue (array config) _ (by rw [hpath]; rfl) (hassign config (array config)).1
      (hassign config _).2

theorem configKeeps_iff (config : WtConfig) (body : Bytes) : ConfigKeeps config body ↔
    ∀ i, postedText i → ∀ written,
      wtJsonReadString body (configKeys.get i).key (configKeys.get i).kind.size = .cut written →
        config.value i = .text written := by
  constructor
  · intro h i htext written hread
    rw [postedText, Bool.and_eq_true] at htext
    obtain ⟨hkind, hposted⟩ := htext
    obtain ⟨posted, hmem, hkey⟩ := List.any_eq_true.mp hposted
    obtain ⟨j, hj⟩ := postedKeys_sets posted hmem
    obtain rfl : j = i := keys_inj (congrArg bytes (hj.key.trans (beq_iff_eq.mp hkey)))
    have hset : ∀ posted ∈ postedKeys, posted.Sets j → ∀ config,
        (posted.apply body config).value j = .text written := by
      intro posted hmem hset config
      rw [value_apply_text hset hmem hkind, hread]
      rfl
    rw [← h j (by rw [fieldFails, if_pos hkind, hread]; rfl), applyPosted]
    -- the key's own read writes the text, and no later one takes it away
    obtain ⟨before, after, hkeys⟩ := List.append_of_mem hmem
    have hafter : ∀ posted ∈ after, posted ∈ postedKeys := fun p hp => by
      rw [hkeys]
      simp [hp]
    rw [hkeys, List.foldl_append, List.foldl_cons]
    exact foldl_value (P := fun value => value = .text written) hafter
      (fun p hp hsets config _ => hset p hp hsets config) (hset posted hmem hj _)
  · intro h i hfails
    refine foldl_value (P := fun value => value = config.value i) (fun _ hp => hp) ?_ rfl
    intro posted hmem hset config' hconfig'
    by_cases hkind : isText (configKeys.get i).kind
    · rw [fieldFails, if_pos hkind] at hfails
      rw [value_apply_text hset hmem hkind]
      cases hread : wtJsonReadString body (configKeys.get i).key (configKeys.get i).kind.size with
      | absent => exact hconfig'
      | ok => rw [hread] at hfails; cases hfails
      | cut written =>
        have htext : postedText i := by
          rw [postedText, hkind, Bool.true_and, List.any_eq_true]
          exact ⟨posted, hmem, beq_iff_eq.mpr hset.key.symm⟩
        exact (h i htext written hread).symm
    · rw [fieldFails, if_neg hkind, Option.isNone_iff_eq_none] at hfails
      cases posted with
      | long key assign =>
        have hnone : wtJsonReadLong body key = none := hset.1 ▸ hfails
        rw [PostedKey.apply, hnone]
        exact hconfig'
      | name key array assign => exact absurd (by rw [hset.2.1]; rfl) hkind
      | path key array assign => exact absurd (by rw [hset.2.1]; rfl) hkind

end config

end WovenTeam

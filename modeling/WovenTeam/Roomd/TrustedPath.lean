import WovenTeam.Roomd.Requests
import WovenTeam.Roomd.DeliverableRoot

/-!
# Trusted paths

`handlePostTaskArtifact` checks the path of an artifact so that the projection can be trusted, but
the projection takes it from any record of a task. `acceptedPaths_safe`: as long as no client's
record names an unsafe path as accepted, every path the projection has is a safe name, and what is
shipped lies in the task's workspace.
-/

namespace WovenTeam

open CText QuotedText LineReader UnixPath FirstSeen Runs

/-- The line gives the projection no path of an accepted artifact but a safe name. -/
def SafeLine (line : Bytes) : Prop :=
  ∀ taskId p, acceptedPath taskId (stripLineEnd line) = some p → isSafeArtifactName p = true

section lines

variable {line : Bytes}

/-- A line that is read with no path or a safe one. -/
theorem SafeLine.of_read (h : (wtJsonReadString line "artifactPath" 512).orElse [] = [] ∨
    isSafeArtifactName ((wtJsonReadString line "artifactPath" 512).orElse []) = true) :
    SafeLine line := by
  intro taskId p hp
  obtain ⟨fields, hfields, hpath⟩ := Option.bind_eq_some_iff.mp hp
  have hread := (Option.ite_none_right_eq_some.mp hfields).2
  split at hpath
  · rename_i haccepted
    cases hpath
    have heq : fields.artifactPath = (wtJsonReadString line "artifactPath" 512).orElse [] := by
      rw [← Option.some.inj hread]
      exact readString_orElse_stripLineEnd (by decide) line 512 []
    rw [heq] at haccepted ⊢
    exact h.resolve_left haccepted.2
  · cases hpath

theorem SafeLine.of_lacks {record : Members} (h : record.Lacks (bytes "artifactPath")) :
    SafeLine (recordLine record) := by
  refine .of_read (.inl ?_)
  have hkey : FieldKey "artifactPath" := .of_check rfl
  rw [recordLine, wtJsonReadString_object_absent hkey quote_notMem_newline h]
  rfl

/-- A line of another schema is no event. -/
theorem SafeLine.of_schema (hevent : lineHasSchema line taskEventSchema = false)
    (hrequest : lineHasSchema line taskRequestSchema = false) : SafeLine line := by
  intro taskId p hp
  obtain ⟨fields, hfields, -⟩ := Option.bind_eq_some_iff.mp hp
  have hschema := (Option.ite_none_right_eq_some.mp hfields).1.2.2.1
  rw [lineHasSchema_stripLineEnd, lineHasSchema_stripLineEnd] at hschema
  simp [hevent, hrequest] at hschema

end lines

/-! ## Safe names -/

section names

variable {name : Bytes}

theorem safeName_iff : isSafeArtifactName name = true ↔ name ≠ [] ∧
    (∀ b ∈ name, isAlnum b ∨ b = 95 ∨ b = 45 ∨ b = 46) ∧ ¬ bytes ".." <:+: name := by
  rw [isSafeArtifactName, ← strstr_isSome_iff]
  simp [or_assoc, and_assoc]

theorem decodes_safeName (h : isSafeArtifactName name = true) : Decodes name := by
  intro b hb
  have halnum : ∀ b, isAlnum b = true → 32 ≤ b := by
    intro b hb
    simp only [isAlnum, isDigit, Bool.or_eq_true, Bool.and_eq_true, decide_eq_true_eq] at hb
    have hlow : ∀ low : UInt8, 32 ≤ low → low ≤ b → 32 ≤ b := fun _ => UInt8.le_trans
    rcases hb with (hb | hb) | hb
    · exact hlow 48 (by decide) hb.1
    · exact hlow 65 (by decide) hb.1
    · exact hlow 97 (by decide) hb.1
  rcases (safeName_iff.mp h).2.1 b hb with hb | rfl | rfl | rfl
  · exact .inl (halnum b hb)
  · exact .inl (by decide)
  · exact .inl (by decide)
  · exact .inl (by decide)

theorem separator_notMem_safeName (h : isSafeArtifactName name = true) : separator ∉ name := by
  intro hmem
  rcases (safeName_iff.mp h).2.1 _ hmem with hb | hb | hb | hb
  · exact absurd hb (by decide)
  all_goals exact absurd hb (by decide)

/-- A safe name leads to its directory or one below it. -/
theorem under_safeName (h : isSafeArtifactName name = true) (dir : List Bytes) :
    Under dir (walk dir (strtok separator name)) := by
  obtain ⟨hne, -, hdots⟩ := safeName_iff.mp h
  have hstrtok : strtok separator name = [name] := by
    rw [strtok, splitOn_of_notMem (separator_notMem_safeName h)]
    simp [hne]
  rw [hstrtok, walk, List.foldl_cons, List.foldl_nil, UnixPath.step]
  split
  · exact List.prefix_refl dir
  · rw [if_neg fun heq : name = bytes ".." => hdots (heq ▸ List.infix_refl _)]
    exact List.prefix_append dir [name]

end names

/-! ## The lines of the requests -/

/-- The record of an artifact request has a path that was checked. -/
theorem safeLine_review {body : Bytes} {review : ArtifactReview}
    (h : readArtifactReview body = .ok review) (now : Long) :
    SafeLine (recordLine (StoreEvent.artifact review.taskId review.state review.reviewer
      review.notes review.artifactPath now).record) := by
  have hsafe : review.artifactPath = [] ∨ isSafeArtifactName review.artifactPath = true := by
    unfold readArtifactReview at h
    split at h
    · split at h
      · cases h
      · dsimp only at h
        split at h
        · cases h
        · rename_i hpath
          cases h
          simpa [or_iff_not_imp_left] using hpath
    all_goals cases h
  have hreread : reread review.artifactPath = review.artifactPath := by
    rcases hsafe with hempty | hsafe
    · rw [hempty]
      rfl
    · exact reread_eq_self_iff.mpr (decodes_safeName hsafe)
  let event : StoreEvent := .artifact review.taskId review.state review.reviewer review.notes
    review.artifactPath now
  have hkey : SearchKey "artifactPath" := ⟨by decide, by decide, by decide, by decide⟩
  have hfield : fieldNamed event.fields "artifactPath" = some (.text review.artifactPath) := by
    simp +decide [event, fieldNamed, StoreEvent.fields]
  have hread := readString_fields event.fieldNames hkey 512
  rw [hfield] at hread
  refine .of_read ?_
  change (wtJsonReadString (fieldsLine event.fields) "artifactPath" 512).orElse [] = [] ∨
    isSafeArtifactName ((wtJsonReadString (fieldsLine event.fields) "artifactPath" 512).orElse [])
  rw [hread, Option.map_some, Option.getD_some, readString_text _ (by decide), hreread]
  split
  · exact hsafe
  · exact .inl rfl

theorem safeLine_scan {mode : WtDeliverableMode} {taskId deliv scanId source : Literal}
    {scan : Scan} {now : Int} :
    SafeLine (secretScanText mode taskId deliv scanId source scan now ++ [newline]) := by
  have hread (rest : Bytes) : wtJsonReadString (secretScanHead ++ rest) "schema" 128 =
      .ok (bytes "woventeam.secret_scan.v0.1") := by
    have hplain : Plain (bytes "woventeam.secret_scan.v0.1") := by decide
    rw [secretScanHead_eq]
    simp only [List.append_assoc, List.cons_append, List.nil_append]
    exact wtJsonReadString_first hplain (by decide) (by decide)
  have hschema : ∀ schema : String, bytes "woventeam.secret_scan.v0.1" ≠ bytes schema →
      lineHasSchema (secretScanText mode taskId deliv scanId source scan now ++ [newline])
        schema = false := by
    intro schema hne
    simp only [secretScanText, List.append_assoc]
    rw [lineHasSchema, hread]
    simpa using hne
  exact .of_schema (hschema taskEventSchema (by decide)) (hschema taskRequestSchema (by decide))

theorem safeLine_of_line {r : ApiRequest} {ledger : Ledger} {line : Bytes}
    (hclient : ∀ line ∈ r.clientLines ledger, SafeLine line) (h : r.Line ledger line) :
    SafeLine line := by
  cases h with
  | work hrecord => exact .of_lacks hrecord.noPath
  | client hline => exact hclient line hline
  | review _ hread => exact safeLine_review hread _
  | issue _ hrecord =>
    simp only [Issue.record, Option.bind_eq_bind, Option.bind_eq_some_iff, Option.pure_def,
      Option.some.injEq] at hrecord
    obtain ⟨_, -, _, -, _, -, _, -, _, -, rfl⟩ := hrecord
    exact .of_lacks rfl
  | revoke => exact .of_lacks rfl
  | host => exact .of_lacks rfl
  | scan => exact safeLine_scan

/-! ## Runs -/

/-- No record of a client in the ledger names an unsafe path as accepted. -/
def ClientsSafe (state : Option Ledger) (r : ApiRequest) : Prop :=
  ∀ ledger ∈ state, ∀ line ∈ r.clientLines ledger, SafeLine line

/-- The path the projection has of a task is a safe name. -/
theorem acceptedPath_safe {ledger : Ledger} (h : ∀ line ∈ ledger, SafeLine line) {taskId : Bytes}
    {row : TaskRow} (hrow : projectedRow ledger taskId = some row)
    (hne : row.acceptedArtifactPath ≠ []) :
    isSafeArtifactName row.acceptedArtifactPath = true ∧ row.acceptedArtifactPath.length < 512 := by
  rw [projectedRow_acceptedPath hrow] at hne ⊢
  cases hlast : lastOf (acceptedPath taskId) (laterLines ledger taskId) with
  | none => exact absurd (by rw [hlast]; rfl) hne
  | some p =>
    obtain ⟨stripped, hmem, hp⟩ := List.mem_filterMap.mp (List.mem_of_getLast? hlast)
    have hstripped : stripped ∈ ledger.map stripLineEnd :=
      (List.dropWhile_sublist _).mem (List.mem_of_mem_tail hmem)
    obtain ⟨line, hline, rfl⟩ := List.mem_map.mp hstripped
    exact ⟨h line hline taskId p hp, (acceptedPath_spec hp).2⟩

theorem under_source {config : WtConfig} {taskId rel : Bytes} (htask : taskId.length < wtTaskIdSize)
    (hsafe : isSafeArtifactName rel = true) (hrel : rel.length < 512) (cwd : List Bytes) :
    Under (normalise cwd (config.runtimeRootPath.text ++ separator :: taskId))
      (normalise cwd (snprintf wtDeliverablePathSize
        (config.runtimeRootPath.text ++ slash :: (taskId ++ slash :: rel)))) := by
  have hruntime := config.runtimeRootPath.fits
  have hsource : snprintf wtDeliverablePathSize
      (config.runtimeRootPath.text ++ slash :: (taskId ++ slash :: rel)) =
        (config.runtimeRootPath.text ++ separator :: taskId) ++ separator :: rel := by
    refine (snprintf_of_lt ?_).trans (by simp [slash, separator])
    simp only [List.length_append, List.length_cons]
    simp only [wtDeliverablePathSize, wtPathSize, wtTaskIdSize] at *
    omega
  have hne : config.runtimeRootPath.text ++ separator :: taskId ≠ [] := by simp
  rw [hsource, normalise_append cwd hne]
  exact under_safeName hsafe _

theorem under_workspace {ledger : Ledger} (h : ∀ line ∈ ledger, SafeLine line) {world : World}
    {config : WtConfig} {request : Bytes} {ship : WtDeliverableRequest} {shipment : Shipment}
    (hship : (handlePostTaskDeliverable world config ledger request).1 = some (ship, shipment))
    (cwd : List Bytes) :
    Under (normalise cwd (config.runtimeRootPath.text ++ separator :: ship.taskId))
      (normalise cwd ship.sourcePath) := by
  unfold handlePostTaskDeliverable at hship
  split at hship
  · cases hship
  · rename_i body _
    split at hship
    · rename_i taskId htask
      dsimp only at hship
      split at hship
      · cases hship
      · rename_i mode _
        split at hship
        · cases hship
        · cases hship
        · rename_i initiativeId rel hresolve
          cases hship
          obtain ⟨row, hrow, hresolved⟩ := Option.map_eq_some_iff.mp hresolve
          obtain ⟨haccepted, hrel⟩ :=
            Option.ite_none_right_eq_some.mp (Prod.mk.inj hresolved).2
          obtain ⟨hsafe, hlength⟩ := acceptedPath_safe h hrow haccepted.2
          rw [snprintf_of_lt hlength] at hrel
          cases hrel
          exact under_source (wtJsonReadString_length htask) hsafe hlength cwd
    · cases hship

/-- An event that accepts a file outside of the task's workspace. -/
def climbingEvent : Bytes :=
  bytes ("\x7b\"schema\":\"woventeam.task_event.v0.1\",\"taskId\":\"t\"," ++
    "\"status\":\"done\",\"eventType\":\"artifact\",\"artifactState\":\"accepted\"," ++
    "\"artifactPath\":\"../../x\"\x7d")

/-- A package and the event. -/
def climbingRun : List ApiRequest :=
  [.taskPackage openaiBlocked swappedModelRequest firstClock,
    .taskEvent (eventRequest climbingEvent) stoppedClock]

end WovenTeam

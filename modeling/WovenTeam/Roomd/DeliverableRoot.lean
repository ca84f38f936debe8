import WovenTeam.Roomd.ShipGate
import WovenTeam.Lib.UnixPath

/-!
# The root of deliverables

A copy or a tarball is written to a path joined of the configured root, the initiative and a name
the client may choose, and none of the parts is checked. `staysUnder_iff` says for which parts the
path stays where it belongs: where the initiative and the name never climb above the directory they
are joined to, or come back by the names they climbed out of.
-/

namespace WovenTeam

open CText UnixPath

/-- The directory of the initiative. -/
def initiativeDir (config : WtConfig) (initiativeId : Bytes) : Bytes :=
  config.deliverableRoot.text ++ slash :: initiativeId

/-- The file is at or below the directory of its initiative, and that at or below the root. -/
structure StaysUnder (cwd : List Bytes) (config : WtConfig) (request : WtDeliverableRequest) :
    Prop where
  file : Under (normalise cwd (initiativeDir config request.initiativeId))
    (normalise cwd (publishedPath config request))
  dir : Under (normalise cwd config.deliverableRoot.text)
    (normalise cwd (initiativeDir config request.initiativeId))

/-- The name of the file that is written. -/
def fileName (request : WtDeliverableRequest) : Bytes :=
  baseName request ++ if request.mode = .tarball then bytes ".tar.gz" else []

/-- The initiative stays under the root. An empty root is the working directory, but what is joined
to it is read from the root of the file system. -/
def InitiativeReturns (cwd : List Bytes) (config : WtConfig) (initiativeId : Bytes) : Prop :=
  if config.deliverableRoot.text = [] then cwd <+: (climb (strtok slash initiativeId)).down
  else Returns (normalise cwd config.deliverableRoot.text) (strtok slash initiativeId)

/-- Both parts return to where they start. -/
structure PartsReturn (cwd : List Bytes) (config : WtConfig) (request : WtDeliverableRequest) :
    Prop where
  file : Returns (normalise cwd (initiativeDir config request.initiativeId))
    (strtok slash (fileName request))
  initiative : InitiativeReturns cwd config request.initiativeId

section path

variable {config : WtConfig} {request : WtDeliverableRequest}

/-- Nothing of the path is cut off. -/
theorem publishedPath_eq (hinitiative : request.initiativeId.length < wtTaskIdSize)
    (hbase : (baseName request).length < 512) (hmode : request.mode = .copy ∨ request.mode = .tarball) :
    publishedPath config request =
      initiativeDir config request.initiativeId ++ slash :: fileName request := by
  have hroot := config.deliverableRoot.fits
  have hdir : destDir config request = initiativeDir config request.initiativeId := by
    refine snprintf_of_lt ?_
    simp only [List.length_append, List.length_cons]
    simp only [wtDeliverablePathSize, wtPathSize, wtTaskIdSize] at *
    omega
  have hdirLength : (initiativeDir config request.initiativeId).length < 384 := by
    simp only [initiativeDir, List.length_append, List.length_cons]
    simp only [wtPathSize, wtTaskIdSize] at *
    omega
  rcases hmode with hmode | hmode
  · have hname : fileName request = baseName request := by simp [fileName, hmode]
    simp only [publishedPath, hmode]
    rw [copyPath, hdir, hname, snprintf_of_lt]
    simp only [List.length_append, List.length_cons, wtDeliverablePathSize]
    omega
  · have hname : fileName request = baseName request ++ bytes ".tar.gz" := by
      simp [fileName, hmode]
    have hsuffix : (bytes ".tar.gz").length = 7 := by decide
    simp only [publishedPath, hmode]
    rw [tarballPath, hdir, hname, snprintf_of_lt]
    simp only [List.length_append, List.length_cons, wtDeliverablePathSize, hsuffix]
    omega

theorem staysUnder_of_path {cwd : List Bytes}
    (hpath : publishedPath config request =
      initiativeDir config request.initiativeId ++ slash :: fileName request) :
    StaysUnder cwd config request ↔ PartsReturn cwd config request := by
  have hne : initiativeDir config request.initiativeId ≠ [] := by simp [initiativeDir]
  have hfile : Under (normalise cwd (initiativeDir config request.initiativeId))
      (normalise cwd (publishedPath config request)) ↔
        Returns (normalise cwd (initiativeDir config request.initiativeId))
          (strtok slash (fileName request)) := by
    rw [hpath, ← under_walk_iff]
    exact iff_of_eq (congrArg _ (normalise_append cwd hne _))
  have hdir : Under (normalise cwd config.deliverableRoot.text)
      (normalise cwd (initiativeDir config request.initiativeId)) ↔
        InitiativeReturns cwd config request.initiativeId := by
    unfold InitiativeReturns initiativeDir
    split
    · rename_i hroot
      rw [hroot, List.nil_append]
      exact iff_of_eq (congrArg (Under cwd) (normalise_absolute cwd _))
    · rename_i hroot
      rw [← under_walk_iff]
      exact iff_of_eq (congrArg _ (normalise_append cwd hroot _))
  constructor
  · exact fun h => ⟨hfile.mp h.file, hdir.mp h.dir⟩
  · exact fun h => ⟨hfile.mpr h.file, hdir.mpr h.initiative⟩

theorem written_length {json text : Bytes} {key : String} {size : Nat}
    (h : (wtJsonReadString json key size).written = some text) : text.length < size := by
  unfold wtJsonReadString at h
  split at h
  · cases h
  · cases h
  · rename_i cursor _
    have hcopied := copyString_length (size - 1) cursor
    split at h
    · cases h
    · rename_i hstring
      dsimp only at h
      split at h
      · cases h
        omega
      · cases h
        omega

theorem optionalText_length {body text : Bytes} {key : String} {size : Nat}
    (h : optionalText body key size = some text) : text.length < size := by
  unfold optionalText at h
  split at h
  · cases h
  · rename_i b rest hread
    cases h
    rw [StringField.overwrite_eq] at hread
    cases hwritten : (wtJsonReadString body key size).written with
    | none => simp [hwritten] at hread
    | some written =>
      rw [hwritten, Option.getD_some] at hread
      exact written_length (hwritten.trans (congrArg some hread))

theorem rtakeWhile_slash_length (front rest : Bytes) :
    ((front ++ slash :: rest).rtakeWhile (· != slash)).length ≤ rest.length := by
  rw [List.rtakeWhile, List.length_reverse, List.reverse_append, List.reverse_cons,
    List.append_assoc, List.takeWhile_append]
  split
  · simp
  · have hle := (List.takeWhile_prefix (· != slash) (l := rest.reverse)).length_le
    rwa [List.length_reverse] at hle

end path

/-- **The file of a copy or a tarball stays under its root exactly where both parts return.** -/
theorem staysUnder_iff (cwd : List Bytes) (config : WtConfig) (body : Bytes)
    (taskId initiativeId : CString wtTaskIdSize) (artifactRel : CString 512) (tarball : Bool) :
    let mode := if tarball then WtDeliverableMode.tarball else .copy
    let request := deliverableRequest config body taskId.text mode initiativeId.text artifactRel.text
    StaysUnder cwd config request ↔ PartsReturn cwd config request := by
  intro mode request
  have hmode : request.mode = .copy ∨ request.mode = .tarball := by
    cases tarball
    · exact .inl rfl
    · exact .inr rfl
  refine staysUnder_of_path (publishedPath_eq initiativeId.fits ?_ hmode)
  unfold baseName
  split
  · rename_i b base hbase
    exact Nat.lt_trans (optionalText_length hbase) (by decide)
  · have hartifact := artifactRel.fits
    have htask := taskId.fits
    have hruntime := config.runtimeRootPath.fits
    have hsource : request.sourcePath = (config.runtimeRootPath.text ++ slash :: taskId.text) ++
        slash :: artifactRel.text := by
      refine (snprintf_of_lt ?_).trans (by simp)
      simp only [List.length_append, List.length_cons]
      simp only [wtDeliverablePathSize, wtPathSize, wtTaskIdSize] at *
      omega
    rw [hsource]
    exact Nat.lt_of_le_of_lt (rtakeWhile_slash_length _ _) hartifact

def climbingBody : Bytes := bytes "\x7b\"destBasename\":\"../../x\"\x7d"

/-- The name of a copy climbs out of the root. -/
theorem not_staysUnder : ¬ ∀ (cwd : List Bytes) (config : WtConfig) (body : Bytes)
    (taskId initiativeId : CString wtTaskIdSize) (artifactRel : CString 512) (tarball : Bool),
    let mode := if tarball then WtDeliverableMode.tarball else .copy
    StaysUnder cwd config
      (deliverableRequest config body taskId.text mode initiativeId.text artifactRel.text) := by
  intro hall
  have hstays := hall [bytes "srv"] {} climbingBody ⟨bytes "t", by decide⟩
    ⟨bytes "i", by decide⟩ ⟨bytes "a.md", by decide⟩ false
  exact absurd hstays.file (by decide +kernel)

end WovenTeam

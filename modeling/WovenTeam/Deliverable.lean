import WovenTeam.SecretScan
import WovenTeam.Audit
import WovenTeam.Policy
import WovenTeam.Store.Events
import WovenTeam.Roomd.Http

/-!
# Shipping deliverables

`wt_deliverable.c`: an accepted artifact leaves the workspace of its task as a copy, as a tarball,
on a branch or on a branch with a pull request, and the ledger gets a record of it. What the
system answers a call is a `World`; the files a call makes and the commands it runs are its steps.

`publicationRecorded_iff` says when a publication is on the ledger: the record comes last, so
whatever fails behind the step that publishes leaves a publication without one.
-/

namespace WovenTeam

open CText QuotedText LineReader

abbrev wtDeliverableIdSize : Nat := 64
abbrev wtDeliverablePathSize : Nat := 1024

inductive WtDeliverableMode where
  | copy
  | tarball
  | branch
  | pr
  deriving DecidableEq, Repr

def wtDeliverableModeFromString (s : Bytes) : Option WtDeliverableMode :=
  if s = bytes "copy" then some .copy
  else if s = bytes "tarball" then some .tarball
  else if s = bytes "branch" then some .branch
  else if s = bytes "pull-request" ∨ s = bytes "pr" then some .pr
  else none

def wtDeliverableModeToString : WtDeliverableMode → Literal
  | .copy => .ofPlain "copy"
  | .tarball => .ofPlain "tarball"
  | .branch => .ofPlain "branch"
  | .pr => .ofPlain "pull-request"

/-- Nothing stands for a pointer that is null. -/
structure WtDeliverableRequest where
  taskId : Bytes
  initiativeId : Bytes
  sourcePath : Bytes
  destBasename : Option Bytes := none
  mode : WtDeliverableMode
  reviewer : Option Bytes := none
  createdBy : Option Bytes := none
  supersedes : Option Bytes := none
  repoPath : Option Bytes := none
  yesGate : Bool := false
  prTitle : Option Bytes := none
  prBody : Option Bytes := none
  autonomyElevated : Bool := false
  autonomyLevel : Option Bytes := none
  deriving DecidableEq

/-! ## The world of a call -/

/-- What a call does outside the process; the last four are the commands it gives to the shell. -/
inductive Step where
  | mkdirP (path : Bytes)
  | copyFileBytes (source destination : Bytes)
  | tar (command : Bytes)
  | checkout (command : Bytes)
  | push (command : Bytes)
  | pullRequest (command : Bytes)
  deriving DecidableEq, Repr

/-- Whether a step reports success, and whether it has made its file or put its branch on the
remote. -/
structure Effect where
  ok : Bool
  made : Bool
  deriving DecidableEq, Repr

/-- What `sha256sum` prints in front of a file's name. -/
structure Sha256 where
  digits : Literal
  length : digits.text.length = 64

/-- The time and the three random bytes of an id, where they could be read. -/
structure IdSeed where
  now : Int
  random : Option (UInt8 × UInt8 × UInt8)

/-- The answers of the system during one call. No call takes a step twice. -/
structure World where
  readable : Bytes → Bool
  sha256 : Bytes → Option (Sha256 × Int)
  contents : Bytes → Option Bytes
  present : Bytes → Bool
  regcomp : Regcomp
  run : Step → Effect
  deliverableSeed : IdSeed
  scanSeed : IdSeed
  recordedAt : Int
  scanRecordedAt : Int
  append : Bytes → Bool

def hexByte (b : UInt8) : Bytes := [hexDigit (b.toNat / 16), hexDigit (b.toNat % 16)]

def makeShortId (kind : String) (seed : IdSeed) : Bytes :=
  snprintf wtDeliverableIdSize (bytes kind ++ 95 :: decimal seed.now ++
    match seed.random with
    | some (a, b, c) => 95 :: (hexByte a ++ hexByte b ++ hexByte c)
    | none => [])

def World.deliverableId (world : World) : Bytes := makeShortId "deliv" world.deliverableSeed
def World.scanId (world : World) : Bytes := makeShortId "scan" world.scanSeed

def World.scan (world : World) (config : WtConfig) (request : WtDeliverableRequest) : Option Scan :=
  wtDeliverableScanFile config world.regcomp (world.contents config.secretScanPatternsFile.text)
    (world.contents request.sourcePath)

/-! ## Packaging -/

/-- What a packaging function leaves: its steps, the path in the result, and its error. -/
structure Packaging where
  steps : List Step
  deliverablePath : Bytes := []
  error : Option String := none
  deriving DecidableEq, Repr

section packaging

variable (world : World) (config : WtConfig) (request : WtDeliverableRequest)

def baseName : Bytes :=
  match request.destBasename with
  | some (b :: base) => b :: base
  | _ => request.sourcePath.rtakeWhile (· != slash)

/-- The directory of copies and tarballs. -/
def destDir : Bytes :=
  snprintf (wtDeliverablePathSize / 2)
    (config.deliverableRoot.text ++ slash :: request.initiativeId)

def copyPath : Bytes :=
  snprintf wtDeliverablePathSize (destDir config request ++ slash :: baseName request)

def copyStep : Step := .copyFileBytes request.sourcePath (copyPath config request)

def shipCopy : Packaging :=
  let mkdir := Step.mkdirP (destDir config request)
  let copy := copyStep config request
  if !(world.run mkdir).ok then { steps := [mkdir], error := some "deliverable_root_unwritable" }
  else {
    steps := [mkdir, copy]
    deliverablePath := copyPath config request
    error := if (world.run copy).ok then none else some "copy_failed" }

def tarballPath : Bytes :=
  snprintf wtDeliverablePathSize
    (destDir config request ++ slash :: (baseName request ++ bytes ".tar.gz"))

/-- `copyStringSafe` of the source path, split at its last slash. -/
def sourceParts : Bytes × Bytes :=
  let source := snprintf wtDeliverablePathSize request.sourcePath
  if slash ∈ source then
    ((source.rdropWhile (· != slash)).dropLast, source.rtakeWhile (· != slash))
  else (bytes ".", source)

def tarCommand : Bytes :=
  snprintf 4096 (bytes "tar -czf '" ++ tarballPath config request ++ bytes "' -C '" ++
    (sourceParts request).1 ++ bytes "' '" ++ (sourceParts request).2 ++ bytes "' 2>/dev/null")

def shipTarball : Packaging :=
  let mkdir := Step.mkdirP (destDir config request)
  let tar := Step.tar (tarCommand config request)
  if !(world.run mkdir).ok then { steps := [mkdir], error := some "deliverable_root_unwritable" }
  else {
    steps := [mkdir, tar]
    deliverablePath := tarballPath config request
    error := if (world.run tar).ok then none else some "tar_failed" }

/-- The command `runIn` gives to the shell. -/
def runIn (dir cmd : Bytes) : Bytes :=
  snprintf 4096 (bytes "cd '" ++ dir ++ bytes "' && " ++ cmd)

def repoDir : Bytes := request.repoPath.getD []

def branchName : Bytes :=
  snprintf 128 (config.deliverableBranchPrefix.text ++ slash :: request.initiativeId)

def checkoutStep : Step :=
  .checkout (runIn (repoDir request) (snprintf 2048 (bytes "git fetch origin '" ++
    branchName config request ++ bytes "' 2>/dev/null; git checkout '" ++
    branchName config request ++ bytes "' 2>/dev/null || git checkout -b '" ++
    branchName config request ++ bytes "' >/dev/null 2>&1")))

def destDirInRepo : Bytes :=
  snprintf (wtDeliverablePathSize / 2)
    (repoDir request ++ bytes "/deliverables/" ++ request.initiativeId)

def repoCopyPath : Bytes :=
  snprintf wtDeliverablePathSize (destDirInRepo request ++ slash :: baseName request)

def repoCopyStep : Step := .copyFileBytes request.sourcePath (repoCopyPath request)

def repoRelPath : Bytes :=
  snprintf wtDeliverablePathSize
    (bytes "deliverables/" ++ request.initiativeId ++ slash :: baseName request)

def commitMsg (deliverableId : Bytes) : Bytes :=
  snprintf 512 (bytes "Ship deliverable " ++ deliverableId ++ bytes " (task " ++ request.taskId ++
    bytes ")")

def pushStep (deliverableId : Bytes) : Step :=
  .push (runIn (repoDir request) (snprintf 2048 (bytes "git add '" ++ repoRelPath request ++
    bytes "' && git commit -m \"" ++ commitMsg request deliverableId ++
    bytes "\" >/dev/null 2>&1 && git push -u origin '" ++ branchName config request ++
    bytes "' >/dev/null 2>&1")))

def prTitleText (deliverableId : Bytes) : Bytes :=
  request.prTitle.getD (commitMsg request deliverableId)

def prBodyText (deliverableId : Bytes) : Bytes :=
  match request.prBody with
  | some (b :: body) => snprintf 1024 (b :: body)
  | _ => snprintf 1024 (bytes "Automated deliverable ship.\n\nDeliverable: " ++ deliverableId ++
      bytes "\nTask: " ++ request.taskId ++ bytes "\n")

def pullRequestStep (deliverableId : Bytes) : Step :=
  .pullRequest (runIn (repoDir request) (snprintf 2048 (bytes "gh pr create --head '" ++
    branchName config request ++ bytes "' --title \"" ++ prTitleText request deliverableId ++
    bytes "\" --body \"" ++ prBodyText request deliverableId ++ bytes "\" >/dev/null 2>&1")))

def shipBranch (deliverableId : Bytes) (openPullRequest : Bool) : Packaging :=
  let checkout := checkoutStep config request
  let mkdir := Step.mkdirP (destDirInRepo request)
  let copy := repoCopyStep request
  let push := pushStep config request deliverableId
  let pull := pullRequestStep config request deliverableId
  if openPullRequest && !request.yesGate then { steps := [], error := some "missing_yes_gate" }
  else if repoDir request = [] then { steps := [], error := some "repo_path_missing" }
  else if !world.present (snprintf wtDeliverablePathSize (repoDir request ++ bytes "/.git")) then
    { steps := [], error := some "repo_not_git" }
  else if !(world.run checkout).ok then
    { steps := [checkout], error := some "git_checkout_failed" }
  else if !(world.run mkdir).ok then
    { steps := [checkout, mkdir], error := some "repo_dir_unwritable" }
  else if !(world.run copy).ok then
    { steps := [checkout, mkdir, copy], deliverablePath := repoCopyPath request,
      error := some "copy_failed" }
  else if (wtJsonEscape (commitMsg request deliverableId) 1024).isNone then
    { steps := [checkout, mkdir, copy], deliverablePath := repoCopyPath request,
      error := some "commit_msg_encode_failed" }
  else if !(world.run push).ok then
    { steps := [checkout, mkdir, copy, push], deliverablePath := repoCopyPath request,
      error := some "git_push_failed" }
  else if !openPullRequest then
    { steps := [checkout, mkdir, copy, push], deliverablePath := repoCopyPath request }
  else {
    steps := [checkout, mkdir, copy, push, pull]
    deliverablePath := repoCopyPath request
    error := if (world.run pull).ok then none else some "gh_pr_create_failed" }

def package : Packaging :=
  match request.mode with
  | .copy => shipCopy world config request
  | .tarball => shipTarball world config request
  | .branch => shipBranch world config request world.deliverableId false
  | .pr => shipBranch world config request world.deliverableId true

end packaging

/-! ## Records -/

structure WtDeliverableResult where
  deliverableId : Bytes := []
  deliverablePath : Bytes := []
  sha256 : Bytes := []
  sizeBytes : Int := 0
  scanId : Bytes := []
  scan : Scan := {}
  errorReason : Bytes := []
  deriving DecidableEq, Repr

/-- `autonomyProvenance`, where the request has a level. -/
def provenance (elevated : Bool) (level : Literal) : Members :=
  raw "autonomyProvenance" "\x7b" ++
    (if elevated then raw "elevated" "true," else raw "elevated" "false,") ++
    str "autonomyLevel" level "\x7d,"

/-- The object `appendDeliverableEvent` prints of its escaped texts. -/
def deliverableMembers (mode : WtDeliverableMode) (elevated : Bool)
    (delivId taskId initiative source dest reviewer supersedes level createdBy : Literal)
    (sha256 : Sha256) (sizeBytes now : Int) : Members :=
  str "schema" (.ofPlain "woventeam.deliverable.v0.1") ++ str "deliverableId" delivId ++
  str "taskId" taskId ++ str "initiativeId" initiative ++ str "sourceWorkspacePath" source ++
  str "deliverablePath" dest ++ str "packagingMode" (wtDeliverableModeToString mode) ++
  num "sizeBytes" sizeBytes ++ str "sha256" sha256.digits ++ str "reviewer" reviewer ++
  (if supersedes.text = [] then raw "supersedes" "null," else str "supersedes" supersedes) ++
  (if level.text = [] then ⟨[], by simp⟩ else provenance elevated level) ++
  str "createdBy" createdBy ++ num "createdAtUnixMs" now "\x7d"

/-- The record of `appendDeliverableEvent`; nothing where a text or the record does not fit. -/
def deliverableRecord (request : WtDeliverableRequest) (deliverableId deliverablePath : Bytes)
    (sha256 : Sha256) (sizeBytes now : Int) : Option Members := do
  let taskId ← wtJsonEscape request.taskId (wtTaskIdSize * 2)
  let initiative ← wtJsonEscape request.initiativeId (wtTaskIdSize * 2)
  let source ← wtJsonEscape request.sourcePath (wtDeliverablePathSize * 2)
  let dest ← wtJsonEscape deliverablePath (wtDeliverablePathSize * 2)
  let reviewer ← wtJsonEscape (request.reviewer.getD []) (wtTaskAgentSize * 2)
  let createdBy ← wtJsonEscape (request.createdBy.getD (bytes "operator")) (wtTaskAgentSize * 2)
  let supersedes ← wtJsonEscape (request.supersedes.getD []) (wtDeliverableIdSize * 2)
  let delivId ← wtJsonEscape deliverableId (wtDeliverableIdSize * 2)
  let level ← wtJsonEscape (request.autonomyLevel.getD []) 64
  let record := deliverableMembers request.mode request.autonomyElevated delivId taskId initiative
    source dest reviewer supersedes level createdBy sha256 sizeBytes now
  if record.object.length < 4096 then return record else none

/-- The array of `appendSecretScanEvent`: an entry is started while there is room for it. -/
def patternHitsText (patterns : List (Bytes × Nat)) : Bytes :=
  let hits := patterns.foldl (fun (hits, pos) pattern =>
      if pos < 1024 - 64 then
        let piece := (if pos = 1 then [] else [comma]) ++ bytes "\x7b\"pattern\":\"" ++
          escapedOr pattern.1 128 ++ bytes "\",\"count\":" ++ decimalNat pattern.2 ++ bytes "\x7d"
        (hits ++ snprintf (1024 - pos) piece, pos + piece.length)
      else (hits, pos)) (bytes "[", 1)
  if hits.2 < 1024 then hits.1 ++ snprintf (1024 - hits.2) (bytes "]") else hits.1

def secretScanHead : Bytes := bytes "\x7b\"schema\":\"woventeam.secret_scan.v0.1\","

/-- The text `appendSecretScanEvent` prints of its escaped texts. -/
def secretScanText (mode : WtDeliverableMode) (taskId deliv scanId source : Literal) (scan : Scan)
    (now : Int) : Bytes :=
  secretScanHead ++
    (bytes "\"scanId\":\"" ++ scanId.text ++ bytes "\",\"deliverableId\":\"" ++ deliv.text ++
      bytes "\",\"taskId\":\"" ++ taskId.text ++ bytes "\",\"scannedPath\":\"" ++ source.text ++
      bytes "\",\"matched\":" ++ (if scan.matched then bytes "true" else bytes "false") ++
      bytes ",\"hitCount\":" ++ decimalNat scan.hitCount ++ bytes ",\"patternHits\":" ++
      patternHitsText scan.patterns ++ bytes ",\"packagingMode\":\"" ++
      (wtDeliverableModeToString mode).text ++ bytes "\",\"createdAtUnixMs\":" ++
      decimal now ++ bytes "\x7d")

/-- The record of `appendSecretScanEvent`; nothing where a text or the record does not fit. -/
def secretScanRecord (request : WtDeliverableRequest) (deliverableId scanId : Bytes) (scan : Scan)
    (now : Int) : Option Bytes := do
  let taskId ← wtJsonEscape request.taskId (wtTaskIdSize * 2)
  let deliv ← wtJsonEscape deliverableId (wtDeliverableIdSize * 2)
  let scanId ← wtJsonEscape scanId (wtDeliverableIdSize * 2)
  let source ← wtJsonEscape request.sourcePath (wtDeliverablePathSize * 2)
  let record := secretScanText request.mode taskId deliv scanId source scan now
  if record.length < 4096 then return record else none

/-! ## Shipping -/

/-- What a call leaves: its error, if it returns -1, its result, its steps, and the records it
gives to `wtTaskAppendRecord`, each with whether the append succeeds. -/
structure Shipment where
  error : Option String
  result : WtDeliverableResult
  steps : List Step := []
  appends : List (Bytes × Bool) := []
  deriving DecidableEq, Repr

/-- What a failed call returns; the reason stands in the result too. -/
def Shipment.failed (error : String) (result : WtDeliverableResult) (steps : List Step)
    (appends : List (Bytes × Bool)) : Shipment where
  error := some error
  result := { result with errorReason := bytes error }
  steps := steps
  appends := appends

/-- The modes that a match of the scan blocks. -/
def WtDeliverableMode.blocks (mode : WtDeliverableMode) : Bool := mode == .branch || mode == .pr

section ship

variable (world : World) (config : WtConfig) (request : WtDeliverableRequest)

def World.appendRecord (record : Option Bytes) : List (Bytes × Bool) :=
  record.toList.map fun record => (record, world.append record)

def appendSecretScanEvent (scan : Scan) : List (Bytes × Bool) :=
  if scan.ran then
    world.appendRecord
      (secretScanRecord request world.deliverableId world.scanId scan world.scanRecordedAt)
  else []

def wtDeliverableShip : Shipment :=
  if request.taskId = [] ∨ request.initiativeId = [] ∨ request.sourcePath = [] then
    .failed "missing_required_field" {} [] []
  else if !world.readable request.sourcePath then .failed "source_missing" {} [] []
  else
    let ids : WtDeliverableResult :=
      { deliverableId := world.deliverableId, scanId := world.scanId }
    match world.sha256 request.sourcePath with
    | none => .failed "sha256_failed" ids [] []
    | some (sha256, sizeBytes) =>
      let hashed := { ids with sha256 := sha256.digits.text, sizeBytes := sizeBytes }
      match world.scan config request with
      | none => .failed "secret_scan_failed" hashed [] []
      | some scan =>
        let scanned := { hashed with scan := scan }
        let event := appendSecretScanEvent world request scan
        if scan.matched && request.mode.blocks then
          .failed "secret_scan_block" scanned [] event
        else
          let packaging := package world config request
          let result := { scanned with deliverablePath := packaging.deliverablePath }
          match packaging.error with
          | some error => .failed error result packaging.steps event
          | none =>
            match deliverableRecord request world.deliverableId packaging.deliverablePath sha256
                sizeBytes world.recordedAt with
            | none => .failed "ledger_append_failed" result packaging.steps []
            | some record =>
              if world.append record.object then
                { error := none, result := result, steps := packaging.steps,
                  appends := (record.object, true) :: event }
              else
                .failed "ledger_append_failed" result packaging.steps [(record.object, false)]

end ship

/-! ## Publications -/

/-- The steps that make an artifact available. -/
def Step.publishes : WtDeliverableMode → Step → Bool
  | .copy, .copyFileBytes .. => true
  | .tarball, .tar _ => true
  | .branch, .push _ => true
  | .pr, .push _ => true
  | _, _ => false

def Shipment.Published (shipment : Shipment) (world : World) (mode : WtDeliverableMode) : Prop :=
  ∃ step ∈ shipment.steps, step.publishes mode ∧ (world.run step).made

/-- A deliverable record with the id is on the ledger. -/
def Shipment.Recorded (shipment : Shipment) (deliverableId : Bytes) : Prop :=
  ∃ record, (record, true) ∈ shipment.appends ∧ lineHasSchema record deliverableSchema ∧
    wtJsonReadString record "deliverableId" 128 = .ok deliverableId

/-- What is published is on the ledger, and a call that fails has published nothing. -/
def PublicationRecorded (world : World) (config : WtConfig) (request : WtDeliverableRequest) :
    Prop :=
  let shipment := wtDeliverableShip world config request
  (shipment.Published world request.mode → shipment.Recorded world.deliverableId) ∧
    (shipment.error.isSome → ¬ shipment.Published world request.mode)

section conditions

variable (world : World) (config : WtConfig) (request : WtDeliverableRequest)

/-- The step that publishes. -/
def publication : Step :=
  match request.mode with
  | .copy => copyStep config request
  | .tarball => .tar (tarCommand config request)
  | .branch | .pr => pushStep config request world.deliverableId

/-- What a branch needs before it is pushed. -/
structure BranchReady : Prop where
  gate : request.mode = .pr → request.yesGate
  named : repoDir request ≠ []
  git : world.present (snprintf wtDeliverablePathSize (repoDir request ++ bytes "/.git"))
  checkedOut : (world.run (checkoutStep config request)).ok
  dir : (world.run (.mkdirP (destDirInRepo request))).ok
  copied : (world.run (repoCopyStep request)).ok
  message : (wtJsonEscape (commitMsg request world.deliverableId) 1024).isSome

/-- What the packaging function of the mode needs before it publishes. -/
structure PackageReady : Prop where
  place : ¬ request.mode.blocks → (world.run (.mkdirP (destDir config request))).ok
  branch : request.mode.blocks → BranchReady world config request

/-- The checks in front of the packaging pass. -/
structure Checked : Prop where
  required : request.taskId ≠ [] ∧ request.initiativeId ≠ [] ∧ request.sourcePath ≠ []
  readable : world.readable request.sourcePath
  hashed : (world.sha256 request.sourcePath).isSome
  scanned : ∃ scan, world.scan config request = some scan ∧
    (scan.matched → ¬ request.mode.blocks)

/-- The request comes as far as the step that publishes. -/
structure Ready : Prop where
  checked : Checked world config request
  package : PackageReady world config request

/-- The path of the artifact where it is published. -/
def publishedPath : Bytes :=
  match request.mode with
  | .copy => copyPath config request
  | .tarball => tarballPath config request
  | .branch | .pr => repoCopyPath request

/-- All that comes behind the publication succeeds: the report of the step itself, the pull request,
the printing of the record and its append. -/
structure Finishes : Prop where
  reported : (world.run (publication world config request)).ok
  opened : request.mode = .pr →
    (world.run (pullRequestStep config request world.deliverableId)).ok
  recorded : ∃ sha256 sizeBytes record, world.sha256 request.sourcePath = some (sha256, sizeBytes) ∧
    deliverableRecord request world.deliverableId (publishedPath config request) sha256 sizeBytes
      world.recordedAt = some record ∧ world.append record.object

end conditions

/-! ## What a packaging function does -/

section proofs

variable {world : World} {config : WtConfig} {request : WtDeliverableRequest}

/-- Packaging that comes as far as its publishing step. -/
structure Packaged (p : Packaging) (world : World) (config : WtConfig)
    (request : WtDeliverableRequest) : Prop where
  published : publication world config request ∈ p.steps
  only : ∀ step ∈ p.steps, step.publishes request.mode → step = publication world config request
  path : p.deliverablePath = publishedPath config request
  done : p.error = none ↔ (world.run (publication world config request)).ok ∧
    (request.mode = .pr → (world.run (pullRequestStep config request world.deliverableId)).ok)

/-- Packaging that stops before. -/
structure Unpackaged (p : Packaging) (mode : WtDeliverableMode) : Prop where
  failed : p.error.isSome
  nothing : ∀ step ∈ p.steps, step.publishes mode = false

theorem Unpackaged.ite {c : Prop} [Decidable c] {p q : Packaging} {mode : WtDeliverableMode}
    (hp : c → Unpackaged p mode) (hq : ¬ c → Unpackaged q mode) :
    Unpackaged (if c then p else q) mode := by
  split
  · exact hp ‹_›
  · exact hq ‹_›

/-- A step of a branch taken. -/
theorem mem_steps_ite {c : Prop} [Decidable c] {p q : Packaging} {step : Step}
    (h : step ∈ (if c then p else q).steps) : c ∧ step ∈ p.steps ∨ ¬ c ∧ step ∈ q.steps := by
  split at h
  · exact .inl ⟨‹_›, h⟩
  · exact .inr ⟨‹_›, h⟩

theorem publication_of_blocks (h : request.mode.blocks) :
    publication world config request = pushStep config request world.deliverableId ∧
      publishedPath config request = repoCopyPath request := by
  unfold publication publishedPath
  cases hmode : request.mode <;> simp_all [WtDeliverableMode.blocks]

theorem publishes_of_blocks {mode : WtDeliverableMode} (h : mode.blocks) (step : Step) :
    step.publishes mode ↔ ∃ command, step = .push command := by
  cases mode <;> cases step <;> simp_all [WtDeliverableMode.blocks, Step.publishes]

theorem shipBranch_ready (h : BranchReady world config request) (hmode : request.mode.blocks) :
    Packaged (shipBranch world config request world.deliverableId (request.mode == .pr)) world
      config request := by
  obtain ⟨hpub, hpath⟩ := @publication_of_blocks world config request hmode
  have hgate : ((request.mode == .pr) && !request.yesGate) = false := by
    cases hm : request.mode <;> simp [h.gate, hm]
  have honly : ∀ {p : Packaging}, (∀ step ∈ p.steps, ∀ command, step = .push command →
      step = pushStep config request world.deliverableId) →
      ∀ step ∈ p.steps, step.publishes request.mode → step = publication world config request := by
    intro p hsteps step hstep hpublishes
    obtain ⟨command, hcommand⟩ := (publishes_of_blocks hmode step).mp hpublishes
    rw [hpub]
    exact hsteps step hstep command hcommand
  unfold shipBranch
  simp only [hgate, h.named, h.git, h.checkedOut, h.dir, h.copied, Bool.false_eq_true,
    ↓reduceIte, Bool.not_true, Option.isNone_eq_false_iff.mpr h.message]
  by_cases hpush : (world.run (pushStep config request world.deliverableId)).ok = true
  · by_cases hpr : request.mode = .pr
    · simp only [hpush, hpr, Bool.not_true, Bool.false_eq_true, ↓reduceIte, beq_self_eq_true]
      refine ⟨by simp [hpub], honly ?_, hpath.symm, ?_⟩
      · simp [checkoutStep, repoCopyStep, pullRequestStep]
      · simp only [hpub, hpush, true_and]
        split
        · rename_i hpull
          simp [hpull]
        · rename_i hpull
          simp [hpull, hpr]
    · have hbeq : (request.mode == .pr) = false := by simpa using hpr
      simp only [hpush, hbeq, Bool.not_true, Bool.not_false, Bool.false_eq_true, ↓reduceIte]
      refine ⟨by simp [hpub], honly ?_, hpath.symm, by simp [hpub, hpush, hpr]⟩
      simp [checkoutStep, repoCopyStep]
  · simp only [Bool.not_eq_true] at hpush
    simp only [hpush, Bool.not_false, ↓reduceIte]
    refine ⟨by simp [hpub], honly ?_, hpath.symm, by simp [hpub, hpush]⟩
    simp [checkoutStep, repoCopyStep]

theorem shipBranch_unready (h : ¬ BranchReady world config request) (hmode : request.mode.blocks) :
    Unpackaged (shipBranch world config request world.deliverableId (request.mode == .pr))
      request.mode := by
  have hnothing : ∀ steps : List Step, (∀ step ∈ steps, ∀ command, step ≠ .push command) →
      ∀ step ∈ steps, step.publishes request.mode = false := by
    intro steps hsteps step hstep
    rw [Bool.eq_false_iff]
    intro hpublishes
    obtain ⟨command, hcommand⟩ := (publishes_of_blocks hmode step).mp hpublishes
    exact hsteps step hstep command hcommand
  unfold shipBranch
  refine .ite (fun _ => ⟨rfl, by simp⟩) fun hgate => ?_
  refine .ite (fun _ => ⟨rfl, by simp⟩) fun hnamed => ?_
  refine .ite (fun _ => ⟨rfl, by simp⟩) fun hgit => ?_
  refine .ite (fun _ => ⟨rfl, hnothing _ (by simp [checkoutStep])⟩) fun hcheckout => ?_
  refine .ite (fun _ => ⟨rfl, hnothing _ (by simp [checkoutStep])⟩) fun hdir => ?_
  refine .ite (fun _ => ⟨rfl, hnothing _ (by simp [checkoutStep, repoCopyStep])⟩) fun hcopy => ?_
  refine .ite (fun _ => ⟨rfl, hnothing _ (by simp [checkoutStep, repoCopyStep])⟩)
    fun hmessage => ?_
  refine absurd ⟨fun hpr => ?_, hnamed, ?_, ?_, ?_, ?_, ?_⟩ h
  · simpa [hpr] using hgate
  · simpa using hgit
  · simpa using hcheckout
  · simpa using hdir
  · simpa using hcopy
  · exact Option.isSome_iff_ne_none.mpr (by simpa using hmessage)

theorem packaged_of_ready (h : PackageReady world config request) :
    Packaged (package world config request) world config request := by
  unfold package
  cases hmode : request.mode with
  | copy =>
    have hplace := h.place (by simp [hmode, WtDeliverableMode.blocks])
    simp only [shipCopy, hplace, Bool.not_true, Bool.false_eq_true, ↓reduceIte]
    refine ⟨by simp [publication, hmode], ?_, by simp [publishedPath, hmode], ?_⟩
    · simp [publication, hmode, Step.publishes]
    · simp [publication, hmode]
  | tarball =>
    have hplace := h.place (by simp [hmode, WtDeliverableMode.blocks])
    simp only [shipTarball, hplace, Bool.not_true, Bool.false_eq_true, ↓reduceIte]
    refine ⟨by simp [publication, hmode], ?_, by simp [publishedPath, hmode], ?_⟩
    · simp [publication, hmode, Step.publishes]
    · simp [publication, hmode]
  | branch =>
    have hblocks : request.mode.blocks := by simp [hmode, WtDeliverableMode.blocks]
    have hship := shipBranch_ready (h.branch hblocks) hblocks
    rw [hmode] at hship
    exact hship
  | pr =>
    have hblocks : request.mode.blocks := by simp [hmode, WtDeliverableMode.blocks]
    have hship := shipBranch_ready (h.branch hblocks) hblocks
    rw [hmode] at hship
    exact hship

theorem unpackaged_of_unready (h : ¬ PackageReady world config request) :
    Unpackaged (package world config request) request.mode := by
  by_cases hblocks : request.mode.blocks = true
  · have hbranch : ¬ BranchReady world config request := fun hready =>
      h ⟨fun hnot => absurd hblocks hnot, fun _ => hready⟩
    have hship := shipBranch_unready hbranch hblocks
    unfold package
    cases hmode : request.mode with
    | copy => simp [hmode, WtDeliverableMode.blocks] at hblocks
    | tarball => simp [hmode, WtDeliverableMode.blocks] at hblocks
    | branch =>
      rw [hmode] at hship
      exact hship
    | pr =>
      rw [hmode] at hship
      exact hship
  · have hplace : (world.run (.mkdirP (destDir config request))).ok = false := by
      rw [Bool.eq_false_iff]
      exact fun hok => h ⟨fun _ => hok, fun hnot => absurd hnot hblocks⟩
    unfold package
    cases hmode : request.mode with
    | copy =>
      simp only [shipCopy, hplace, Bool.not_false, ↓reduceIte]
      exact ⟨rfl, by simp [Step.publishes]⟩
    | tarball =>
      simp only [shipTarball, hplace, Bool.not_false, ↓reduceIte]
      exact ⟨rfl, by simp [Step.publishes]⟩
    | branch => simp [hmode, WtDeliverableMode.blocks] at hblocks
    | pr => simp [hmode, WtDeliverableMode.blocks] at hblocks

/-! ## The records -/

theorem decodes_makeShortId {kind : String} (hkind : Decodes (bytes kind)) (seed : IdSeed) :
    Decodes (makeShortId kind seed) := by
  have hhex : ∀ n < 16, 32 ≤ hexDigit n := by decide
  have hbyte : ∀ x, Decodes (hexByte x) := by
    intro x b hb
    have := x.toNat_lt
    simp only [hexByte, List.mem_cons, List.not_mem_nil, or_false] at hb
    rcases hb with rfl | rfl
    · exact .inl (hhex _ (by omega))
    · exact .inl (hhex _ (by omega))
  have hdecimal : Decodes (decimal seed.now) := by
    have hnat : Decodes (decimalNat seed.now.natAbs) := by
      intro b hb
      obtain ⟨d, hd, rfl⟩ := mem_decimalNat hb
      interval_cases d <;> exact .inl (by decide)
    unfold decimal
    split
    · exact List.forall_mem_cons.mpr ⟨.inl (by decide), hnat⟩
    · exact hnat
  have hunderscore : (32 : UInt8) ≤ 95 := by decide
  have hrandom : Decodes (match seed.random with
      | some (a, b, c) => 95 :: (hexByte a ++ hexByte b ++ hexByte c)
      | none => []) := by
    cases seed.random with
    | none => exact fun b hb => absurd hb List.not_mem_nil
    | some random =>
      refine List.forall_mem_cons.mpr ⟨.inl hunderscore, ?_⟩
      exact List.forall_mem_append.mpr ⟨List.forall_mem_append.mpr ⟨hbyte _, hbyte _⟩, hbyte _⟩
  intro b hb
  rcases List.mem_append.mp (List.mem_of_mem_take hb) with hb | hb
  · rcases List.mem_append.mp hb with hb | hb
    · exact hkind b hb
    · exact List.forall_mem_cons.mpr ⟨.inl hunderscore, hdecimal⟩ b hb
  · exact hrandom b hb

theorem length_makeShortId (kind : String) (seed : IdSeed) :
    (makeShortId kind seed).length < wtDeliverableIdSize :=
  snprintf_length_lt _ (by decide)

/-- The first two members. -/
theorem deliverableMembers_items (mode : WtDeliverableMode) (elevated : Bool)
    (delivId taskId initiative source dest reviewer supersedes level createdBy : Literal)
    (sha256 : Sha256) (sizeBytes now : Int) :
    ∃ rest, (deliverableMembers mode elevated delivId taskId initiative source dest reviewer
      supersedes level createdBy sha256 sizeBytes now).items =
        (str "schema" (.ofPlain "woventeam.deliverable.v0.1") ++
          str "deliverableId" delivId).items ++ rest := by
  unfold deliverableMembers
  simp only [Members.items_append, List.append_assoc]
  exact ⟨_, rfl⟩

/-- The record is one of a deliverable, and of the one with this id. -/
theorem deliverableRecord_reads {deliverableId deliverablePath : Bytes} {sha256 : Sha256}
    {sizeBytes now : Int} {record : Members} (h : deliverableRecord request deliverableId
      deliverablePath sha256 sizeBytes now = some record)
    (hid : Decodes deliverableId) (hlen : deliverableId.length < wtDeliverableIdSize) :
    lineHasSchema record.object deliverableSchema ∧
      wtJsonReadString record.object "deliverableId" 128 = .ok deliverableId := by
  simp only [deliverableRecord, Option.bind_eq_bind, Option.bind_eq_some_iff] at h
  obtain ⟨taskId, -, initiative, -, source, -, dest, -, reviewer, -, createdBy, -, supersedes, -,
    delivId, hdelivId, level, -, hrecord⟩ := h
  split at hrecord
  · obtain rfl := Option.some.inj hrecord
    have hunescape : unescape delivId.text = deliverableId := by
      rw [(wtJsonEscape_eq hdelivId).1, reread_eq_self_iff.mpr hid]
    have hlen128 : (unescape delivId.text).length < 128 := by
      rw [hunescape]
      unfold wtDeliverableIdSize at hlen
      omega
    obtain ⟨rest, hitems⟩ := deliverableMembers_items request.mode request.autonomyElevated delivId
      taskId initiative source dest reviewer supersedes level createdBy sha256 sizeBytes now
    have hschema := @wtJsonReadString_object "schema" (deliverableMembers request.mode
      request.autonomyElevated delivId taskId initiative source dest reviewer supersedes level
      createdBy sha256 sizeBytes now) [] (.of_check rfl) (by simp)
      (.ofPlain "woventeam.deliverable.v0.1") _ _
      (by rw [hitems]; exact lookup_append_of_string rfl rest) 128 (by decide)
    have hread := @wtJsonReadString_object "deliverableId" (deliverableMembers request.mode
      request.autonomyElevated delivId taskId initiative source dest reviewer supersedes level
      createdBy sha256 sizeBytes now) [] (.of_check rfl) (by simp) delivId _ _
      (by rw [hitems]; exact lookup_append_of_string rfl rest) 128 hlen128
    rw [List.append_nil] at hschema hread
    rw [hunescape] at hread
    refine ⟨?_, hread⟩
    rw [lineHasSchema, hschema]
    decide
  · cases hrecord

theorem secretScanHead_eq : secretScanHead = 123 :: (quoted (bytes "schema") ++ colon :: quote ::
    (bytes "woventeam.secret_scan.v0.1" ++ quote :: [comma])) := by decide

theorem schema_secretScanHead (rest : Bytes) :
    lineHasSchema (secretScanHead ++ rest) deliverableSchema = false := by
  have hplain : Plain (bytes "woventeam.secret_scan.v0.1") := by decide
  have hread := @wtJsonReadString_first "schema" _ (comma :: rest) 128 hplain (by decide)
    (by decide)
  rw [lineHasSchema, secretScanHead_eq]
  simp only [List.append_assoc, List.cons_append, List.nil_append]
  rw [hread]
  decide

theorem secretScanRecord_schema {deliverableId scanId record : Bytes} {scan : Scan} {now : Int}
    (h : secretScanRecord request deliverableId scanId scan now = some record) :
    lineHasSchema record deliverableSchema = false := by
  simp only [secretScanRecord, Option.bind_eq_bind, Option.bind_eq_some_iff, Option.pure_def] at h
  obtain ⟨taskId, -, deliv, -, scanId, -, source, -, hrecord⟩ := h
  split at hrecord
  · rw [← Option.some.inj hrecord]
    exact schema_secretScanHead _
  · cases hrecord

/-! ## What a call leaves -/

/-- A record the call gives to the ledger that is not the deliverable's. -/
theorem appends_event {scan : Scan} {record : Bytes} {ok : Bool}
    (h : (record, ok) ∈ appendSecretScanEvent world request scan) :
    lineHasSchema record deliverableSchema = false := by
  unfold appendSecretScanEvent at h
  split at h
  · obtain ⟨text, htext, heq⟩ := List.mem_map.mp h
    rw [Option.mem_toList] at htext
    cases heq
    exact secretScanRecord_schema htext
  · cases h

/-- Where a check fails, the call fails and takes no step. -/
theorem ship_unchecked (h : ¬ Checked world config request) :
    (wtDeliverableShip world config request).error.isSome ∧
      (wtDeliverableShip world config request).steps = [] := by
  unfold wtDeliverableShip
  split
  · exact ⟨rfl, rfl⟩
  rename_i hrequired
  split
  · exact ⟨rfl, rfl⟩
  rename_i hreadable
  split
  · exact ⟨rfl, rfl⟩
  rename_i sha256 sizeBytes hsha
  split
  · exact ⟨rfl, rfl⟩
  rename_i scan hscan
  dsimp only
  split
  · exact ⟨rfl, rfl⟩
  rename_i hblock
  refine absurd ⟨?_, ?_, ?_, scan, hscan, ?_⟩ h
  · simpa only [not_or] using hrequired
  · simpa using hreadable
  · rw [hsha]
    rfl
  · simpa using hblock

/-- Where they pass, the packaging decides. -/
theorem ship_checked (h : Checked world config request) :
    ∃ scan sha256 sizeBytes, world.sha256 request.sourcePath = some (sha256, sizeBytes) ∧
      wtDeliverableShip world config request =
        let packaging := package world config request
        let event := appendSecretScanEvent world request scan
        let result : WtDeliverableResult :=
          { deliverableId := world.deliverableId
            deliverablePath := packaging.deliverablePath
            sha256 := sha256.digits.text
            sizeBytes := sizeBytes
            scanId := world.scanId
            scan := scan }
        match packaging.error with
        | some error => .failed error result packaging.steps event
        | none =>
          match deliverableRecord request world.deliverableId packaging.deliverablePath sha256
              sizeBytes world.recordedAt with
          | none => .failed "ledger_append_failed" result packaging.steps []
          | some record =>
            if world.append record.object then
              { error := none, result := result, steps := packaging.steps,
                appends := (record.object, true) :: event }
            else
              .failed "ledger_append_failed" result packaging.steps [(record.object, false)] := by
  obtain ⟨⟨htask, hinitiative, hsource⟩, hreadable, hhashed, scan, hscan, hblock⟩ := h
  obtain ⟨⟨sha256, sizeBytes⟩, hsha⟩ := Option.isSome_iff_exists.mp hhashed
  have hrequired : ¬ (request.taskId = [] ∨ request.initiativeId = [] ∨
      request.sourcePath = []) := by
    simp [htask, hinitiative, hsource]
  have hmatched : (scan.matched && request.mode.blocks) = false := by
    rw [Bool.and_eq_false_iff, ← Bool.not_eq_true, ← Bool.not_eq_true]
    exact (em _).elim (fun hm => .inr (hblock hm)) .inl
  refine ⟨scan, sha256, sizeBytes, hsha, ?_⟩
  unfold wtDeliverableShip
  simp only [hrequired, hreadable, hsha, hscan, hmatched, ↓reduceIte, Bool.not_true,
    Bool.false_eq_true]

/-- Where the packaging stops, the call fails with its error and publishes nothing. -/
theorem ship_unpackaged (h : Checked world config request)
    (hpackage : ¬ PackageReady world config request) :
    (wtDeliverableShip world config request).error = (package world config request).error ∧
      (wtDeliverableShip world config request).error.isSome ∧
      (wtDeliverableShip world config request).steps = (package world config request).steps := by
  obtain ⟨scan, sha256, sizeBytes, -, hship⟩ := ship_checked h
  obtain ⟨error, herror⟩ := Option.isSome_iff_exists.mp (unpackaged_of_unready hpackage).failed
  rw [hship]
  dsimp only
  rw [herror]
  exact ⟨rfl, rfl, rfl⟩

/-- Where the request is not ready, the call fails and publishes nothing. -/
theorem ship_unready (h : ¬ Ready world config request) :
    (wtDeliverableShip world config request).error.isSome ∧
      ¬ (wtDeliverableShip world config request).Published world request.mode := by
  by_cases hchecked : Checked world config request
  · have hpackage : ¬ PackageReady world config request := fun hready => h ⟨hchecked, hready⟩
    obtain ⟨-, hfailed, hsteps⟩ := ship_unpackaged hchecked hpackage
    refine ⟨hfailed, ?_⟩
    rintro ⟨step, hstep, hpublishes, -⟩
    rw [hsteps] at hstep
    exact absurd hpublishes (by simp [(unpackaged_of_unready hpackage).nothing step hstep])
  · obtain ⟨hfailed, hsteps⟩ := ship_unchecked hchecked
    exact ⟨hfailed, by simp [Shipment.Published, hsteps]⟩

/-- Where it is ready, the rest decides. -/
theorem ship_ready (h : Ready world config request) :
    ∃ event, (∀ a ∈ event, lineHasSchema a.1 deliverableSchema = false) ∧
      (wtDeliverableShip world config request).steps = (package world config request).steps ∧
      ((Finishes world config request ∧ (wtDeliverableShip world config request).error = none ∧
          ∃ record, (wtDeliverableShip world config request).appends =
            (record, true) :: event ∧ lineHasSchema record deliverableSchema ∧
            wtJsonReadString record "deliverableId" 128 = .ok world.deliverableId) ∨
        (¬ Finishes world config request ∧
          (wtDeliverableShip world config request).error.isSome)) := by
  obtain ⟨scan, sha256, sizeBytes, hsha, hship⟩ := ship_checked h.checked
  have hpackaged := packaged_of_ready h.package
  refine ⟨appendSecretScanEvent world request scan, fun a ha => appends_event ha, ?_⟩
  rw [hship]
  dsimp only
  cases herror : (package world config request).error with
  | some error =>
    have hno : ¬ Finishes world config request := fun hfinish => by
      have := hpackaged.done.mpr ⟨hfinish.reported, hfinish.opened⟩
      rw [herror] at this
      cases this
    exact ⟨rfl, .inr ⟨hno, rfl⟩⟩
  | none =>
    obtain ⟨hreported, hopened⟩ := hpackaged.done.mp herror
    rw [hpackaged.path]
    have hfinish : Finishes world config request ↔ ∃ record,
        deliverableRecord request world.deliverableId (publishedPath config request) sha256
          sizeBytes world.recordedAt = some record ∧ world.append record.object := by
      constructor
      · rintro ⟨-, -, sha', size', record, hsha', hrecord⟩
        rw [hsha] at hsha'
        cases hsha'
        exact ⟨record, hrecord⟩
      · rintro ⟨record, hrecord⟩
        exact ⟨hreported, hopened, sha256, sizeBytes, record, hsha, hrecord⟩
    cases hrecord : deliverableRecord request world.deliverableId (publishedPath config request)
        sha256 sizeBytes world.recordedAt with
    | none =>
      refine ⟨rfl, .inr ⟨?_, rfl⟩⟩
      simp [hfinish, hrecord]
    | some record =>
      dsimp only
      split
      · rename_i happend
        have hreads := deliverableRecord_reads hrecord (decodes_makeShortId (by decide) _)
          (length_makeShortId _ _)
        exact ⟨rfl, .inl ⟨hfinish.mpr ⟨record, hrecord, happend⟩, rfl, record.object, rfl, hreads⟩⟩
      · rename_i happend
        refine ⟨rfl, .inr ⟨?_, rfl⟩⟩
        simp [hfinish, hrecord, happend]

/-- A pull request with a closed gate takes no step. -/
theorem ship_of_closedGate (hmode : request.mode = .pr) (hgate : request.yesGate = false) :
    (wtDeliverableShip world config request).error.isSome ∧
      (wtDeliverableShip world config request).steps = [] ∧
      (Checked world config request →
        (wtDeliverableShip world config request).error = some "missing_yes_gate") := by
  have hblocks : request.mode.blocks := by simp [hmode, WtDeliverableMode.blocks]
  have hpackage : ¬ PackageReady world config request := fun h => by
    have := (h.branch hblocks).gate hmode
    rw [hgate] at this
    cases this
  have hclosed : package world config request =
      { steps := [], error := some "missing_yes_gate" } := by
    simp [package, hmode, shipBranch, hgate]
  by_cases hchecked : Checked world config request
  · obtain ⟨herror, hfailed, hsteps⟩ := ship_unpackaged hchecked hpackage
    rw [hclosed] at herror hsteps
    exact ⟨hfailed, hsteps, fun _ => herror⟩
  · obtain ⟨hfailed, hsteps⟩ := ship_unchecked hchecked
    exact ⟨hfailed, hsteps, fun h => absurd h hchecked⟩

/-- **A publication is on the ledger exactly where nothing fails behind it.** -/
theorem publicationRecorded_iff : PublicationRecorded world config request ↔
    (Ready world config request → (world.run (publication world config request)).made →
      Finishes world config request) := by
  unfold PublicationRecorded
  by_cases hready : Ready world config request
  · obtain ⟨event, hevent, hsteps, hship⟩ := ship_ready hready
    have hpackaged := packaged_of_ready hready.package
    have hpublishes : (publication world config request).publishes request.mode := by
      unfold publication
      cases hmode : request.mode <;> rfl
    have hpublished : (wtDeliverableShip world config request).Published world request.mode ↔
        (world.run (publication world config request)).made := by
      rw [Shipment.Published, hsteps]
      constructor
      · rintro ⟨step, hstep, hpub, hmade⟩
        rwa [← hpackaged.only step hstep hpub]
      · exact fun hmade => ⟨_, hpackaged.published, hpublishes, hmade⟩
    rcases hship with ⟨hfinish, herror, record, happends, hschema, hid⟩ | ⟨hno, herror⟩
    · have hrecorded : (wtDeliverableShip world config request).Recorded world.deliverableId :=
        ⟨record, by rw [happends]; exact List.mem_cons_self, hschema, hid⟩
      simp [hready, hfinish, herror, hrecorded]
    · simp only [hready, hno, herror, hpublished, forall_const, imp_false]
      exact and_iff_right_of_imp fun hmade h => absurd h hmade
  · obtain ⟨herror, hnot⟩ := ship_unready hready
    simp [hready, hnot]

end proofs

/-! ### A pull request that is refused -/

/-- A world in which every step succeeds but the pull request. -/
def refusedWorld : World where
  readable _ := true
  sha256 _ := some (⟨.ofPlain
    "0000000000000000000000000000000000000000000000000000000000000000", by decide⟩, 6)
  contents _ := none
  present _ := true
  regcomp _ := none
  run step := match step with
    | .pullRequest _ => ⟨false, false⟩
    | _ => ⟨true, true⟩
  deliverableSeed := ⟨1000, some (1, 2, 3)⟩
  scanSeed := ⟨1000, some (4, 5, 6)⟩
  recordedAt := 1000
  scanRecordedAt := 1000
  append _ := true

def prRequest : WtDeliverableRequest where
  taskId := bytes "t1"
  initiativeId := bytes "init_1"
  sourcePath := bytes "runtime/t1/result.md"
  mode := .pr
  repoPath := some (bytes "/srv/repo")
  yesGate := true

/-- The branch is on the remote when the pull request is refused. -/
theorem not_publicationRecorded :
    ¬ ∀ world config request, PublicationRecorded world config request := by
  intro h
  have hfailed : (wtDeliverableShip refusedWorld {} prRequest).error.isSome := by decide +kernel
  refine (h refusedWorld {} prRequest).2 hfailed ⟨pushStep {} prRequest
    refusedWorld.deliverableId, ?_, rfl, rfl⟩
  decide +kernel

/-! ## Secrets -/

section secrets

variable {world : World} {config : WtConfig} {request : WtDeliverableRequest}

/-- A call that a match of the scan stops. -/
theorem ship_of_match (hmode : request.mode.blocks) {scan : Scan}
    (hscan : world.scan config request = some scan) (hmatch : scan.matched) :
    ∃ error, (wtDeliverableShip world config request).error = some error ∧
      (wtDeliverableShip world config request).steps = [] ∧
      (∀ a ∈ (wtDeliverableShip world config request).appends,
        lineHasSchema a.1 deliverableSchema = false) ∧
      (request.taskId ≠ [] → request.initiativeId ≠ [] → request.sourcePath ≠ [] →
        world.readable request.sourcePath → (world.sha256 request.sourcePath).isSome →
        error = "secret_scan_block") := by
  unfold wtDeliverableShip
  split
  · rename_i hmissing
    refine ⟨_, rfl, rfl, by simp [Shipment.failed], fun h₁ h₂ h₃ => ?_⟩
    simp [h₁, h₂, h₃] at hmissing
  split
  · rename_i hunreadable
    refine ⟨_, rfl, rfl, by simp [Shipment.failed], fun _ _ _ hreadable => ?_⟩
    simp [hreadable] at hunreadable
  split
  · rename_i hsha
    refine ⟨_, rfl, rfl, by simp [Shipment.failed], fun _ _ _ _ hsome => ?_⟩
    simp [hsha] at hsome
  simp only [hscan, hmatch, hmode, Bool.and_self, ↓reduceIte]
  exact ⟨_, rfl, rfl, fun a ha => appends_event ha, fun _ _ _ _ _ => rfl⟩

/-- **No branch and no pull request is published with a file in whose text one of the first
patterns that compile has a match.** -/
theorem secretScan_blocks (hmode : request.mode = .branch ∨ request.mode = .pr)
    (hconfigured : config.secretScanPatternsFile.text ≠ []) {file content : Bytes}
    (hfile : world.contents config.secretScanPatternsFile.text = some file)
    (hcontent : world.contents request.sourcePath = some content) {pattern : WtPattern}
    (hpattern : pattern ∈
      ((patternsFileLines file).filterMap (compilePattern world.regcomp)).take 32)
    (htext : scannedText content ≠ []) (hmatch : pattern.regexec (scannedText content) = true) :
    ∃ error, (wtDeliverableShip world config request).error = some error ∧
      (wtDeliverableShip world config request).steps = [] ∧
      (∀ a ∈ (wtDeliverableShip world config request).appends,
        lineHasSchema a.1 deliverableSchema = false) ∧
      (request.taskId ≠ [] → request.initiativeId ≠ [] → request.sourcePath ≠ [] →
        world.readable request.sourcePath → (world.sha256 request.sourcePath).isSome →
        error = "secret_scan_block") := by
  obtain ⟨scan, hscan, hmatched⟩ := scan_of_match hconfigured hpattern htext hmatch
  refine @ship_of_match world config request ?_ scan ?_ hmatched
  · rcases hmode with hmode | hmode <;> simp [hmode, WtDeliverableMode.blocks]
  · rw [World.scan, hfile, hcontent, hscan]

end secrets

/-- A line of the patterns file that compiles matches in the file, between two NULs or in the
whole of it. -/
def HoldsSecret (regcomp : Regcomp) (file content : Bytes) : Prop :=
  ∃ line ∈ file.splitOn newline, ∃ pattern, compilePattern regcomp line = some pattern ∧
    ∃ text ∈ content.splitOn 0, pattern.regexec text = true

/-- No branch and no pull request is published with a match. -/
def SecretBlocked (world : World) (config : WtConfig) (request : WtDeliverableRequest) : Prop :=
  request.mode = .branch ∨ request.mode = .pr → ∀ file content,
    world.contents config.secretScanPatternsFile.text = some file →
    world.contents request.sourcePath = some content → HoldsSecret world.regcomp file content →
      (wtDeliverableShip world config request).error = some "secret_scan_block" ∧
        (wtDeliverableShip world config request).steps = []

/-- Thirty-two patterns that a file without an `x` does not match, and one it does. -/
def manyPatterns : Bytes := (List.replicate 32 (bytes "a=x\n")).flatten ++ bytes "b=y\n"

/-- A world with these patterns and an artifact of one `y`. -/
def patternsWorld (patterns : Bytes) : World :=
  { refusedWorld with
    contents := fun path =>
      if path = bytes "runtime/t1/result.md" then some (bytes "y") else some patterns
    regcomp := fun expr => some fun text => (strstr expr text).isSome
    run := fun _ => ⟨true, true⟩ }

theorem secretScan_blocks_one : ∃ error,
    (wtDeliverableShip (patternsWorld (bytes "b=y\n")) {} prRequest).error = some error ∧
      (wtDeliverableShip (patternsWorld (bytes "b=y\n")) {} prRequest).steps = [] ∧
      (∀ a ∈ (wtDeliverableShip (patternsWorld (bytes "b=y\n")) {} prRequest).appends,
        lineHasSchema a.1 deliverableSchema = false) ∧
      (prRequest.taskId ≠ [] → prRequest.initiativeId ≠ [] → prRequest.sourcePath ≠ [] →
        (patternsWorld (bytes "b=y\n")).readable prRequest.sourcePath →
        ((patternsWorld (bytes "b=y\n")).sha256 prRequest.sourcePath).isSome →
        error = "secret_scan_block") :=
  secretScan_blocks (.inr rfl) (by decide) rfl rfl (List.mem_of_getElem? (i := 0) rfl) (by decide)
    (by decide)

/-- The thirty-third pattern is not compiled. -/
theorem not_secretBlocked : ¬ ∀ world config request, SecretBlocked world config request := by
  intro h
  have hsecret : HoldsSecret (patternsWorld manyPatterns).regcomp manyPatterns (bytes "y") :=
    ⟨bytes "b=y", by decide +kernel, _, rfl, bytes "y", by decide, by decide⟩
  have hblocked := (h (patternsWorld manyPatterns) {} prRequest (.inr rfl) manyPatterns (bytes "y") rfl rfl
    hsecret).1
  have herror : (wtDeliverableShip (patternsWorld manyPatterns) {} prRequest).error = none := by decide +kernel
  rw [herror] at hblocked
  cases hblocked

end WovenTeam

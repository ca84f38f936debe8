import WovenTeam.Config
import WovenTeam.Lib.LineReader

/-!
# The pre-ship secret scan

`wtDeliverableScanFile`: the patterns of the configured file are compiled, at most
`wtDeliverableMaxPatterns` of them, and each is run over the text of the artifact, which is what
stands in front of the first NUL of its first four megabytes. `regcomp` and `regexec` are the C
library's: compiling an expression gives the test for a match in a C string.
-/

namespace WovenTeam

open CText LineReader

def wtDeliverableMaxPatterns : Nat := 32
def scanMaxRead : Nat := 4 * 1024 * 1024

/-- `regcomp`: nothing where the expression does not compile, else what `regexec` answers. -/
abbrev Regcomp := Bytes → Option (Bytes → Bool)

structure WtPattern where
  name : Bytes
  regexec : Bytes → Bool

/-- The C string at the start of a buffer. -/
def cString (buffer : Bytes) : Bytes := buffer.takeWhile (· != 0)

def trimEnd (s : Bytes) : Bytes := s.rdropWhile isSpace

/-- The two sides of a `NAME=REGEX` line. -/
def patternLine (line : Bytes) : Option (Bytes × Bytes) :=
  let cursor := dropSpaces (cString line)
  if cursor.head? = some 35 ∨ 61 ∉ cursor then none
  else
    let name := trimEnd (cursor.takeWhile (· != 61))
    let expr := trimEnd (dropSpaces ((cursor.dropWhile (· != 61)).drop 1))
    if name = [] ∨ expr = [] then none else some (name, expr)

def compilePattern (regcomp : Regcomp) (line : Bytes) : Option WtPattern :=
  (patternLine line).bind fun sides => (regcomp sides.2).map fun regexec => ⟨sides.1.take 63, regexec⟩

/-- The lines of a patterns file as `fgets` reads them. -/
def patternsFileLines (file : Bytes) : List Bytes := fgetsLines 512 file

def loadPatterns (regcomp : Regcomp) (file : Bytes) (maxPatterns : Nat) : List WtPattern :=
  ((patternsFileLines file).filterMap (compilePattern regcomp)).take maxPatterns

/-- The loop over the positions of the text, with `left` hits to go before it stops. -/
def patternHits (regexec : Bytes → Bool) : Nat → Bytes → Nat
  | 0, _ => 0
  | _, [] => 0
  | left + 1, b :: t => if regexec (b :: t) then patternHits regexec left t + 1 else 0

/-- What the scan leaves in the result: the first eight patterns with a hit are named. -/
structure Scan where
  ran : Bool := false
  hitCount : Nat := 0
  patterns : List (Bytes × Nat) := []
  deriving DecidableEq, Repr

def Scan.matched (scan : Scan) : Bool := 0 < scan.hitCount

/-- The text the patterns run over. -/
def scannedText (content : Bytes) : Bytes := cString (content.take scanMaxRead)

def scanText (patterns : List WtPattern) (text : Bytes) : Scan :=
  let hits := patterns.map fun pattern => (pattern.name, patternHits pattern.regexec 100 text)
  { ran := true
    hitCount := (hits.map (·.2)).sum
    patterns := (hits.filter (0 < ·.2)).take 8 }

/-- `patternsFile` and `content` are what opening and reading the two files gives. Nothing is the
return of -1. -/
def wtDeliverableScanFile (config : WtConfig) (regcomp : Regcomp)
    (patternsFile content : Option Bytes) : Option Scan :=
  if config.secretScanPatternsFile.text = [] then some {}
  else
    match patternsFile with
    | none => some {}
    | some file =>
      match loadPatterns regcomp file wtDeliverableMaxPatterns with
      | [] => some {}
      | pattern :: patterns =>
        content.map fun content => scanText (pattern :: patterns) (scannedText content)

/-! ## What a scan finds -/

variable {regcomp : Regcomp}

theorem patternHits_pos_iff {regexec : Bytes → Bool} {left : Nat} {text : Bytes} :
    0 < patternHits regexec (left + 1) text ↔ text ≠ [] ∧ regexec text := by
  cases text with
  | nil => simp [patternHits]
  | cons b t =>
    rw [patternHits]
    split <;> simp_all

/-- The scan is positive where one of the patterns matches the text. -/
theorem matched_scanText_iff {patterns : List WtPattern} {text : Bytes} :
    (scanText patterns text).matched ↔
      text ≠ [] ∧ ∃ pattern ∈ patterns, pattern.regexec text := by
  have hsum : ∀ ns : List Nat, 0 < ns.sum ↔ ∃ n ∈ ns, 0 < n := by
    intro ns
    induction ns with
    | nil => simp
    | cons n ns ih => simp [← ih]
  simp only [Scan.matched, scanText, List.map_map, decide_eq_true_eq, hsum, List.mem_map,
    Function.comp_apply, exists_exists_and_eq_and, patternHits_pos_iff]
  constructor
  · rintro ⟨pattern, hmem, hne, hexec⟩
    exact ⟨hne, pattern, hmem, hexec⟩
  · rintro ⟨hne, pattern, hmem, hexec⟩
    exact ⟨pattern, hmem, hne, hexec⟩

/-- A scan that a match must stop: one of the patterns it loads matches the text it reads. -/
theorem scan_of_match {config : WtConfig} {file content : Bytes}
    (hconfigured : config.secretScanPatternsFile.text ≠ []) {pattern : WtPattern}
    (hpattern : pattern ∈ loadPatterns regcomp file wtDeliverableMaxPatterns)
    (htext : scannedText content ≠ []) (hmatch : pattern.regexec (scannedText content) = true) :
    ∃ scan, wtDeliverableScanFile config regcomp (some file) (some content) = some scan ∧
      scan.matched = true := by
  unfold wtDeliverableScanFile
  rw [if_neg hconfigured]
  cases hload : loadPatterns regcomp file wtDeliverableMaxPatterns with
  | nil => simp [hload] at hpattern
  | cons first patterns =>
    rw [hload] at hpattern
    refine ⟨scanText (first :: patterns) (scannedText content), by simp [hload], ?_⟩
    exact matched_scanText_iff.mpr ⟨htext, pattern, hpattern, hmatch⟩

end WovenTeam

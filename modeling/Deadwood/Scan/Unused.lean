import Deadwood.Code.Build
import Deadwood.Files.Walk
import Deadwood.Scan.Run
import Deadwood.Usage.ClassUse
import Deadwood.Usage.MethodUse
import Deadwood.Usage.Ranking
import Deadwood.Usage.TextUse

/-!
# Scans for unused code

A scan finds the source files below a root, divides its work into batches, and reports what nothing
uses. Whatever goes wrong on the way makes a failed outcome.

A `Scanner` scans whatever files it is shown. The scans of the program are those of a `Setup`, which
shows it the files of a tree and knows nothing about files that are not well formed.
-/

namespace Deadwood.Scan

open Code Usage

/-- What the program scans, and how. -/
structure Setup where
  tree : FileTree
  settings : Settings
  /-- The number of processors of the machine. -/
  processors : Nat
  /-- Called when a batch is done; what it gives breaks the scan off. -/
  notify : Progress → Option Payload

/-- A scan that is over. -/
structure Scanned (α : Type) where
  outcome : Outcome α
  progress : List Progress

/-- Whether a class finding comes no later than another: by name, then by place. -/
def findingLe (a b : ClassFinding) : Bool :=
  let place : Option Location → Option Location → Ordering
    | none, none => .eq
    | none, some _ => .lt
    | some _, none => .gt
    | some l, some m => (l.file.compare m.file).then (compare l.line m.line)
  ((compare a.name b.name).then (place a.location b.location)).isLE

/-- Class findings in the order of the report. -/
def sortFindings (findings : List ClassFinding) : List ClassFinding :=
  findings.mergeSort findingLe

/-- The width in bytes of a candidate of the textual scan: a position and two texts. -/
def candidateWidth : Nat := 56

/-- The width in bytes of the number of a type or call. -/
def numberWidth : Nat := 8

/-- The work of the textual scan: a batch of candidates gives the findings for those not used. -/
def textJob (use : TextUse) (workers : Nat) (notify : Progress → Option Payload) :
    Job TextCandidate ClassFinding where
  label := "regex"
  work batch := .returns (batch.filterMap use.check)
  workers := workers
  notify := notify

/-- The work of the class scan: a batch of types gives the findings for those not used. -/
def classJob (use : ClassUse) (workers : Nat) (notify : Progress → Option Payload) :
    Job TypeId ClassFinding where
  label := "ast-classes"
  work batch := .returns (use.unusedIn batch)
  workers := workers
  notify := notify

/-- The work of the method scan: a batch of calls gives the methods that it uses. -/
def methodJob (use : MethodUse) (workers : Nat) (notify : Progress → Option Payload) :
    Job CallId MethodId where
  label := "ast-methods"
  work batch :=
    match use.usedByBatch batch with
    | .ok used => .returns used.ids
    | .error _ => .breaks (.text "index out of range")
  workers := workers
  notify := notify

/-- The methods that no batch which was finished in a run uses, the longest first. -/
def methodFindings (use : MethodUse) (run : Run CallId MethodId) : List MethodFinding :=
  rank use.policy use.model (.ofList run.produced)

/-! ## Reports -/

namespace Setup

/-- What a run comes to if it makes these findings. -/
def conclude {τ ρ α : Type} (run : Run τ ρ) (findings : List α) : Scanned α :=
  match run.ending with
  | some (.broken payload) => ⟨.failed payload.message, run.progress⟩
  | _ => ⟨.ofFindings findings, run.progress⟩

/-- Run work on batches of items, and make findings of the run. -/
def report {τ ρ α : Type} (job : Job τ ρ) (width size : Nat) (items : List τ)
    (findings : Run τ ρ → List α) : Scanned α :=
  match batches? width size items with
  | none => ⟨.failed "capacity overflow", []⟩
  | some batches =>
    let run := job.run batches
    conclude run (findings run)

/-- A scan that failed before its work was divided. -/
def failed {α : Type} (e : ScanError) : Scanned α :=
  ⟨.failed e.message, []⟩

end Setup

/-! ## Scans of any files -/

/-- What a scan works with. -/
structure Scanner where
  /-- The files at or below a root. -/
  walk : Path → Except ScanError (List Path)
  /-- The text of a file, if it can be read. -/
  read : Path → Option String
  /-- What becomes of files that are not well formed. -/
  recovery : Recovery
  settings : Settings
  /-- The number of processors of the machine. -/
  processors : Nat
  /-- Called when a batch is done; what it gives breaks the scan off. -/
  notify : Progress → Option Payload

namespace Scanner

variable (s : Scanner)

/-- The source files of a root with their texts. -/
def sources (root : Path) : Except ScanError (List Source) := do
  let files ← s.walk root
  return (s.settings.sourcesAmong files).map fun p => ⟨p, s.read p⟩

/-- The model of the files of a root. -/
def model (root : Path) : Except ScanError Model := do
  let sources ← s.sources root
  Model.buildOrRetryWith s.recovery sources

/-- The files that can be read. -/
def load (sources : List Source) : List LoadedFile :=
  sources.filterMap fun f => f.text.map (LoadedFile.mk f.path)

/-- Classes that no text of another file refers to. -/
def classesByText (root : Path) : Scanned ClassFinding :=
  match s.sources root with
  | .error e => Setup.failed e
  | .ok sources =>
    let use : TextUse := ⟨root, load sources⟩
    let job := textJob use (s.settings.scan.workers s.processors) s.notify
    Setup.report job candidateWidth s.settings.scan.regexBatchSize
      (use.candidates s.settings.policy) fun run => sortFindings run.report.results

/-- Classes that no other type of the model mentions. -/
def classesByModel (root : Path) : Scanned ClassFinding :=
  match s.model root with
  | .error e => Setup.failed e
  | .ok m =>
    let use := ClassUse.ofModel m s.settings.policy
    let job := classJob use (s.settings.scan.astWorkers s.processors) s.notify
    Setup.report job numberWidth s.settings.scan.astBatchSize use.candidates
      fun run => sortFindings run.report.results

/-- Methods of the files of a root that no finished batch of calls uses, the longest first. -/
def methods (root : Path) : Scanned MethodFinding :=
  match s.model root with
  | .error e => Setup.failed e
  | .ok m =>
    let use := MethodUse.ofModel m s.settings.policy
    let job := methodJob use (s.settings.scan.astWorkers s.processors) s.notify
    Setup.report job numberWidth s.settings.scan.astBatchSize (List.range m.calls.length)
      (methodFindings use)

end Scanner

/-! ## Scans of the program -/

namespace Setup

variable (s : Setup)

/-- The scanner of the files of a tree. -/
def scanner : Scanner where
  walk := s.tree.filesAt
  read p := (s.tree.sourceText p).toOption
  recovery := .bare
  settings := s.settings
  processors := s.processors
  notify := s.notify

def classesByText (root : Path) : Scanned ClassFinding :=
  s.scanner.classesByText root

def classesByModel (root : Path) : Scanned ClassFinding :=
  s.scanner.classesByModel root

def methods (root : Path) : Scanned MethodFinding :=
  s.scanner.methods root

end Setup

end Deadwood.Scan

import Deadwood.Usage.Exclusion

/-!
# Settings of a scan
-/

namespace Deadwood

/-- How the work of a scan is divided. -/
structure ScanSettings where
  /-- Workers of the textual scan; the number of processors if missing or zero. -/
  threads : Option Nat
  /-- Workers of the other scans, at most as many as above. -/
  astThreads : Nat
  /-- Candidates in a batch of the textual scan. -/
  regexBatchSize : Nat
  /-- Candidates or calls in a batch of the other scans. -/
  astBatchSize : Nat
  /-- After how many batches progress is logged. -/
  progressInterval : Nat
  /-- Seconds after which outstanding batches are given up. -/
  timeoutSecs : Nat
  deriving DecidableEq, Repr

namespace ScanSettings

def default : ScanSettings :=
  ⟨none, 2, 1, 20, 10, 600⟩

/-- The workers of the textual scan on a machine with `processors` processors. -/
def workers (s : ScanSettings) (processors : Nat) : Nat :=
  (s.threads.filter (0 < ·)).getD processors

/-- The workers of the other scans. -/
def astWorkers (s : ScanSettings) (processors : Nat) : Nat :=
  min (max s.astThreads 1) (s.workers processors)

end ScanSettings

/-- All settings. -/
structure Settings where
  /-- Patterns of paths that are left out. -/
  exclude : List String
  scan : ScanSettings
  /-- Additions to the built-in exclusion tables. -/
  exclusions : Usage.Exclusions
  deriving DecidableEq, Repr

namespace Settings

def default : Settings where
  exclude := ["**/target/**", "**/build/**", "**/.git/**", "**/.idea/**", "**/generated/**"]
  scan := .default
  exclusions := .none

/-- The exclusion tables of a scan with these settings. -/
def policy (s : Settings) : Usage.Policy :=
  .extend s.exclusions

end Settings

end Deadwood

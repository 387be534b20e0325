import Deadwood.Path

/-!
# Errors of a scan

Each error is a cause; its wording is fixed in `ScanError.message`.
-/

namespace Deadwood

/-- Why a file cannot be read or written. -/
inductive FileFault where
  /-- Nothing stands under the path. -/
  | missing
  /-- The path names a directory. -/
  | isDirectory
  /-- A file stands where the path needs a directory. -/
  | notDirectory
  /-- Links lead on and on. -/
  | linkLoop
  deriving DecidableEq, Repr

/-- The system's wording of a fault. -/
def FileFault.message : FileFault → String
  | .missing => "No such file or directory (os error 2)"
  | .isDirectory => "Is a directory (os error 21)"
  | .notDirectory => "Not a directory (os error 20)"
  | .linkLoop => "Too many levels of symbolic links (os error 40)"

/-- Errors raised while finding, parsing or scanning a source tree. -/
inductive ScanError where
  /-- A file could not be read. -/
  | file (path : Path) (fault : FileFault)
  /-- A file could not be parsed. -/
  | parse (path : Path) (reason : String)
  /-- One qualified name is declared in two files. -/
  | duplicate (name : String) (first second : Path)
  /-- The root to scan does not exist. -/
  | missingRoot (path : Path)
  /-- A task of the scan failed. -/
  | task (reason : String)
  deriving DecidableEq, Repr

namespace ScanError

/-- The text shown for an error. -/
def message : ScanError → String
  | .file path fault => "I/O error at " ++ path.text ++ ": " ++ fault.message
  | .parse path reason => "Failed to parse " ++ path.text ++ ": " ++ reason
  | .duplicate name first second =>
    "Duplicate declaration of " ++ name ++ " in " ++ first.text ++ " and " ++ second.text
  | .missingRoot path => "Source root does not exist: " ++ path.text
  | .task reason => "Scan task failed: " ++ reason

/-- Whether a tolerant second build may get past the error. -/
def isRetryable : ScanError → Bool
  | .duplicate .. => true
  | .parse .. => true
  | _ => false

end ScanError

end Deadwood

import Deadwood.Settings

/-!
# Reading settings from structured data

The formats of settings files differ in what they take for a text, a number, a list or a table. A
`Reader` says so for one format; the fields of the settings are read the same way from all of them.
A field that is missing keeps its default, an unknown one is passed over, and a known one that stands
twice is an error.
-/

namespace Deadwood.Settings

/-- How values `ν` of a format are read. -/
structure Reader (ν : Type) where
  text? : ν → Option String
  count? : ν → Option Nat
  /-- A number that may be left out by a value of its own. -/
  optionalCount? : ν → Option (Option Nat)
  items? : ν → Option (List ν)
  /-- The members of a table, whose known fields are given in order. -/
  members? : List String → ν → Option (List (String × ν))

namespace Reader

variable {ν : Type} (r : Reader ν)

/-- A field: missing, or its one value, or an error if it stands twice. -/
def field? (members : List (String × ν)) (name : String) : Option (Option ν) :=
  match members.filter (·.1 == name) with
  | [] => some none
  | [(_, value)] => some (some value)
  | _ => none

/-- A field read by `read`, or its default. -/
def fieldOr {α : Type} (members : List (String × ν)) (name : String) (read : ν → Option α)
    (default : α) : Option α :=
  match field? members name with
  | none => none
  | some none => some default
  | some (some value) => read value

/-- A list of texts. -/
def texts? (v : ν) : Option (List String) :=
  (r.items? v).bind (·.mapM r.text?)

/-- The fields of the scan settings, in order. -/
def scanFields : List String :=
  ["threads", "ast_threads", "regex_batch_size", "ast_batch_size", "progress_interval",
    "timeout_secs"]

def scan? (v : ν) : Option ScanSettings := do
  let ms ← r.members? scanFields v
  let d := ScanSettings.default
  let count (name : String) (default : Nat) := fieldOr ms name r.count? default
  return {
    threads := ← fieldOr ms "threads" r.optionalCount? d.threads
    astThreads := ← count "ast_threads" d.astThreads
    regexBatchSize := ← count "regex_batch_size" d.regexBatchSize
    astBatchSize := ← count "ast_batch_size" d.astBatchSize
    progressInterval := ← count "progress_interval" d.progressInterval
    timeoutSecs := ← count "timeout_secs" d.timeoutSecs }

/-- The fields of the exclusions, in order. -/
def exclusionFields : List String :=
  ["file_suffixes", "bean_annotations", "type_annotations", "lifecycle_annotations",
    "lifecycle_methods", "container_methods", "infrastructure_markers"]

def exclusions? (v : ν) : Option Usage.Exclusions := do
  let ms ← r.members? exclusionFields v
  let table (name : String) := fieldOr ms name r.texts? []
  return {
    fileSuffixes := ← table "file_suffixes"
    beanAnnotations := ← table "bean_annotations"
    typeAnnotations := ← table "type_annotations"
    lifecycleAnnotations := ← table "lifecycle_annotations"
    lifecycleMethods := ← table "lifecycle_methods"
    containerMethods := ← table "container_methods"
    infrastructureMarkers := ← table "infrastructure_markers" }

/-- All settings. -/
def settings? (v : ν) : Option Settings := do
  let ms ← r.members? ["exclude", "scan", "exclusions"] v
  return {
    exclude := ← fieldOr ms "exclude" r.texts? Settings.default.exclude
    scan := ← fieldOr ms "scan" r.scan? .default
    exclusions := ← fieldOr ms "exclusions" r.exclusions? .none }

end Reader

end Deadwood.Settings

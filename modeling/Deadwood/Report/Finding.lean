import Deadwood.Report.Json
import Deadwood.Usage.Finding

/-!
# What reports need of findings
-/

namespace Deadwood.Report

open Code Usage

/-- Findings that can be reported. -/
class Finding (α : Type) where
  /-- The plural noun for headers. -/
  kind : String
  location : α → Option Location
  /-- The line that shows the finding. -/
  label : α → String
  /-- The members of the finding as a JSON object. -/
  members : α → List (String × Json)

def locationJson (l : Location) : Json :=
  .object [("file", .string l.file.text), ("line", .number l.line), ("end_line", .number l.endLine)]

/-- The members of a class finding; those that are not known are left out. -/
def classMembers (f : ClassFinding) : List (String × Json) :=
  [("original_class", .string f.name)]
    ++ (f.referencedBy.map fun names => ("referenced_by", Json.array (names.map .string))).toList
    ++ (f.location.map fun l => ("location", locationJson l)).toList

instance : Finding ClassFinding where
  kind := "classes"
  location := (·.location)
  label := (·.label)
  members := classMembers

instance : Finding MethodFinding where
  kind := "methods"
  location := (·.owner.location)
  label := (·.label)
  members f :=
    classMembers f.owner
      ++ [("method", .string f.method), ("descriptor", .string f.descriptor),
        ("method_lines", .number f.lines)]

variable {α : Type} [Finding α]

/-- The outcome of a scan as a JSON object. -/
def outcomeJson : Outcome α → Json
  | .findings items =>
    .object [("status", .string "findings"),
      ("data", .array (items.map fun f => .object (Finding.members f)))]
  | .noIssues => .object [("status", .string "no_issues")]
  | .failed message =>
    .object [("status", .string "failed"), ("data", .object [("message", .string message)])]

/-- The document of a JSON report. -/
def document (o : Outcome α) : Json :=
  .object
    [("version", .string "1.0"), ("kind", .string (Finding.kind α)),
      ("total", .number o.items.length), ("report", outcomeJson o)]

/-- The text of a JSON report. -/
def jsonText (o : Outcome α) : String :=
  (document o).render

end Deadwood.Report

import Deadwood.Report.Finding
import Deadwood.Report.Style

/-!
# The report for a terminal

Findings are listed under their files, in the order of the paths; findings without a file come first.
Within a file they keep the order of the report.
-/

namespace Deadwood.Report

open Code Usage

variable {α : Type} [Finding α]

/-- A text with blanks in front of it that make it `width` characters long. -/
def padLeft (width : Nat) (text : String) : String :=
  String.ofList (List.replicate (width - text.length) ' ') ++ text

/-- A line of text. -/
def line (text : String) : String :=
  text ++ "\n"

/-- The line of a finding: where it is in its file, and its label. -/
def itemLine (color : Bool) (f : α) : String :=
  let number := match Finding.location f with
    | some l => toString l.line
    | none => "-"
  line ("  " ++ styled color .dimmed (padLeft 5 number) ++ " " ++ Finding.label f)

/-- The file of a finding. -/
def fileOf (f : α) : Option Path :=
  (Finding.location f).map (·.file)

/-- The order of files; no file comes before all others. -/
def fileLe : Option Path → Option Path → Bool
  | none, _ => true
  | some _, none => false
  | some p, some q => p.le q

def sameFile : Option Path → Option Path → Bool
  | none, none => true
  | some p, some q => p.same q
  | _, _ => false

/-- The findings in the order of their files. -/
def byFile (findings : List α) : List α :=
  findings.mergeSort fun a b => fileLe (fileOf a) (fileOf b)

/-- Splits findings into groups of neighbours with the same file. -/
def groups : List α → List (List α)
  | [] => []
  | f :: fs =>
    match groups fs with
    | (g :: gs) :: rest =>
      if sameFile (fileOf f) (fileOf g) then (f :: g :: gs) :: rest else [f] :: (g :: gs) :: rest
    | other => [f] :: other

/-- The header of a group: the path as its first finding has it. -/
def header (file : Option Path) : String :=
  (file.map (·.text)).getD "<unknown file>"

/-- A group under its header. -/
def groupText (color : Bool) (group : List α) : String :=
  match group with
  | [] => ""
  | f :: _ =>
    line (styled color .cyanBold (header (fileOf f)))
      ++ String.join (group.map (itemLine color)) ++ line ""

/-- The findings under their files. -/
def grouped (color : Bool) (findings : List α) : String :=
  String.join ((groups (byFile findings)).map (groupText color))

/-- The findings in the order of the report. -/
def ungrouped (color : Bool) (findings : List α) : String :=
  String.join (findings.map (itemLine color)) ++ line ""

/-- The number of findings and what they are. -/
def countText (findings : List α) : String :=
  toString findings.length ++ " unused " ++ Finding.kind α

/-- The rule above the summary. -/
def rule : String :=
  String.ofList (List.replicate 60 '─')

/-- The text of a terminal report. -/
def terminalText (color grouping : Bool) (o : Outcome α) : String :=
  match o with
  | .noIssues => line (styled color .greenBold ("No unused " ++ Finding.kind α ++ " found!"))
  | .failed message => line (styled color .redBold "Scan failed:" ++ " " ++ message)
  | .findings items =>
    line "" ++ line (styled color .yellowBold ("Found " ++ countText items ++ ":")) ++ line ""
      ++ (if grouping then grouped color items else ungrouped color items)
      ++ line (styled color .dimmed rule) ++ line ("Summary: " ++ countText items)

end Deadwood.Report

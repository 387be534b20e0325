import Deadwood.Cli.Options
import Deadwood.Report.Terminal
import Deadwood.Scan.Unused
import Deadwood.Settings.Load

/-!
# The command

A command line is answered by an exit code, a text, and possibly a file to be written.
-/

namespace Deadwood.Cli

open Scan Usage

structure Answer where
  code : Nat
  /-- The text for the standard output. -/
  output : String
  /-- The text for the standard error output. -/
  complaint : String
  /-- The file to be written, if any. -/
  written : Option (Path × String)
  deriving DecidableEq, Repr

/-- Where a command runs. -/
structure Host where
  tree : FileTree
  processors : Nat
  /-- Whether the output shows colors. -/
  color : Bool

def versionLine : String :=
  "bigclean 0.1.0\n"

def helpText : String :=
  String.intercalate "\n" [
    "Usage: bigclean [OPTIONS] [PATH]",
    "",
    "  -s, --scan <classes|methods>    What to look for",
    "  -m, --mode <regex|ast>          Engine for the class scan",
    "  -c, --config <FILE>             Path to configuration file",
    "  -f, --format <terminal|json>    Output format",
    "  -o, --output <FILE>             Output file (for json format)",
    "  -j, --threads <N>               Worker threads",
    "      --timeout <SECONDS>         Seconds to wait for outstanding work",
    "  -v, --verbose                   Verbose output",
    "  -q, --quiet                     Only errors and the report",
    "  -h, --help                      Print help",
    "  -V, --version                   Print version",
    ""]

/-- The answer to a command that cannot be carried out. -/
def refuse (code : Nat) (message : String) : Answer :=
  ⟨code, "", "Error: " ++ message ++ "\n", none⟩

/-- The settings that the options ask for; numbers given as options win. -/
def settings (h : Host) (o : Options) (root : Path) : Except SettingsError Settings := do
  let s ← match o.config with
    | some path => Settings.load h.tree path
    | none => Settings.loadFor h.tree root
  let scan := { s.scan with
    threads := o.threads.or s.scan.threads
    timeoutSecs := o.timeout.getD s.scan.timeoutSecs }
  return { s with scan := scan }

/-- Report an outcome. Only the machine-readable form goes to a file. -/
def answer {α : Type} [Report.Finding α] (h : Host) (o : Options) (outcome : Outcome α) : Answer :=
  let code := if outcome.isFailed then 1 else 0
  match o.format.getD .terminal, o.output with
  | .terminal, _ => ⟨code, Report.terminalText h.color true outcome, "", none⟩
  | .json, none => ⟨code, Report.jsonText outcome ++ "\n", "", none⟩
  | .json, some path =>
    if (h.tree.placeToWrite path).toBool then
      ⟨code, "Report written to: " ++ path.text ++ "\n", "", some (path, Report.jsonText outcome)⟩
    else refuse 1 ("Failed to write report: " ++ path.text)

/-- Scan as the options ask for. -/
def scan (h : Host) (o : Options) : Answer :=
  let root := o.path.getD ⟨"."⟩
  match settings h o root with
  | .error e => refuse 1 e.message
  | .ok s =>
    let setup : Setup := ⟨h.tree, s, h.processors, fun _ => none⟩
    match o.target.getD .classes, o.mode.getD .text with
    | .classes, .text => answer h o (setup.classesByText root).outcome
    | .classes, .model => answer h o (setup.classesByModel root).outcome
    | .methods, _ => answer h o (setup.methods root).outcome

/-- Answer a command line. -/
def run (h : Host) (args : List String) : Answer :=
  match parse? args with
  | none => refuse 2 "invalid arguments"
  | some .version => ⟨0, versionLine, "", none⟩
  | some .help => ⟨0, helpText, "", none⟩
  | some (.scan o) => scan h o

end Deadwood.Cli

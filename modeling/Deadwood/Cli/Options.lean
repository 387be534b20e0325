import Deadwood.Path
import Deadwood.Text.Digit

/-!
# Options of the command line

Arguments are read one after the other. An option stands by itself, as one letter behind a dash or as
a word behind two; its value follows in the same argument or in the next one. Each may be given once.
-/

namespace Deadwood.Cli

/-- What to look for. -/
inductive Target where
  | classes
  | methods
  deriving DecidableEq, Repr

/-- How classes are looked for. -/
inductive Mode where
  /-- By the texts of the files. -/
  | text
  /-- By the model of the sources. -/
  | model
  deriving DecidableEq, Repr

/-- How the report is written. -/
inductive Format where
  | terminal
  | json
  deriving DecidableEq, Repr

/-- The options that were given. -/
structure Options where
  path : Option Path
  target : Option Target
  mode : Option Mode
  config : Option Path
  format : Option Format
  output : Option Path
  threads : Option Nat
  timeout : Option Nat
  verbose : Bool
  quiet : Bool
  deriving DecidableEq, Repr

def Options.none : Options :=
  ⟨.none, .none, .none, .none, .none, .none, .none, .none, false, false⟩

/-- What a command line asks for. -/
inductive Request where
  | scan (options : Options)
  | version
  | help
  deriving DecidableEq, Repr

/-- An option by its name. -/
inductive Switch where
  | scan
  | mode
  | config
  | format
  | output
  | threads
  | timeout
  | verbose
  | quiet
  | help
  | version
  deriving DecidableEq, Repr

namespace Switch

/-- The options by letter. -/
def ofLetter? : Char → Option Switch
  | 's' => some .scan
  | 'm' => some .mode
  | 'c' => some .config
  | 'f' => some .format
  | 'o' => some .output
  | 'j' => some .threads
  | 'v' => some .verbose
  | 'q' => some .quiet
  | 'h' => some .help
  | 'V' => some .version
  | _ => none

/-- The options by word. -/
def ofWord? : String → Option Switch
  | "scan" => some .scan
  | "mode" => some .mode
  | "config" => some .config
  | "format" => some .format
  | "output" => some .output
  | "threads" => some .threads
  | "timeout" => some .timeout
  | "verbose" => some .verbose
  | "quiet" => some .quiet
  | "help" => some .help
  | "version" => some .version
  | _ => none

/-- Whether an option has a value. -/
def takesValue : Switch → Bool
  | .verbose | .quiet | .help | .version => false
  | _ => true

end Switch

/-! ## Values -/

/-- A number of 64 bits, with an optional plus sign. -/
def number? (text : String) : Option Nat :=
  let digits := match text.toList with
    | '+' :: cs => cs
    | cs => cs
  (Text.digits? 10 digits).filter (· < UInt64.size)

def target? : String → Option Target
  | "classes" => some .classes
  | "methods" => some .methods
  | _ => none

def mode? : String → Option Mode
  | "regex" => some .text
  | "ast" => some .model
  | _ => none

def format? : String → Option Format
  | "terminal" => some .terminal
  | "json" => some .json
  | _ => none

/-- A path, which is not empty. -/
def path? (text : String) : Option Path :=
  if text.isEmpty then none else some ⟨text⟩

/-- Give a value to an option that has none. -/
def once {α : Type} (old new : Option α) : Option (Option α) :=
  if old.isSome then none else new.map some

namespace Options

/-- Give an option its value. -/
def set? (o : Options) (s : Switch) (value : String) : Option Options :=
  match s with
  | .scan => (once o.target (target? value)).map fun v => { o with target := v }
  | .mode => (once o.mode (mode? value)).map fun v => { o with mode := v }
  | .config => (once o.config (path? value)).map fun v => { o with config := v }
  | .format => (once o.format (format? value)).map fun v => { o with format := v }
  | .output => (once o.output (path? value)).map fun v => { o with output := v }
  | .threads => (once o.threads (number? value)).map fun v => { o with threads := v }
  | .timeout => (once o.timeout (number? value)).map fun v => { o with timeout := v }
  | _ => Option.none

/-- Give the path to scan. -/
def setPath? (o : Options) (text : String) : Option Options :=
  (once o.path (path? text)).map fun v => { o with path := v }

end Options

/-! ## Arguments -/

/-- What reading an argument comes to. -/
inductive Reading where
  /-- The argument is read whole. -/
  | options (o : Options)
  /-- The value of an option has to follow. -/
  | awaits (s : Switch) (o : Options)
  /-- Nothing further is read. -/
  | request (r : Request)
  | invalid

namespace Reading

def ofOption : Option Options → Reading
  | some o => .options o
  | none => .invalid

/-- Read an option without value. -/
def flag (o : Options) : Switch → Reading
  | .verbose => if o.verbose then .invalid else .options { o with verbose := true }
  | .quiet => if o.quiet then .invalid else .options { o with quiet := true }
  | .help => .request .help
  | .version => .request .version
  | _ => .invalid

/-- Read letters behind one dash. Behind a letter that has a value comes the value, also after an
equals sign. -/
def letters (o : Options) : List Char → Reading
  | [] => .options o
  | c :: cs =>
    match Switch.ofLetter? c with
    | none => .invalid
    | some s =>
      if s.takesValue then
        match cs with
        | [] => .awaits s o
        | '=' :: value => ofOption (o.set? s (String.ofList value))
        | value => ofOption (o.set? s (String.ofList value))
      else
        match flag o s with
        | .options o => letters o cs
        | stop => stop

/-- Read a word behind two dashes, with a value if there is an equals sign. -/
def word (o : Options) (cs : List Char) : Reading :=
  let name := cs.takeWhile (· != '=')
  match Switch.ofWord? (String.ofList name), cs.drop name.length with
  | none, _ => .invalid
  | some s, [] => if s.takesValue then .awaits s o else flag o s
  | some s, _ :: value => ofOption (o.set? s (String.ofList value))

/-- Read an argument. -/
def argument (o : Options) (arg : String) : Reading :=
  match arg.toList with
  | '-' :: '-' :: cs => word o cs
  | '-' :: c :: cs => letters o (c :: cs)
  | _ => ofOption (o.setPath? arg)

end Reading

/-- Whether an argument begins like an option. -/
def looksLikeOption (arg : String) : Bool :=
  match arg.toList with
  | '-' :: _ :: _ => true
  | _ => false

/-- Read arguments; `awaited` is an option whose value has to come next. -/
def parseFrom (o : Options) (awaited : Option Switch) : List String → Option Request
  | [] => if awaited.isSome then none else some (.scan o)
  | arg :: args =>
    match awaited with
    | some s => if looksLikeOption arg then none else (o.set? s arg).bind (parseFrom · none args)
    | none =>
      if arg = "--" then (args.foldlM Options.setPath? o).map .scan
      else
        match Reading.argument o arg with
        | .options o => parseFrom o none args
        | .awaits s o => parseFrom o (some s) args
        | .request r => some r
        | .invalid => none

/-- What a command line asks for, if it is well formed. -/
def parse? (args : List String) : Option Request :=
  parseFrom .none none args

end Deadwood.Cli

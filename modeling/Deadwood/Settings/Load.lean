import Deadwood.Files.Tree
import Deadwood.Settings.Toml.Reader
import Deadwood.Settings.Yaml.Reader

/-!
# Loading settings

The extension of a settings file tells its format. Without a known one, both are tried.
-/

namespace Deadwood

/-- Why settings cannot be loaded. -/
inductive SettingsError where
  /-- The file cannot be read as text. -/
  | unreadable (path : Path)
  | invalidYaml
  | invalidToml
  /-- The file has neither of the formats. -/
  | invalid
  deriving DecidableEq, Repr

/-- The text shown for an error. -/
def SettingsError.message : SettingsError → String
  | .unreadable path => "Failed to read config file: " ++ path.text
  | .invalidYaml => "Failed to parse YAML config"
  | .invalidToml => "Failed to parse TOML config"
  | .invalid => "Failed to parse config file"

namespace Settings

/-- Read settings in the format that an extension stands for. -/
def parse (extension : Option String) (text : String) : Except SettingsError Settings :=
  let orElse (e : SettingsError) : Option Settings → Except SettingsError Settings
    | some s => .ok s
    | none => .error e
  match extension with
  | some "yml" | some "yaml" => orElse .invalidYaml (Yaml.settings? text)
  | some "toml" => orElse .invalidToml (Toml.settings? text)
  | _ => orElse .invalid (Yaml.settings? text <|> Toml.settings? text)

/-- Load settings from a file. -/
def load (t : FileTree) (path : Path) : Except SettingsError Settings :=
  match (t.read path).toOption.bind Utf8.text? with
  | none => .error (.unreadable path)
  | some text => parse path.extension? text

/-- The names of settings files, in the order in which they are looked for. -/
def fileNames : List String :=
  [".bigclean.yml", ".bigclean.yaml", ".bigclean.toml", "bigclean.yml", "bigclean.yaml",
    "bigclean.toml"]

/-- Load the settings of a source root; without a settings file they are the default ones. -/
def loadFor (t : FileTree) (root : Path) : Except SettingsError Settings :=
  match (fileNames.map root.child).find? t.isFile with
  | none => .ok .default
  | some path => load t path

end Settings

end Deadwood

import Deadwood.Cli.Command

/-!
# The program

Takes a picture of the files that a command can see, answers the command by it, and carries the answer
out.
-/

namespace Deadwood.Main

/-- The names on an absolute path. -/
def placeOf (path : String) : Place :=
  (path.splitOn "/").filter (· != "")

/-- The place that a path really leads to. -/
def realPlace (path : String) : IO Place := do
  return placeOf (← IO.FS.realPath ((← IO.currentDir) / path)).toString

/-- Whether a link stands under a path. -/
def isLink (path : String) : IO Bool := do
  try
    let facts ← ((← IO.currentDir) / path).symlinkMetadata
    return facts.type == .symlink
  catch _ => return false

/-- All that stands under a path. What cannot be read is left out. -/
partial def load (path : String) : IO (Option Entry) := do
  let here := (← IO.currentDir) / path
  try
    if ← isLink path then
      return some (.link (← IO.FS.realPath here).toString)
    else if ← here.isDir then
      let names := (← here.readDir).toList.map (·.fileName)
      let children ← names.filterMapM fun name => do
        return (← load (path ++ "/" ++ name)).map fun e => (name, e)
      return some (.directory children)
    else return some (.file (← IO.FS.readBinFile here))
  catch _ => return none

/-- Put an entry into a picture, unless something stands there. -/
def put (root : Entry) (place : Place) (entry : Entry) : Entry :=
  if (root.find? place).isSome then root else root.insert place entry

/-- Put the directories and links on a path into a picture. -/
def putWay (root : Entry) (path : String) : IO Entry := do
  let pieces := path.splitOn "/"
  let mut root := root
  for n in List.range (pieces.length + 1) do
    let front := String.intercalate "/" (pieces.take n)
    let here := if front.isEmpty then (if n == 0 then "." else "/") else front
    try
      if ← isLink here then
        let around := String.intercalate "/" (pieces.take (n - 1))
        let parent ← realPlace (if around.isEmpty then (if n == 1 then "." else "/") else around)
        let target := "/" ++ String.intercalate "/" (← realPlace here)
        root := put root (parent ++ [pieces.getD (n - 1) ""]) (.link target)
      if ← ((← IO.currentDir) / here).isDir then
        root := put root (← realPlace here) (.directory [])
    catch _ => pure ()
  return root

/-- Put what a path leads to into a picture. -/
def putAll (root : Entry) (path : String) : IO Entry := do
  try
    let place ← realPlace path
    match ← load ("/" ++ String.intercalate "/" place) with
    | some entry => return root.insert place entry
    | none => return root
  catch _ => return root

/-- Put the rule files of a directory into a picture. -/
def putRules (root : Entry) (place : Place) : IO Entry := do
  let mut root := root
  for names in [[".ignore"], [".gitignore"], [".git", "info", "exclude"], [".git"]] do
    let full := place ++ names
    let path := "/" ++ String.intercalate "/" full
    let here := (← IO.currentDir) / path
    if ← here.isDir then root := put root full (.directory [])
    else if ← here.pathExists then
      if let some entry ← load path then root := put root full entry
  return root

/-- A picture of the files that a command can see. -/
def picture (o : Cli.Options) : IO FileTree := do
  let path := (o.path.map (·.text)).getD "."
  let working ← realPlace "."
  let mut root ← putAll (.directory []) path
  root := put root working (.directory [])
  root ← putWay root path
  let place ← try realPlace path catch _ => pure []
  for n in List.range place.length do
    root ← putRules root (place.take n)
  for file in (o.config.toList ++ o.output.toList).map (·.text) do
    root ← putWay root file
    unless (root.find? (← try realPlace file catch _ => pure [])).any (fun e => !e.children.isEmpty) do
      root ← putAll root file
  return ⟨root, working⟩

/-- Answer a command line. -/
def answer (args : List String) : IO Cli.Answer := do
  let out ← IO.getStdout
  let color := (← out.isTty) && (← IO.getEnv "NO_COLOR").isNone
  let tree ← match Cli.parse? args with
    | some (.scan o) => picture o
    | _ => pure ⟨.directory [], []⟩
  return Cli.run ⟨tree, 1, color⟩ args

end Deadwood.Main

open Deadwood in
def main (args : List String) : IO UInt32 := do
  let a ← Main.answer args
  try
    if let some (path, text) := a.written then IO.FS.writeFile path.text text
    IO.print a.output
    IO.eprint a.complaint
    return a.code.toUInt32
  catch e =>
    IO.eprintln s!"Error: {e}"
    return 1

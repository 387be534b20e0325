import Deadwood.Error
import Deadwood.Files.Utf8

/-!
# Trees of files

All files that a run can see, as a value. Paths are followed piece by piece as they are written: each
further piece needs a directory to stand in, and links are followed where they stand.
-/

namespace Deadwood

/-- What stands under a name. -/
inductive Entry where
  | file (bytes : ByteArray)
  /-- Refers to another path. -/
  | link (target : String)
  | directory (children : List (String × Entry))
  deriving Inhabited

/-- The names from the root of a tree down to an entry. -/
abbrev Place := List String

namespace Entry

def children : Entry → List (String × Entry)
  | .directory children => children
  | _ => []

/-- The entry at a place below this one, no links being followed. -/
def find? : Place → Entry → Option Entry
  | [], e => some e
  | name :: names, e => (e.children.lookup name).bind (find? names)

/-- Put an entry at a place below this one, with the directories on the way. -/
def insert (e : Entry) (place : Place) (new : Entry) : Entry :=
  match place with
  | [] => new
  | name :: names =>
    let old := (e.children.lookup name).getD (.directory [])
    .directory (e.children.filter (·.1 != name) ++ [(name, old.insert names new)])

end Entry

/-- A tree of files and the directory that paths without a leading slash start from. -/
structure FileTree where
  root : Entry
  working : Place

namespace FileTree

/-- The place where a path starts and the pieces to follow from there. -/
def start (here : Place) (path : String) : Place × List String :=
  let pieces := (Text.splitAtChar '/' path.toList).map String.ofList
  (if path.toList.head? == some '/' then [] else here, pieces)

/-- Follow pieces of a path from a place through at most `links` links. -/
def follow (t : FileTree) (links : Nat) (here : Place) (pieces : List String) :
    Except FileFault Place :=
  match pieces with
  | [] => .ok here
  | piece :: rest =>
    match t.root.find? here with
    | some (.directory children) =>
      if piece = "" ∨ piece = "." then t.follow links here rest
      else if piece = ".." then t.follow links here.dropLast rest
      else
        match children.lookup piece with
        | none => .error .missing
        | some (.link target) =>
          match links with
          | 0 => .error .linkLoop
          | links + 1 =>
            let (here, pieces) := start here target
            t.follow links here (pieces ++ rest)
        | some _ => t.follow links (here ++ [piece]) rest
    | some _ => .error .notDirectory
    | none => .error .missing
termination_by (links, pieces.length)

/-- The place that a path leads to, all links being followed. -/
def resolve (t : FileTree) (path : Path) : Except FileFault Place :=
  if path.text.isEmpty then .error .missing
  else
    let (here, pieces) := start t.working path.text
    t.follow 40 here pieces

/-- The entry that a path leads to. -/
def entry (t : FileTree) (path : Path) : Except FileFault Entry := do
  match t.root.find? (← t.resolve path) with
  | some e => return e
  | none => throw .missing

/-- Whether a path leads to something. -/
def exists? (t : FileTree) (path : Path) : Bool :=
  (t.entry path).toBool

/-- Whether a path leads to a file. -/
def isFile (t : FileTree) (path : Path) : Bool :=
  match t.entry path with
  | .ok (.file _) => true
  | _ => false

/-- The bytes of the file that a path leads to. -/
def read (t : FileTree) (path : Path) : Except FileFault (List UInt8) := do
  match ← t.entry path with
  | .file bytes => return bytes.toList
  | _ => throw .isDirectory

/-- The text of a source file, with replacement characters for what is no text. -/
def sourceText (t : FileTree) (path : Path) : Except ScanError String :=
  match t.read path with
  | .ok bytes => .ok (Utf8.text bytes)
  | .error fault => .error (.file path fault)

/-- The place where a file is written under pieces of a path: that of the file itself, or a free name
in a directory. A link at the end is followed. -/
def followToWrite (t : FileTree) (links : Nat) (here : Place) (pieces : List String) :
    Except FileFault Place := do
  let directory ← t.follow 40 here pieces.dropLast
  let name := pieces.getLast?.getD ""
  match t.root.find? directory with
  | some (.directory children) =>
    if name = "" ∨ name = "." ∨ name = ".." then throw .isDirectory
    else
      match children.lookup name with
      | some (.directory _) => throw .isDirectory
      | some (.link target) =>
        match links with
        | 0 => throw .linkLoop
        | links + 1 =>
          let (here, pieces) := start directory target
          t.followToWrite links here pieces
      | _ => return directory ++ [name]
  | some _ => throw .notDirectory
  | none => throw .missing

/-- The place where a file is written under a path. -/
def placeToWrite (t : FileTree) (path : Path) : Except FileFault Place :=
  if path.text.isEmpty then .error .missing
  else
    let (here, pieces) := start t.working path.text
    t.followToWrite 40 here pieces

/-- The tree after a file is written. -/
def write (t : FileTree) (path : Path) (text : String) : Except FileFault FileTree := do
  let place ← t.placeToWrite path
  return { t with root := t.root.insert place (.file text.toUTF8) }

/-- The path of a place, from the root of the tree. -/
def pathOf (place : Place) : Path :=
  ⟨"/" ++ String.intercalate "/" place⟩

end FileTree

end Deadwood

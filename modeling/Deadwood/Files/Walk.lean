import Deadwood.Files.Ignore
import Deadwood.Settings.Glob

/-!
# Finding source files

The files below a root are found without following links. Hidden names are passed over, and so is
what rule files say: `.ignore` files everywhere, and the rule files of version control inside a
directory tree under version control. Rule files of the directories around the root count as well.
Rules that a user has for all repositories belong to no tree, and there are none here: what is said
of a `Scanner` holds for other walks too.
-/

namespace Deadwood

open Ignore (Rule Verdict)

/-- A directory with its rules. -/
structure Scope where
  /-- The name of the directory in the one around it. -/
  name : String
  /-- The rules of its `.ignore` file. -/
  ignore : List Rule
  /-- The rules of its `.gitignore` file. -/
  gitIgnore : List Rule
  /-- The rules of its repository. -/
  gitExclude : List Rule
  /-- Whether a repository has its root here. -/
  isRepository : Bool

namespace Scope

/-- What the rules chosen by `rules` say about a path, the innermost scope with a rule for it
deciding. -/
def verdict? (rules : Scope → List Rule) (isDirectory : Bool) : String → List Scope → Option Verdict
  | _, [] => none
  | path, s :: scopes =>
    match Ignore.verdict? (rules s) isDirectory path with
    | some v => some v
    | none => verdict? rules isDirectory (s.name ++ "/" ++ path) scopes

/-- The scopes up to the root of the innermost repository; none outside of repositories. -/
def inRepository : List Scope → List Scope
  | [] => []
  | s :: scopes =>
    if s.isRepository then [s]
    else
      match inRepository scopes with
      | [] => []
      | inner => s :: inner

/-- Whether an entry of the innermost scope is left out. A rule for the entry beats its hidden name,
and the kinds of rule files come one after the other. -/
def skips (scopes : List Scope) (name : String) (isDirectory : Bool) : Bool :=
  let repository := inRepository scopes
  let verdict := (verdict? Scope.ignore isDirectory name scopes)
    <|> (verdict? Scope.gitIgnore isDirectory name repository)
    <|> (verdict? Scope.gitExclude isDirectory name repository)
  match verdict with
  | some .ignored => true
  | some .kept => false
  | none => name.toList.head? == some '.'

end Scope

namespace FileTree

/-- The rules of a file below a directory. -/
def rulesAt (t : FileTree) (place : Place) (file : String) : List Rule :=
  match t.read (pathOf (place ++ [file])) with
  | .ok bytes => Ignore.rulesOf bytes
  | .error _ => []

/-- The scope of a directory. -/
def scopeAt (t : FileTree) (place : Place) : Scope where
  name := place.getLast?.getD ""
  ignore := t.rulesAt place ".ignore"
  gitIgnore := t.rulesAt place ".gitignore"
  gitExclude := t.rulesAt place ".git/info/exclude"
  isRepository := t.exists? (pathOf (place ++ [".git"]))

/-- The scopes of a directory and of those around it, the innermost first. -/
def scopesAt (t : FileTree) (place : Place) : List Scope :=
  (List.range (place.length + 1)).map fun n => t.scopeAt (place.take (place.length - n))

/-- The files below a directory. -/
def filesBelow (t : FileTree) (scopes : List Scope) (place : Place) (path : Path) :
    List (String × Entry) → List Path
  | [] => []
  | (name, entry) :: rest =>
    let here : List Path :=
      match entry with
      | .file _ => if Scope.skips scopes name false then [] else [path.child name]
      | .link _ => []
      | .directory children =>
        if Scope.skips scopes name true then []
        else
          let place := place ++ [name]
          t.filesBelow (t.scopeAt place :: scopes) place (path.child name) children
    here ++ t.filesBelow scopes place path rest

/-- The files at or below a root, which is never left out itself. -/
def filesAt (t : FileTree) (root : Path) : Except ScanError (List Path) :=
  match t.resolve root with
  | .error _ => .error (.missingRoot root)
  | .ok place =>
    match t.root.find? place with
    | none => .error (.missingRoot root)
    | some (.directory children) => .ok (t.filesBelow (t.scopesAt place) place root children)
    | some _ => .ok [root]

end FileTree

/-- The source files among some files that the settings do not leave out, in order. -/
def Settings.sourcesAmong (settings : Settings) (files : List Path) : List Path :=
  (files.filter fun p => p.isJava && !settings.excludes p).mergeSort Path.le

/-- The source files at or below a root that the settings do not leave out, in order. -/
def FileTree.sources (t : FileTree) (settings : Settings) (root : Path) :
    Except ScanError (List Path) := do
  let files ← t.filesAt root
  return settings.sourcesAmong files

end Deadwood

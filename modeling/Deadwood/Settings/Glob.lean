import Deadwood.Path
import Deadwood.Settings

/-!
# Patterns of paths

A pattern is a text with stars. Without a slash, one star at the front or at the end stands for any
text there. `**/name/**` stands for all paths with that directory in them. A pattern with one double
star elsewhere goes by what stands before and after it. Any other pattern is a whole path.
-/

namespace Deadwood

open Text

namespace Glob

/-- The pieces of a text between the occurrences of `**`, with `fuel` more pieces at most. -/
def splitStarsFrom : Nat → List Char → List (List Char)
  | 0, cs => [cs]
  | fuel + 1, cs =>
    match cs with
    | [] => [[]]
    | '*' :: '*' :: rest => [] :: splitStarsFrom fuel rest
    | c :: rest =>
      match splitStarsFrom fuel rest with
      | [] => [[c]]
      | piece :: pieces => (c :: piece) :: pieces

/-- The pieces of a text between the occurrences of `**`. -/
def splitStars (cs : List Char) : List (List Char) :=
  splitStarsFrom cs.length cs

def startsWith (text start : List Char) : Bool :=
  start.isPrefixOf text

def endsWith (text tail : List Char) : Bool :=
  tail.isSuffixOf text

def contains (text part : List Char) : Bool :=
  occursIn part text

/-- The directory name in a pattern `**/name/**`. -/
def directoryName (pattern : List Char) : List Char :=
  let inner := trimEndOf "/**".toList (trimStartOf "**/".toList pattern)
  trimEndOf ['/'] (trimStartOf ['/'] inner)

/-- Whether a path has a directory in it. -/
def hasDirectory (name text : List Char) : Bool :=
  contains text ('/' :: name ++ ['/']) || startsWith text (name ++ ['/'])

/-- Whether a path fits what stands before and after the one double star of a pattern. -/
def matchesAround (before after text : List Char) : Bool :=
  let front := trimEndOf ['/'] before
  let back := trimStartOf ['/'] after
  if front.isEmpty && back.isEmpty then true
  else if front.isEmpty then endsWith text back || contains text ('/' :: back)
  else if back.isEmpty then startsWith text front || contains text (front ++ ['/'])
  else
    (startsWith text front || contains text ('/' :: front ++ ['/']))
      && (endsWith text back || contains text ('/' :: back))

/-- Whether a path fits a pattern. -/
def fits (pattern text : List Char) : Bool :=
  if pattern.head? == some '*' && !pattern.contains '/' then endsWith text pattern.tail
  else if pattern.getLast? == some '*' && !pattern.contains '/' then
    startsWith text pattern.dropLast
  else if startsWith pattern "**/".toList && endsWith pattern "/**".toList then
    hasDirectory (directoryName pattern) text
  else
    match splitStars pattern with
    | [before, after] => matchesAround before after text
    | _ => text == pattern

end Glob

/-- Whether one of the patterns of the settings leaves a path out. Backslashes in it count as
slashes. -/
def Settings.excludes (s : Settings) (path : Path) : Bool :=
  let text := replaceChar '\\' '/' path.text.toList
  s.exclude.any fun pattern => Glob.fits pattern.toList text

end Deadwood

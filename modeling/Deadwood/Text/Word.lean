import Deadwood.Text.Alphabetic
import Deadwood.Text.Mark
import Deadwood.Text.Number

/-!
# Word characters

Two unions of character properties: the characters of a word (letters, marks, decimal digits,
connectors and join controls) and the alphanumeric characters (letters and every kind of number).
-/

namespace Deadwood.Text

/-- A character that may stand in a word. -/
def isWordChar (c : Char) : Bool :=
  isAlphabetic c || isMark c

/-- A letter or a number of any kind. -/
def isAlphanumeric (c : Char) : Bool :=
  isAlphabetic c || isNumber c

end Deadwood.Text

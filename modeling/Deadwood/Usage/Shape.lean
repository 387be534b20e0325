import Deadwood.Text.Blank
import Deadwood.Text.Word

/-!
# Shapes of references in source texts

A shape is a row of parts, one of which is the name of a class. A text has a shape if some stretch of
it splits into the parts in order. `Part.Fits` and `Splits` say which stretches do; `Shape.occursIn`
searches for one.
-/

namespace Deadwood.Usage

open Text

/-- A part of a shape. -/
inductive Part where
  /-- These characters. -/
  | text (s : String)
  /-- The name of the class, taken literally. -/
  | name
  /-- Any number of blanks. -/
  | blanks
  /-- One blank or more. -/
  | blanks1
  /-- One word character or more. -/
  | word
  /-- Any number of characters on one line. -/
  | anything
  /-- A blank or one of these characters. -/
  | blankOr (s : String)
  /-- One of these characters. -/
  | oneOf (s : String)
  deriving DecidableEq, Repr

/-- Whether a stretch of text is what a part stands for. -/
def Part.Fits (className : List Char) : Part → List Char → Prop
  | .text s, cs => cs = s.toList
  | .name, cs => cs = className
  | .blanks, cs => ∀ c ∈ cs, isBlank c = true
  | .blanks1, cs => cs ≠ [] ∧ ∀ c ∈ cs, isBlank c = true
  | .word, cs => cs ≠ [] ∧ ∀ c ∈ cs, isWordChar c = true
  | .anything, cs => ∀ c ∈ cs, c ≠ '\n'
  | .blankOr s, cs => ∃ c, cs = [c] ∧ (isBlank c = true ∨ c ∈ s.toList)
  | .oneOf s, cs => ∃ c, cs = [c] ∧ c ∈ s.toList

/-- Whether a stretch of text splits into parts in order. -/
inductive Splits (className : List Char) : List Part → List Char → Prop where
  | nil : Splits className [] []
  | cons {part : Part} {parts : List Part} {front back : List Char} :
    part.Fits className front → Splits className parts back →
    Splits className (part :: parts) (front ++ back)

/-- What is left of a text after `front`. -/
def after? : List Char → List Char → Option (List Char)
  | [], cs => some cs
  | _ :: _, [] => none
  | f :: front, c :: cs => if f = c then after? front cs else none

/-- What is left of a text after any number of characters of a class. -/
def tailsWhile (p : Char → Bool) : List Char → List (List Char)
  | [] => [[]]
  | c :: cs => (c :: cs) :: if p c then tailsWhile p cs else []

/-- What is left of a text after one character of a class. -/
def afterOne? (p : Char → Bool) : List Char → Option (List Char)
  | [] => none
  | c :: cs => if p c then some cs else none

/-- What can be left of a text after a part. -/
def Part.rests (className : List Char) : Part → List Char → List (List Char)
  | .text s, cs => (after? s.toList cs).toList
  | .name, cs => (after? className cs).toList
  | .blanks, cs => tailsWhile isBlank cs
  | .blanks1, cs => ((afterOne? isBlank cs).map (tailsWhile isBlank)).getD []
  | .word, cs => ((afterOne? isWordChar cs).map (tailsWhile isWordChar)).getD []
  | .anything, cs => tailsWhile (· != '\n') cs
  | .blankOr s, cs => (afterOne? (fun c => isBlank c || s.toList.contains c) cs).toList
  | .oneOf s, cs => (afterOne? (fun c => s.toList.contains c) cs).toList

/-- Whether the front of a text splits into parts. -/
def startsWith (className : List Char) : List Part → List Char → Bool
  | [], _ => true
  | part :: parts, cs => (part.rests className cs).any (startsWith className parts)

/-- Whether some stretch of a text splits into parts. -/
def somewhere (className : List Char) (parts : List Part) : List Char → Bool
  | [] => startsWith className parts []
  | c :: cs => startsWith className parts (c :: cs) || somewhere className parts cs

/-- A shape of references and what it is called. -/
structure Shape where
  title : String
  parts : List Part
  deriving DecidableEq, Repr

/-- Whether a text has a shape with the name of a class. -/
def Shape.occursIn (s : Shape) (className text : String) : Bool :=
  somewhere className.toList s.parts text.toList

/-- The shapes that count as a use of a class. -/
def shapes : List Shape :=
  [ ⟨"import", [.text "import", .blanks1, .anything, .text ".", .name, .blanks, .text ";"]⟩,
    ⟨"extends", [.text "extends", .blanks1, .name, .blankOr "\x7b"]⟩,
    ⟨"implements", [.text "implements", .blanks1, .anything, .name, .blankOr ",\x7b"]⟩,
    ⟨"annotation", [.text "@", .name, .blankOr "("]⟩,
    ⟨"generic", [.text "<", .blanks, .name, .blanks, .text ">"]⟩,
    ⟨"wildcard extends",
      [.text "<", .blanks, .text "?", .blanks1, .text "extends", .blanks1, .name, .blanks,
        .text ">"]⟩,
    ⟨"wildcard super",
      [.text "<", .blanks, .text "?", .blanks1, .text "super", .blanks1, .name, .blanks,
        .text ">"]⟩,
    ⟨"variable", [.name, .blanks1, .word, .blanks, .oneOf ";="]⟩,
    ⟨"array", [.name, .text "[]"]⟩,
    ⟨"instantiation", [.text "new", .blanks1, .name, .blanks, .text "("]⟩,
    ⟨"throws", [.text "throws", .blanks1, .anything, .name]⟩,
    ⟨"catch", [.text "catch", .blanks, .text "(", .blanks, .name]⟩,
    ⟨"return type",
      [.text "public", .blanks1, .anything, .name, .blanks1, .word, .blanks, .text "("]⟩,
    ⟨"first parameter", [.text "(", .blanks, .name, .blanks1, .word]⟩,
    ⟨"next parameter", [.text ",", .blanks, .name, .blanks1, .word]⟩,
    ⟨"static field", [.text "static", .blanks1, .anything, .name, .blanks1, .word]⟩,
    ⟨"class literal", [.name, .text ".class"]⟩,
    ⟨"static access", [.name, .text "."]⟩,
    ⟨"instanceof", [.text "instanceof", .blanks1, .name]⟩ ]

/-- The titles of the shapes that a text has with the name of a class. -/
def shapesIn (className text : String) : List String :=
  (shapes.filter (·.occursIn className text)).map (·.title)

end Deadwood.Usage

/-!
# Styled text for terminals

A style is a code that turns it on; a reset turns all styles off. Where a styled text holds a reset,
the style is turned on again behind it.
-/

namespace Deadwood.Report

/-- The styles of the terminal report. -/
inductive Style where
  | greenBold
  | redBold
  | yellowBold
  | cyanBold
  | dimmed
  deriving DecidableEq, Repr

/-- The code of a style. -/
def Style.code : Style → String
  | .greenBold => "1;32"
  | .redBold => "1;31"
  | .yellowBold => "1;33"
  | .cyanBold => "1;36"
  | .dimmed => "2"

/-- What turns a style on. -/
def Style.start (s : Style) : String :=
  "\x1b[" ++ s.code ++ "m"

/-- What turns all styles off. -/
def reset : String :=
  "\x1b[0m"

/-- A text with `style` behind every reset in it. -/
def restyle (style : List Char) : List Char → List Char
  | '\x1b' :: '[' :: '0' :: 'm' :: cs => '\x1b' :: '[' :: '0' :: 'm' :: style ++ restyle style cs
  | c :: cs => c :: restyle style cs
  | [] => []

/-- A text in a style, or as it is if colours are off. -/
def styled (color : Bool) (s : Style) (text : String) : String :=
  if color then s.start ++ String.ofList (restyle s.start.toList text.toList) ++ reset else text

end Deadwood.Report

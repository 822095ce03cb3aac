/-
# Sessions

What one terminal remembers between two lines: the variables, the stored program, the
programs saved under aliases, the status of the last command, and how text is shown.
-/
import Teletype.Program
import Teletype.Settings

namespace Teletype

/-- How text is shown, and what the prompt is made of. -/
structure Display where
  /-- The color that was chosen. -/
  color : Color
  /-- The theme that was chosen. -/
  theme : Theme
  /-- The end of the prompt. -/
  prompt : Text
  /-- The name in the prompt. -/
  account : Text
  /-- The path in the prompt. -/
  path : Text
  /-- Milliseconds to wait for each character. -/
  delay : Nat
  /-- Whether the terminal reports what it does. -/
  debug : Bool
  deriving DecidableEq, Repr

namespace Display

/-- The display that settings ask for. -/
def ofSettings (s : Settings) : Display where
  color := s.color
  theme := s.theme
  prompt := s.prompt
  account := s.account
  path := s.path
  delay := s.delay
  debug := s.debug

/-- The color that text is printed in: the one that the theme forces, if it forces one. -/
def textColor (d : Display) : Color := d.theme.textColor.getD d.color

/-- What is printed to ask for a line. -/
def promptText (d : Display) : Text :=
  d.account ++ ':' :: d.path ++ d.prompt ++ [' ']

end Display

/-- The state of one terminal apart from its console and its store. -/
structure Session where
  /-- The values of the variables. -/
  bindings : Table Text Text
  /-- The stored program. -/
  program : Program
  /-- The programs saved under aliases. -/
  aliases : Table Text Program
  /-- The status of the last command; zero is success. -/
  status : Int
  /-- Nothing is printed: a command runs for its value only. -/
  silent : Bool
  /-- A program runs. -/
  executing : Bool
  /-- Nothing is printed: a stop was asked for. -/
  stopping : Bool
  /-- The number of programs that run inside one another. -/
  depth : Nat
  /-- How text is shown. -/
  display : Display
  deriving DecidableEq

namespace Session

/-- The session of a terminal that was just set up. -/
def ofSettings (s : Settings) : Session where
  bindings := .empty
  program := .empty
  aliases := .empty
  status := 0
  silent := false
  executing := false
  stopping := false
  depth := 0
  display := .ofSettings s

end Session

end Teletype

/-
# Outputs

What a command gives back to whoever dispatched it: a text, the line at which a running
program goes on, or the wish to end it.
-/
import Teletype.Program

namespace Teletype

/-- What a command gives back. -/
inductive Output
  /-- A text; a running program goes on with its next line. -/
  | text (t : Text)
  /-- A running program goes on at a line. -/
  | jump (line : LineNumber)
  /-- A running program ends, and so does the reading of lines. -/
  | exit
  deriving DecidableEq, Repr

namespace Output

/-- The output as a value. -/
def value : Output → Text
  | text t => t
  | jump line => "GOTO:".toList ++ line.text
  | exit => "EXIT".toList

/-- What a command that failed gives back. -/
def failure : Output := text "ERROR".toList

/-- The output of a command that has nothing to say. -/
def none : Output := text []

end Output

end Teletype

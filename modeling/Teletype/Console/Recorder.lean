/-
# Recorders

A console that keeps what is printed on it and answers reads from a queue of lines.  It
can be told to ask for a stop once a number of texts have been printed.
-/
import Teletype.Console.Grid
import Teletype.Color

namespace Teletype

/-- A console held in memory. -/
structure Recorder where
  /-- The size of the screen. -/
  grid : Grid
  /-- Where the next character goes. -/
  cursor : Cursor := .home
  /-- What was printed since the screen was last cleared. -/
  output : Text := []
  /-- The theme of the screen. -/
  theme : Theme := .plain
  /-- The lines that will be read. -/
  input : List Text := []
  /-- How many texts were printed. -/
  prints : Nat := 0
  /-- A stop is asked for once this many texts were printed. -/
  stopAfter : Option Nat := none
  deriving DecidableEq

namespace Recorder

/-- Print a text. -/
def print (r : Recorder) (t : Text) : Recorder :=
  { r with output := r.output ++ t, prints := r.prints + 1, cursor := r.grid.advance r.cursor t }

/-- Read a line from the queue. -/
def read (r : Recorder) : Option Text × Recorder :=
  match r.input with
  | [] => (none, r)
  | line :: lines => (some line, { r with input := lines })

/-- Add a line at the end of the queue. -/
def enqueue (r : Recorder) (line : Text) : Recorder := { r with input := r.input ++ [line] }

/-- Clear the screen. -/
def clear (r : Recorder) : Recorder := { r with output := [], cursor := .home }

/-- Move the cursor. -/
def moveTo (r : Recorder) (c : Cursor) : Recorder := { r with cursor := c }

/-- Give the screen a theme. -/
def setTheme (r : Recorder) (t : Theme) : Recorder := { r with theme := t }

/-- Take what was printed off the record. -/
def takeOutput (r : Recorder) : Text × Recorder := (r.output, { r with output := [] })

/-- A stop is asked for and was not yet noticed. -/
def wantsStop (r : Recorder) : Bool := r.stopAfter.any (· ≤ r.prints)

/-- Whether a stop is asked for; noticing the request takes it back. -/
def takeStop (r : Recorder) : Bool × Recorder :=
  if r.wantsStop then (true, { r with stopAfter := none }) else (false, r)

end Recorder

end Teletype

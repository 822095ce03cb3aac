/-
# Consoles

What a terminal prints on and reads from: a recorder or a pair of streams.
-/
import Teletype.Console.Recorder
import Teletype.Console.Stream

namespace Teletype

/-- What a terminal prints on and reads from. -/
inductive Console
  /-- A console held in memory. -/
  | recorder (r : Recorder)
  /-- A console between two streams. -/
  | stream (s : Stream)
  deriving DecidableEq

namespace Console

/-- Print a text. -/
def print : Console → Text → Console
  | recorder r, t => recorder (r.print t)
  | stream s, t => stream (s.print t)

/-- Read a line; none is read from a closed input. -/
def read : Console → Option Text × Console
  | recorder r => (r.read.1, recorder r.read.2)
  | stream s => (s.read.1, stream s.read.2)

/-- Clear the screen. -/
def clear : Console → Console
  | recorder r => recorder r.clear
  | stream s => stream s.clear

/-- Move the cursor. -/
def moveTo : Console → Cursor → Console
  | recorder r, c => recorder (r.moveTo c)
  | stream s, c => stream (s.moveTo c)

/-- Where the next character goes. -/
def cursor : Console → Cursor
  | recorder r => r.cursor
  | stream s => s.cursor

/-- The size of the screen. -/
def grid : Console → Grid
  | recorder r => r.grid
  | stream s => s.grid

/-- Give the screen a theme; streams have none. -/
def setTheme : Console → Theme → Console
  | recorder r, t => recorder (r.setTheme t)
  | stream s, _ => stream s

/-- Whether a stop is asked for; noticing the request takes it back.  Streams pass no
request on: a user's interrupt is left out of them. -/
def takeStop : Console → Bool × Console
  | recorder r => (r.takeStop.1, recorder r.takeStop.2)
  | stream s => (false, stream s)

/-- The number of reads that can still be answered, with or without a line. -/
def pending : Console → Nat
  | recorder r => r.input.length
  | stream s => s.input.length

/-- Printing leaves the size of the screen. -/
theorem grid_print (c : Console) (t : Text) : (c.print t).grid = c.grid := by cases c <;> rfl

end Console

end Teletype

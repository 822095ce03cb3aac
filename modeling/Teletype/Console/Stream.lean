/-
# Streams

A console between two streams of characters.  Lines come from one of them; a line that is
no text reads as if the input were closed.  What is printed goes to the other, together
with the control sequences that clear a screen and move its cursor.

These are the streams of a program that nobody interrupts and whose output is not shown on
a screen with colors.  Two things are left out with that.  While a user's interrupt is up
nothing is printed and the cursor stays, until the terminal notices it as a request to stop
or the next line is read.  On a screen each piece that is printed stands between the control
sequences of its color.
-/
import Teletype.Console.Grid
import Teletype.Decimal.Natural
import Teletype.Text.Encoding

namespace Teletype

/-- A console between two streams. -/
structure Stream where
  /-- The size of the screen. -/
  grid : Grid
  /-- Where the next character goes. -/
  cursor : Cursor := .home
  /-- The lines that will be read, without those that are no text. -/
  input : List (Option Text) := []
  /-- What was written. -/
  output : Text := []
  deriving DecidableEq

namespace Stream

/-- Write a text and move the cursor with it. -/
def print (s : Stream) (t : Text) : Stream :=
  { s with output := s.output ++ t, cursor := s.grid.advanceEach s.cursor t }

/-- The line without the marks at its end. -/
def withoutEnd (line : Text) : Text := Text.trimEnd (fun c => c = '\r' || c = '\n') line

/-- Read a line.  The cursor goes to the head of the next row, as it does when a line is
typed. -/
def read (s : Stream) : Option Text × Stream :=
  match s.input with
  | [] => (none, s)
  | none :: lines => (none, { s with input := lines })
  | some line :: lines =>
    (some (withoutEnd line),
      { s with input := lines, cursor := s.grid.scroll ⟨0, s.cursor.row + 1⟩ })

/-- The control sequence that clears the screen. -/
def clearCode : Text := "\x1b[2J\x1b[H".toList

/-- The control sequence that moves the cursor; it counts from one. -/
def moveCode (c : Cursor) : Text :=
  "\x1b[".toList ++ Decimal.ofNat (c.row + 1) ++ ';' :: Decimal.ofNat (c.column + 1) ++ ['H']

/-- Clear the screen. -/
def clear (s : Stream) : Stream := { s with output := s.output ++ clearCode, cursor := .home }

/-- Move the cursor. -/
def moveTo (s : Stream) (c : Cursor) : Stream :=
  { s with output := s.output ++ moveCode c, cursor := c }

/-- Bytes cut behind each line feed.  The last piece has none and is left out if it is
empty. -/
def cutLines : List UInt8 → List (List UInt8)
  | [] => []
  | b :: rest =>
    if b = 10 then [b] :: cutLines rest
    else match cutLines rest with
      | [] => [[b]]
      | line :: lines => (b :: line) :: lines

/-- No byte is lost when lines are cut. -/
theorem flatten_cutLines (bytes : List UInt8) : (cutLines bytes).flatten = bytes := by
  induction bytes with
  | nil => rfl
  | cons b rest ih =>
    unfold cutLines
    split
    · simp [ih]
    · split <;> simp_all

/-- The lines that bytes hold, as they will be read. -/
def linesOf (bytes : ByteArray) : List (Option Text) :=
  (cutLines bytes.toList).map fun line => Text.ofBytes? ⟨line.toArray⟩

end Stream

end Teletype

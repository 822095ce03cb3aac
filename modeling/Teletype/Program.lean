/-
# Stored programs

A program maps line numbers to texts.  Setting a line to the empty text removes it, and
the lines are carried out and listed in ascending order of their numbers.
-/
import Teletype.Table
import Teletype.Decimal.Natural

namespace Teletype

/-- The number of a line of a program. -/
abbrev LineNumber := UInt64

/-- A stored program: texts under line numbers. -/
abbrev Program := Table LineNumber Text

/-- The decimal digits of a line number. -/
def LineNumber.text (n : LineNumber) : Text := Decimal.ofNat n.toNat

namespace Program

/-- The text of a line. -/
def line? (p : Program) (n : LineNumber) : Option Text := p.get? n

/-- Store a text in a line; the empty text removes the line. -/
def setLine (p : Program) (n : LineNumber) (text : Text) : Program :=
  if text = [] then p.erase n else p.insert n text

/-- Move the text of a line to another line, over what was there.  Nothing is moved from
a line that does not exist. -/
def moveLine? (p : Program) (source target : LineNumber) : Option (Text × Program) :=
  (p.line? source).map fun text => (text, (p.erase source).insert target text)

/-- The lines whose numbers are not below a bound, in order. -/
def linesFrom (p : Program) (n : LineNumber) : List (LineNumber × Text) := p.entriesFrom n

/-- The first line whose number is not below a bound. -/
def nextLine? (p : Program) (n : LineNumber) : Option (LineNumber × Text) := p.firstFrom? n

/-- The lines whose numbers lie between two bounds, the bounds included. -/
def linesBetween (p : Program) (first last : LineNumber) : List (LineNumber × Text) :=
  p.entries.filter fun e => first ≤ e.1 && e.1 ≤ last

/-- A line as it is listed: its number, a space, and its text. -/
def entryText (entry : LineNumber × Text) : Text := entry.1.text ++ ' ' :: entry.2

/-- The lines as they are listed, in order. -/
def listing (p : Program) : List Text := p.entries.map entryText

/-- **A line that was set has the text, or none if the text is empty, and every other
line is as before.** -/
theorem line?_setLine (p : Program) (n m : LineNumber) (text : Text) :
    (p.setLine n text).line? m
      = if m = n then (if text = [] then none else some text) else p.line? m := by
  unfold setLine line?
  by_cases ht : text = []
  · simp [ht, Table.get?_erase]
  · simp [ht, Table.get?_insert]

/-- A text is moved from an existing line to its target, and no other line changes. -/
theorem line?_moveLine? {p q : Program} {source target : LineNumber} {text : Text}
    (h : p.moveLine? source target = some (text, q)) (m : LineNumber) :
    q.line? m = if m = target then some text
      else if m = source then none else p.line? m := by
  obtain ⟨_, _, moved⟩ := Option.map_eq_some_iff.mp h
  cases moved
  simp [line?, Table.get?_insert, Table.get?_erase]

end Program

end Teletype

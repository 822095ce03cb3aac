/-
# Shells

A terminal between the streams of a program, with its settings in a file and its store in
a folder: what it starts from, what it does with given input, and what it leaves behind.
-/
import Teletype.Command.Builtin
import Teletype.InputLoop
import Teletype.Settings.Document
import Teletype.Volume

namespace Teletype

namespace Shell

/-- The file that holds the settings if no other is named. -/
def settingsFile : Text := "cterm.toml".toList

/-- How deep lines may stand inside one another. -/
def depthBound : Nat := 1000000

/-- Carry out a line with the built-in commands. -/
def dispatch (line : Text) : Run Output := Registry.builtin.dispatch depthBound line

/-- The terminal that a program starts with.  What was saved is put back as far as it can
be read in the place that is found.  What is saved goes to the place that is there once
the folders that lead to it are made. -/
def start (settings : Settings) (found made : Place) (dice : Dice) (input : List (Option Text)) :
    Terminal :=
  let console : Stream := { grid := ⟨settings.columns, settings.rows⟩, input }
  let t := (Terminal.ofSettings settings (.stream console) (.files found) dice).restore.2
  { t with store := .files made }

/-- The number that a program ends with for a status. -/
def exitCode (status : Int) : Nat := (status % 256).toNat

/-- The exit code of a program whose settings cannot be read. -/
def refusedCode : Nat := 1

/-- What a terminal wrote. -/
def written (t : Terminal) : Text :=
  match t.console with
  | .stream s => s.output
  | .recorder r => r.output

/-- The place where a terminal keeps its files. -/
def placeOf (t : Terminal) : Place :=
  match t.store with
  | .files place => place
  | .memory _ => .absent

/-- A terminal saved anything, or tried to. -/
def hasSaved (t : Terminal) : Bool := t.trace.any fun
  | .saved _ => true
  | _ => false

/-- What a program leaves behind. -/
structure Ending where
  /-- The number that it ends with. -/
  code : Nat
  /-- What it wrote. -/
  output : Text
  /-- The files as they are then. -/
  volume : Volume

/-- Run a program on a volume to the end of its input.  The file of its settings and the
folder of its store are where the texts name them. -/
def run (v : Volume) (file : Text) (dice : Dice) (input : ByteArray) : Option Ending :=
  match Settings.load (v.find? file) with
  | .error _ => some { code := refusedCode, output := [], volume := v }
  | .ok settings =>
    let folder := settings.dataFolder
    let t := start settings (v.place folder) (v.madePlace folder) dice (Stream.linesOf input)
    match InputLoop.run dispatch t with
    | none => none
    | some (status, t) =>
      let volume := if hasSaved t then v.putPlace folder (placeOf t) else v
      some { code := exitCode status, output := written t, volume }

/-! ## Input that comes line by line -/

/-- What an event writes. -/
def writtenBy : Event → Text
  | .printed text _ _ => text
  | .cleared => Stream.clearCode
  | .moved c => Stream.moveCode c
  | _ => []

/-- What was written before the console was asked for a line for the `n`-th time, counted
from zero, if it was; the events are in the order in which they happened. -/
def writtenBefore? : Nat → List Event → Option Text
  | _, [] => none
  | 0, .asked _ :: _ => some []
  | n + 1, .asked _ :: rest => writtenBefore? n rest
  | n, e :: rest => (writtenBefore? n rest).map fun t => writtenBy e ++ t

/-- What one turn of the input loop comes to with the lines that are known so far. -/
inductive Turn
  /-- Another line is needed; this was written before. -/
  | waiting (output : Text)
  /-- The turn is over. -/
  | over (output : Text) (goesOn : Bool) (terminal : Terminal)

/-- Take a turn with the lines that are known so far.  If the console is asked for more of
them the turn is to be taken again from its beginning, with one more line. -/
def turn (t : Terminal) (known : List (Option Text)) : Option Turn :=
  match t.console with
  | .recorder _ => none
  | .stream s =>
    match InputLoop.turn dispatch
        { t with console := .stream { s with input := known, output := [] }, trace := [] } with
    | none => none
    | some (goesOn, after) =>
      match writtenBefore? known.length after.trace.reverse with
      | some output => some (.waiting output)
      | none => some (.over (written after) goesOn after)

end Shell

end Teletype

/-
# Commands

A command has a page in the manual and a way to be carried out.  It is carried out inside
a host, which knows the manual and dispatches lines, so that a command can carry out
others.  A registry holds commands under their names in capitals.
-/
import Teletype.Expansion
import Teletype.Flags
import Teletype.Runner

namespace Teletype

/-! ## The manual -/

/-- What the manual says of a command. -/
structure Page where
  /-- Its name. -/
  name : Text
  /-- Names for its arguments. -/
  hints : List Text := []
  /-- What it does. -/
  help : Text
  /-- It is left out of the list of commands. -/
  hidden : Bool := false
  /-- It belongs to the commands for the stored program. -/
  forPrograms : Bool := false
  deriving DecidableEq, Repr

/-- The pages of all commands, under their names in capitals. -/
abbrev Manual := Table Text Page

namespace Manual

/-- The page of a command, whose name may be in any case. -/
def page? (m : Manual) (name : Text) : Option Page := m.get? (Text.upper name)

/-- The names in the list of commands that begin as a word does. -/
def completions (m : Manual) (start : Text) : List Text :=
  (m.entries.filter fun e => (Text.upper start).isPrefixOf e.1 && !e.2.hidden).map Prod.fst

end Manual

/-! ## Hosts -/

/-- What a command is carried out in. -/
structure Host where
  /-- The manual. -/
  manual : Manual
  /-- How deep tokens of a line may stand inside one another. -/
  bound : Nat
  /-- Carry out a line. -/
  dispatch : Text → Run Output

namespace Host

/-- The words that the words of a line stand for. -/
def expand (h : Host) (words : List Text) : Act (List Text) :=
  Expansion.expandLine h.dispatch h.bound (Text.unwords words)

/-- The words of a line sorted by a grammar of flags. -/
def parse (h : Host) (g : Flags.Grammar) (o : Flags.Options) (words : List Text) :
    Act Flags.Parsed := do
  let words ← if o.evaluate then h.expand words else pure words
  pure (Flags.parse g o words)

/-- Carry out a line for its output, without printing. -/
def valueOf (h : Host) (line : Text) : Act Output := Expansion.valueOf h.dispatch line

/-- Run a program. -/
def run (h : Host) (p : Program) : Act Unit := Runner.run h.dispatch p

/-- Run a program and save the session, whether or not the run failed. -/
def runAndSave (h : Host) (p : Program) : Act Output := ExceptT.mk do
  let result ← (h.run p).run
  Run.save
  pure (result.map fun _ => .none)

end Host

/-! ## Commands -/

/-- A command. -/
structure Command where
  /-- What the manual says of it. -/
  page : Page
  /-- The whole line that a line begun with the command is completed to. -/
  complete : Manual → Session → List Text → Option Text := fun _ _ _ => none
  /-- Carry it out with the words of a line, the word of the command included. -/
  perform : Host → List Text → Act Output

namespace Command

/-- Print a text as a line and give it back. -/
def say (text : Text) : Act Output := do
  Run.printLine text
  pure (.text text)

/-- Say that a word names no command. -/
def unknownCommand (word : Text) : Text :=
  '"' :: word ++ "\" is not recognized as a valid command.".toList

/-- The text if it is the only one. -/
def only? : List Text → Option Text
  | [t] => some t
  | _ => none

end Command

/-- Commands under their names in capitals. -/
abbrev Registry := Table Text Command

namespace Registry

/-- Add a command, in place of one with the same name. -/
def register (r : Registry) (c : Command) : Registry := r.insert (Text.upper c.page.name) c

/-- The command with a name, which may be in any case. -/
def find? (r : Registry) (name : Text) : Option Command := r.get? (Text.upper name)

/-- The pages of the commands. -/
def manual (r : Registry) : Manual := r.mapValues Command.page

/-- The manual has the page of each command and no other. -/
theorem page?_manual (r : Registry) (name : Text) :
    r.manual.page? name = (r.find? name).map Command.page :=
  Table.get?_mapValues _ _ _

end Registry

end Teletype

/-
# Dispatch

A line is carried out by what its first word names: a command, or a program under an
alias, or the number of a line of the stored program.  Commands may dispatch lines in
turn; the first argument of `dispatch` bounds how deep lines may stand inside one another,
and a dispatch that goes deeper has no result.
-/
import Teletype.Command
import Teletype.Text.Blank

namespace Teletype

namespace Registry

/-- Store a text in a line of the program and save the session. -/
def enterLine (n : LineNumber) (text : Text) : Run Output := do
  Run.update fun s => { s with program := s.program.setLine n text }
  Run.save
  pure (.text text)

/-- Say that a word names nothing. -/
def refuseWord (word : Text) : Run Output := do
  Run.update fun s => { s with status := 1 }
  Run.printLine (Command.unknownCommand word)
  pure (.text (Command.unknownCommand word))

/-- Carry out the words of a line. -/
def carryOut (r : Registry) (host : Host) (words : List Text) : Run Output := do
  let word := words.headD []
  let name := Text.upper word
  match r.find? name with
  | some command => Run.settle (command.perform host words)
  | none =>
    match (← Run.session).aliases.get? name with
    | some program => Run.settle (host.runAndSave program)
    | none =>
      match Decimal.toWord? word with
      | some n => enterLine n (Text.unwords (words.drop 1))
      | none => refuseWord word

/-- Carry out a line.  A blank line does nothing, and leaves the status as it was. -/
def carryOutLine (r : Registry) (host : Host) (line : Text) : Run Output := do
  let line := Text.strip line
  if line = [] then do
    Run.note (.blank (← Run.status))
    pure .none
  else do
    Run.note (.entered line)
    Run.update fun s => { s with status := 0 }
    let output ← r.carryOut host (Text.words line)
    Run.note (.left (← Run.status))
    pure output

/-- Carry out a line in which lines stand inside one another at most so deep. -/
def dispatch (r : Registry) : Nat → Text → Run Output
  | 0, _ => Run.endless
  | bound + 1, line => r.carryOutLine ⟨r.manual, bound, dispatch r bound⟩ line

/-- What the commands of lines are carried out in. -/
def host (r : Registry) (bound : Nat) : Host := ⟨r.manual, bound, r.dispatch bound⟩

/-- A blank line does nothing. -/
theorem dispatch_blank (r : Registry) (bound : Nat) {line : Text} (h : Text.strip line = [])
    (s : Terminal) :
    r.dispatch (bound + 1) line s = some (.none, s.note (.blank s.session.status)) := by
  rw [dispatch, carryOutLine, if_pos h]
  rfl

end Registry

end Teletype

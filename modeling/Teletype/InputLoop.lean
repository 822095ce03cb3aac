/-
# The input loop

Lines are asked for, read and carried out until the input is closed or a line asks to
exit.  A line that fails is reported with its status.
-/
import Teletype.Dispatch

namespace Teletype

namespace InputLoop

/-- What is printed behind a line that failed. -/
def statusText (status : Int) : Text :=
  "Command returned non-zero status code: ".toList ++ Decimal.ofInt status

/-- Ask for a line, read it and carry it out; tell whether to go on. -/
def turn (dispatch : Text → Run Output) : Run Bool := do
  Run.update fun s => { s with stopping := false }
  modify fun t => t.printPrompt
  match ← Run.readLine with
  | none => pure false
  | some line => do
    let output ← dispatch line
    let status ← Run.status
    if status ≠ 0 then Run.printLine (statusText status)
    pure (output ≠ .exit)

/-- Take at most so many turns. -/
def turns (dispatch : Text → Run Output) : Nat → Run Unit
  | 0 => pure ()
  | n + 1 => do
    if ← turn dispatch then turns dispatch n

/-- Take turns to the end and give back the last status.  Every turn after which the loop
goes on has read a line, so that the lines left to read bound their number. -/
def run (dispatch : Text → Run Output) : Run Int := do
  turns dispatch ((← get).console.pending + 1)
  Run.status

end InputLoop

end Teletype

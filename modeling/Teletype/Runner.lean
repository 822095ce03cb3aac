/-
# Running programs

A program is run from its lowest line upwards.  The output of a line says where it goes
on; a jump must lead to a line of the program and counts against a budget, so that a
run of finitely many lines ends.  A run also ends when a stop is asked for, when a line
fails, and at a line that a program may not hold.
-/
import Teletype.Terminal.Act
import Teletype.Text.UpperCase

namespace Teletype

namespace Runner

/-- The commands that a program may not hold. -/
def heldWords : List Text :=
  ["RUN".toList, "MOVE".toList, "DELETE".toList, "SAVE".toList]

/-- The line holds a command that a program may not hold. -/
def isHeld (line : Text) : Bool := Text.upper (Text.firstWord line) ∈ heldWords

/-- How a run goes on behind a line. -/
inductive Next
  /-- It ends. -/
  | finished
  /-- It goes on with the next line. -/
  | onward
  /-- It goes on at a line. -/
  | jumped (target : LineNumber)
  deriving DecidableEq, Repr

/-- Where a run goes on by the output of a line, if a jump leads to a line of the program
and is within the budget. -/
def follow (p : Program) (budget : Nat) : Output → Except Fault Next
  | .text _ => .ok .onward
  | .exit => .ok .finished
  | .jump target =>
    if (p.line? target).isNone then .error (.missingLine target.text)
    else if budget ≤ 1 then .error .stackLimit
    else .ok (.jumped target)

/-- Stop the run if a stop is asked for or the line failed. -/
def settle : Next → Act Next
  | .finished => pure .finished
  | next => do
    if ← Run.takeStop then pure .finished
    else do
      let status ← Run.status
      if status ≠ 0 then throw (.lineFailed status) else pure next

/-- Carry out one line. -/
def step (dispatch : Text → Run Output) (p : Program) (budget : Nat) (n : LineNumber)
    (line : Text) : Act Next := do
  if isHeld line then throw .heldByProgram
  else do
    Run.note (.reached n)
    let output ← dispatch line
    let next ← Act.ofExcept (follow p budget output)
    settle next

/-- Carry out lines in order up to one that jumps; there the run goes on with other lines,
as `jump` says. -/
def walkLines (dispatch : Text → Run Output) (p : Program) (budget : Nat)
    (jump : List (LineNumber × Text) → Act Unit) : List (LineNumber × Text) → Act Unit
  | [] => pure ()
  | (n, line) :: rest => do
    match ← step dispatch p budget n line with
    | .finished => pure ()
    | .onward => walkLines dispatch p budget jump rest
    | .jumped target => jump (p.linesFrom target)

/-- Carry out lines of a program within a budget of jumps. -/
def walk (dispatch : Text → Run Output) (p : Program) : Nat → List (LineNumber × Text) → Act Unit
  | 0 => walkLines dispatch p 0 fun _ => pure ()
  | budget + 1 => walkLines dispatch p (budget + 1) (walk dispatch p budget)

/-- How many programs may run inside one another. -/
def depthLimit : Nat := 32

/-- Note the beginning and the end of a run. -/
def noted (a : Act Unit) : Act Unit := ExceptT.mk do
  Run.note (.began (← Run.session).depth)
  let result ← a.run
  Run.note .ended
  pure result

/-- Run a program. -/
def run (dispatch : Text → Run Output) (p : Program) : Act Unit := do
  if depthLimit ≤ (← Run.session).depth then throw .stackLimit
  else do
    let budget := (← get).settings.jumpBudget
    Act.deeper (Act.asProgram (noted (walk dispatch p budget p.entries)))

/-- A jump to a line that the program does not have is refused. -/
theorem follow_missing {p : Program} {target : LineNumber} (h : p.line? target = none)
    (budget : Nat) : follow p budget (.jump target) = .error (.missingLine target.text) := by
  simp [follow, h]

end Runner

end Teletype

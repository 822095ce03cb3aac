/-
# Faults

What can go wrong while a line is carried out, the message that reports it, and the
status that it leaves behind.  No fault leaves status zero.
-/
import Teletype.Text

namespace Teletype

/-- A reason why a command did not succeed. -/
inductive Fault
  /-- The line is not well formed. -/
  | malformed (detail : Text)
  /-- A variable that does not exist was read. -/
  | unbound (name : Text)
  /-- A command failed while it was carried out. -/
  | runtime (detail : Text)
  /-- A command refused its arguments; the message stands by itself. -/
  | refused (message : Text)
  /-- A command that may not be used while a program runs. -/
  | heldByProgram
  /-- A jump to a line that the program does not have. -/
  | missingLine (line : Text)
  /-- Too many jumps, or too many programs inside one another. -/
  | stackLimit
  /-- A line of a program ended with a status of its own. -/
  | lineFailed (status : Int)
  /-- Settings out of range. -/
  | settings (detail : Text)
  /-- A key that the store does not accept. -/
  | badKey (detail : Text)
  /-- The file system refused. -/
  | fileSystem (detail : Text)
  /-- A settings document that cannot be read. -/
  | badSettings (detail : Text)
  /-- A saved session that cannot be read. -/
  | badSnapshot (detail : Text)
  deriving DecidableEq, Repr

namespace Fault

/-- The message that reports the fault. -/
def message : Fault → Text
  | malformed detail => "Syntax error; ".toList ++ detail
  | unbound name => "Reference error; variable ".toList ++ name ++ " does not exist.".toList
  | runtime detail => "Runtime error; ".toList ++ detail
  | refused message => message
  | heldByProgram => "Cannot execute control command within a program.".toList
  | missingLine line => "Invalid program line ".toList ++ line ++ " specified.".toList
  | stackLimit => "Stack limit exceeded.".toList
  | lineFailed _ => "Execution error.".toList
  | settings detail => "config error: ".toList ++ detail
  | badKey detail => "store error: ".toList ++ detail
  | fileSystem detail => "I/O error: ".toList ++ detail
  | badSettings detail => "TOML parse error: ".toList ++ detail
  | badSnapshot detail => "JSON error: ".toList ++ detail

/-- The status that the fault leaves: that of a failed line, and one otherwise. -/
def status : Fault → Int
  | lineFailed s => if s = 0 then 1 else s
  | _ => 1

/-- **No fault leaves status zero.** -/
theorem status_ne_zero (f : Fault) : f.status ≠ 0 := by
  cases f <;> simp only [status] <;> try decide
  split <;> simp_all

end Fault

end Teletype

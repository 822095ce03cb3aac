/-
# The built-in commands

Every command that a terminal knows from the start.
-/
import Teletype.Command.Arithmetic
import Teletype.Command.Control
import Teletype.Command.Screen
import Teletype.Command.Stored

namespace Teletype

/-- A command that a terminal knows from the start. -/
inductive Builtin
  | print | help | clear | clr | cls | color | theme | setCursor | system
  | arithmetic (op : Command.Operation) | sqrt | logarithm | random
  | compare (c : Command.Comparison)
  | assign | unassign | vars | input
  | choose | repeatEach | goto | exit
  | list | run | new | save | aliases | move | delete | download
  deriving DecidableEq, Repr

namespace Builtin

/-- Every built-in command. -/
def all : List Builtin :=
  [print, help, clear, clr, cls, color, theme, setCursor, system,
    arithmetic .add, arithmetic .subtract, arithmetic .multiply, arithmetic .divide,
    arithmetic .power, sqrt, logarithm, random, compare .equal, compare .greater,
    compare .less, assign, unassign, vars, input, choose, repeatEach, goto, exit,
    list, run, new, save, aliases, move, delete, download]

/-- No built-in command is missing from the list. -/
theorem mem_all (b : Builtin) : b ∈ all := by
  cases b with
  | arithmetic op => cases op <;> decide
  | compare c => cases c <;> decide
  | _ => decide

/-- The command. -/
def command : Builtin → Command
  | print => .print
  | help => .help
  | clear => .clearNamed "CLEAR".toList false
  | clr => .clearNamed "CLR".toList true
  | cls => .clearNamed "CLS".toList true
  | color => .color
  | theme => .theme
  | setCursor => .setCursor
  | system => .system
  | arithmetic op => .arithmetic op
  | sqrt => .sqrt
  | logarithm => .logarithm
  | random => .random
  | compare c => .compareBy c
  | assign => .assign
  | unassign => .unassign
  | vars => .vars
  | input => .input
  | choose => .choose
  | repeatEach => .repeatEach
  | goto => .goto
  | exit => .exit
  | list => .list
  | run => .run
  | new => .new
  | save => .save
  | aliases => .aliases
  | move => .move
  | delete => .delete
  | download => .download

end Builtin

/-- The registry of the built-in commands. -/
def Registry.builtin : Registry :=
  (Builtin.all.map Builtin.command).foldl Registry.register .empty

end Teletype

/-
# Commands for variables

Giving a variable a value, taking it away, listing the variables, and asking the user for
a value.
-/
import Teletype.Command

namespace Teletype

namespace Command

/-- Refuse a name that is empty or begins with the mark of a reference. -/
def checkName (name : Text) : Except Fault Unit :=
  if name.head? = some '$' then
    .error (.malformed "variable name cannot begin with $.".toList)
  else if name = [] then .error (.malformed "missing variable name.".toList)
  else .ok ()

/-- A name passes exactly when it has a first character and that is not the mark of a
reference. -/
theorem checkName_eq_ok_iff (name : Text) :
    checkName name = .ok () ↔ ∃ c rest, name = c :: rest ∧ c ≠ '$' := by
  cases name with
  | nil => simp [checkName]
  | cons c rest => by_cases h : c = '$' <;> simp [checkName, h]

/-- Give a variable a value and save the session. -/
def setVariable (name value : Text) : Run Unit := do
  Run.update fun s => { s with bindings := s.bindings.insert name value }
  Run.save

/-- Give a variable a value. -/
def assign : Command where
  page := { name := "ASSIGN".toList, hints := ["value".toList, "TO".toList, "name".toList],
            help := ("Stores a value in a named variable: ASSIGN value TO name. Read it back "
              ++ "with $name.").toList }
  perform host words := do
    match ← host.expand words with
    | [_, value, keyword, name] =>
      if Text.sameAscii keyword "TO".toList then
        Act.ofExcept (checkName name)
        setVariable name value
        pure (.text value)
      else throw (.malformed "second argument of ASSIGN must be TO.".toList)
    | _ => throw (.malformed "ASSIGN takes four arguments.".toList)

/-- Take a variable away. -/
def unassign : Command where
  page := { name := "UNASSIGN".toList, hints := ["name".toList],
            help := "Removes a variable.".toList }
  perform host words := do
    let words ← host.expand words
    let name := words.getD 1 []
    Act.ofExcept (checkName name)
    if (← Run.session).bindings.contains name then
      Run.update fun s => { s with bindings := s.bindings.erase name }
      Run.save
    else Run.printLine ("Variable \"".toList ++ name ++ "\" does not exist.".toList)
    pure .none

/-- The lines that list variables. -/
def variableLines (bindings : Table Text Text) : Text :=
  bindings.entries.flatMap fun e => e.1 ++ " = ".toList ++ e.2 ++ ['\n']

/-- List the variables. -/
def vars : Command where
  page := { name := "VARS".toList, help := "Lists every variable and its value.".toList }
  perform _ _ := do
    let lines := variableLines (← Run.session).bindings
    Run.print lines
    pure (.text lines)

/-- How the words behind the command that asks for a value are read. -/
def inputOptions : Flags.Options := { lookForAction := false, withArgument := ['P'] }

/-- Ask the user for a value. -/
def input : Command where
  page := { name := "INPUT".toList, hints := ["-p prompt".toList, "-u".toList, "name".toList],
            help := ("Reads a line from the user into a variable. -p sets the prompt, -u "
              ++ "uppercases the reply.").toList }
  perform host words := do
    let parsed ← host.parse .standard inputOptions words
    Act.ofExcept (checkName parsed.name)
    let prompt := (parsed.value? 'P').getD "INPUT".toList
    Run.print (prompt ++ (← Run.session).display.prompt ++ [' '])
    match ← Run.readLine with
    | none => throw (.runtime "input closed.".toList)
    | some reply =>
      let reply := if parsed.has 'U' then Text.upper reply else reply
      setVariable parsed.name reply
      pure (.text reply)

end Command

end Teletype
